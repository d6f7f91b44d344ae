import HybridInference.ApiKeys.Isolation

/-!
# The keys of an account share one quota

In every interleaving of the transactions all live keys of a user have the same quota
at every commit, a revoked key stays revoked, an account has no more active keys than
its creations allow, and a suspension or a revocation leaves no key active.
-/

namespace HybridInference.ApiKeys

open Library

section Advancing

variable {store : Store}

variable {request : Request}

theorem hasRoom_of_not_create {keys : Dict ℕ ApiKey}
    (notCreate : ∀ create, request ≠ .createKey create) : HasRoom keys request :=
  fun create _ isCreate => absurd isCreate (notCreate create)

variable {place : ℕ}

theorem moves_become {stage next : Stage} (sound : Sound store.keys store.nextId ⟨request, next, ∅⟩)
    (held : Transaction.held ⟨request, next, ∅⟩ = none ∨
      Transaction.held ⟨request, next, ∅⟩ = Transaction.held ⟨request, stage, ∅⟩)
    (unchosen : ∀ id, next ≠ .chosen id) :
    Moves store place ⟨request, stage, ∅⟩ ⟨request, next, ∅⟩ store.nextId := by
  have free (id : ℕ) : Transaction.hasRow ⟨request, next, ∅⟩ id = false := by
    cases next with
    | chosen chosen => exact absurd rfl (unchosen chosen)
    | _ => rfl
  refine ⟨rfl, Nat.le_refl _, sound, ?_, ?_, ?_⟩
  · intro lock isHeld
    rcases held with none_ | same
    · rw [none_] at isHeld
      cases isHeld
    · exact Or.inl (same ▸ isHeld)
  · simp [free]
  · simp [free]

theorem moves_visiting {stage : Stage}
    {update : RowUpdate ApiKey} (notCreate : ∀ create, request ≠ .createKey create)
    (runs : request.Runs update) (held : Transaction.held ⟨request, stage, ∅⟩ = request.lock) :
    Moves store place ⟨request, stage, ∅⟩ (store.visiting ⟨request, stage, ∅⟩ update)
      store.nextId := by
  refine moves_become ?_ (Or.inr held.symm) ?_
  · exact ⟨visiting_targets runs notCreate, hasRoom_of_not_create notCreate⟩
  · intro id same
    cases same

theorem moves_insert {create : Create} {quota : Quota} (isolated : Isolated store)
    (found : store.transactions[place]? = some ⟨.createKey create, .seeded quota, ∅⟩) :
    Moves store place ⟨.createKey create, .seeded quota, ∅⟩
      ⟨.createKey create, .inserted quota store.nextId,
        (∅ : Dict ℕ (Option ApiKey)).insert store.nextId
          (some (create.row quota store.nextId))⟩ (store.nextId + 1) := by
  have isNew {id : ℕ} (has : Transaction.hasRow ⟨.createKey create, .inserted quota store.nextId,
      (∅ : Dict ℕ (Option ApiKey)).insert store.nextId
        (some (create.row quota store.nextId))⟩ id = true) : id = store.nextId := by
    by_contra notNew
    simp only [Transaction.hasRow, Dict.find_insert, if_neg notNew, Dict.find_empty,
      Option.isSome_none, Bool.or_false] at has
    cases has
  refine ⟨rfl, Nat.le_succ _, ?_, ?_, ?_, ?_⟩
  · refine ⟨⟨create, rfl, rfl⟩, ?_, Nat.lt_succ_self _, (isolated.sound place _ found).2⟩
    cases new : store.keys.find store.nextId with
    | none => rfl
    | some key => exact absurd (isolated.named _ key new).2.1 (Nat.lt_irrefl _)
  · intro lock isHeld
    exact Or.inl isHeld
  · intro id has
    refine Or.inr fun other another isOther different => ?_
    cases alsoHas : another.hasRow id with
    | false => rfl
    | true =>
      have drawn := isolated.lt_nextId isOther alsoHas
      have last := isNew has
      omega
  · intro id has
    exact Or.inr (Or.inl (isNew has))

variable {writes : Dict ℕ (Option ApiKey)}

theorem moves_sync {create : Create} {quota : Quota} {id : ℕ} (isolated : Isolated store)
    (found : store.transactions[place]? = some ⟨.createKey create, .inserted quota id, writes⟩) :
    Moves store place ⟨.createKey create, .inserted quota id, writes⟩
      (store.visiting ⟨.createKey create, .inserted quota id, writes⟩
        (syncAccountQuota create.userId quota id)) store.nextId := by
  rcases isolated.sound place _ found with ⟨⟨other, same, isWrites⟩, new, drawn, room⟩
  obtain rfl := Request.createKey.inj same
  refine ⟨rfl, Nat.le_refl _, ?_, ?_, ?_, ?_⟩
  · subst isWrites
    exact ⟨visiting_sync new drawn, room⟩
  · intro lock isHeld
    exact Or.inl isHeld
  · intro other has
    exact Or.inl has
  · intro other has
    exact Or.inl has

/-- `regenerate_key` writes the row that it has locked. -/
theorem moves_regenerate {place id : ℕ} {userId newHash newPrefix : String} :
    Moves store place ⟨.regenerateKey userId newHash newPrefix, .chosen id, ∅⟩
      ⟨.regenerateKey userId newHash newPrefix, .visiting (regenerateKey id newHash newPrefix) [],
        (regenerateKey id newHash newPrefix).visit store.keys ∅ id⟩ store.nextId := by
  have wasChosen {other : ℕ} (has : Transaction.hasRow ⟨.regenerateKey userId newHash newPrefix,
      .visiting (regenerateKey id newHash newPrefix) [],
      (regenerateKey id newHash newPrefix).visit store.keys ∅ id⟩ other = true) :
      Transaction.hasRow ⟨.regenerateKey userId newHash newPrefix, .chosen id, ∅⟩ other =
        true := by
    simp only [Transaction.hasRow, Bool.or_false] at has
    rcases Option.isSome_iff_exists.mp has with ⟨row, isWritten⟩
    rcases RowUpdate.find_visit_cases isWritten with earlier | ⟨rfl, -⟩
    · cases earlier
    · simp [Transaction.hasRow]
  refine ⟨rfl, Nat.le_refl _, ?_, ?_, ?_, ?_⟩
  · refine ⟨⟨⟨id, rfl⟩, ?_, ?_, List.nodup_nil, ?_, ?_⟩, hasRoom_of_not_create (by simp)⟩
    · intro other row isWritten
      rcases RowUpdate.find_visit_cases isWritten with earlier | ⟨rfl, before, isBefore, rest⟩
      · cases earlier
      · exact Or.inl ⟨before, isBefore, rest⟩
    · intro create same
      cases same
    · simp
    · intro bulk
      cases bulk
  · intro lock isHeld
    cases isHeld
  · intro other has
    exact Or.inl (wasChosen has)
  · intro other has
    exact Or.inl (wasChosen has)

variable {transaction next : Transaction}

theorem moves_advanced {place nextId : ℕ}
    (isolated : Isolated store) (found : store.transactions[place]? = some transaction)
    (advanced : store.advanced transaction = some (next, nextId)) :
    Moves store place transaction next nextId := by
  have sound := isolated.sound place transaction found
  rcases transaction with ⟨request, stage, writes⟩
  unfold Store.advanced at advanced
  simp only at advanced
  split at advanced
  case h_1 create =>
    obtain rfl : writes = ∅ := sound
    split_ifs at advanced with full <;> cases advanced
    · exact moves_become rfl (Or.inl rfl) (by simp)
    · refine moves_become ⟨rfl, ?_⟩ (Or.inr rfl) (by simp)
      rintro other limit ⟨rfl⟩ isLimit
      simp only [isLimit, Option.any_some, decide_eq_true_eq, not_le] at full
      exact full
  case h_2 create =>
    obtain rfl : writes = ∅ := sound.1
    cases advanced
    exact moves_become ⟨rfl, sound.2⟩ (Or.inr rfl) (by simp)
  case h_3 quota create =>
    obtain rfl : writes = ∅ := sound.1
    cases advanced
    exact moves_insert isolated found
  case h_4 quota id create =>
    cases advanced
    exact moves_sync isolated found
  case h_5 userId fields =>
    obtain rfl : writes = ∅ := sound
    cases advanced
    exact moves_visiting (by simp) rfl rfl
  case h_6 accountId keyPrefix newHash newPrefix =>
    obtain rfl : writes = ∅ := sound
    cases advanced
    exact moves_visiting (by simp) ⟨keyPrefix, rfl⟩ rfl
  case h_7 accountId newHash newPrefix =>
    obtain rfl : writes = ∅ := sound
    split at advanced <;> cases advanced
    · exact moves_become rfl (Or.inr rfl) (by simp)
    · exact moves_become rfl (Or.inl rfl) (by simp)
  case h_8 keyPrefix accountId _ newHash newPrefix =>
    obtain rfl : writes = ∅ := sound
    cases advanced
    exact moves_visiting (by simp) ⟨keyPrefix, rfl⟩ rfl
  case h_9 userId newHash newPrefix =>
    obtain rfl : writes = ∅ := sound
    cases advanced
    exact moves_become rfl (Or.inr rfl) (by simp)
  case h_10 id userId newHash newPrefix =>
    obtain rfl : writes = ∅ := sound.1
    cases advanced
    exact moves_regenerate
  case h_11 userId hardDelete =>
    obtain rfl : writes = ∅ := sound
    cases advanced
    exact moves_visiting (by simp) rfl rfl
  case h_12 userId =>
    obtain rfl : writes = ∅ := sound
    cases advanced
    exact moves_visiting (by simp) rfl rfl
  case h_13 userId selfService =>
    obtain rfl : writes = ∅ := sound
    split_ifs at advanced <;> cases advanced
    · exact moves_become rfl (Or.inl rfl) (by simp)
    · exact moves_become ⟨rfl, hasRoom_of_not_create (by simp)⟩ (Or.inr rfl) (by simp)
  case h_14 userId selfService =>
    obtain rfl : writes = ∅ := sound.1
    cases advanced
    exact moves_visiting (by simp) rfl rfl
  case h_15 role quota =>
    obtain rfl : writes = ∅ := sound
    cases advanced
    exact moves_visiting (by simp) ⟨store.members role, rfl⟩ rfl
  case h_16 => cases advanced

theorem moves_selected (isolated : Isolated store)
    (found : store.transactions[place]? = some transaction)
    (selected : store.selected place transaction = some next) :
    Moves store place transaction next store.nextId := by
  have sound := isolated.sound place transaction found
  rcases transaction with ⟨request, stage, writes⟩
  unfold Store.selected at selected
  simp only at selected
  split at selected
  case h_1 id rest userId newHash newPrefix =>
    obtain rfl : writes = ∅ := sound
    split_ifs at selected with taken matches_ <;> cases selected
    · rw [Bool.not_eq_true, Store.anotherOne_eq_false_iff] at taken
      rcases (Option.any_eq_true _ _).mp matches_ with ⟨row, isRow, -⟩
      refine ⟨rfl, Nat.le_refl _, ⟨rfl, row, isRow⟩, ?_, ?_, ?_⟩
      · intro lock isHeld
        cases isHeld
      · intro other has
        obtain rfl : id = other := by simpa [Transaction.hasRow] using has
        exact Or.inr taken
      · intro other has
        obtain rfl : id = other := by simpa [Transaction.hasRow] using has
        exact Or.inr (Or.inr ⟨row, isRow⟩)
    · exact moves_become rfl (Or.inr rfl) (by simp)
  case h_2 userId newHash newPrefix =>
    obtain rfl : writes = ∅ := sound
    cases selected
    exact moves_become rfl (Or.inl rfl) (by simp)
  case h_3 => cases selected

theorem moves_visited {place id : ℕ} (isolated : Isolated store)
    (found : store.transactions[place]? = some transaction)
    (visited : store.visited place id transaction = some next) :
    Moves store place transaction next store.nextId := by
  have sound := isolated.sound place transaction found
  rcases transaction with ⟨request, stage, writes⟩
  unfold Store.visited at visited
  simp only at visited
  split at visited
  case h_1 update remaining =>
    split_ifs at visited with free
    cases visited
    simp only [Bool.and_eq_true, decide_eq_true_eq, Bool.not_eq_true',
      Store.anotherOne_eq_false_iff] at free
    refine ⟨rfl, Nat.le_refl _, ⟨sound.1.visit free.1, sound.2⟩, ?_, ?_, ?_⟩
    · intro lock isHeld
      exact Or.inl isHeld
    · intro other has
      simp only [Transaction.hasRow, Bool.or_false] at has
      rcases Option.isSome_iff_exists.mp has with ⟨row, isWritten⟩
      rcases RowUpdate.find_visit_cases isWritten with earlier | ⟨rfl, -⟩
      · exact Or.inl (by simp [Transaction.hasRow, earlier])
      · exact Or.inr free.2
    · intro other has
      simp only [Transaction.hasRow, Bool.or_false] at has
      rcases Option.isSome_iff_exists.mp has with ⟨row, isWritten⟩
      rcases RowUpdate.find_visit_cases isWritten with earlier | ⟨rfl, before, isBefore, -⟩
      · exact Or.inl (by simp [Transaction.hasRow, earlier])
      · rw [Dict.find_overlay, sound.1.unwritten _ free.1] at isBefore
        exact Or.inr (Or.inr ⟨before, isBefore⟩)
  case h_2 => cases visited

theorem moves_locked (isolated : Isolated store)
    (found : store.transactions[place]? = some ⟨request, .waiting, writes⟩)
    (free : store.anotherOne place (fun other =>
      request.lock.any fun lock => other.held.any lock.conflicts) = false) :
    Moves store place ⟨request, .waiting, writes⟩ ⟨request, .locked, writes⟩ store.nextId := by
  obtain rfl : writes = ∅ := isolated.sound place _ found
  rw [Store.anotherOne_eq_false_iff] at free
  refine ⟨rfl, Nat.le_refl _, rfl, ?_, by simp [Transaction.hasRow], by simp [Transaction.hasRow]⟩
  intro lock isHeld
  have isLock : request.lock = some lock := isHeld
  refine Or.inr fun other another held isOther different otherHeld => ?_
  have apart := free other another isOther different
  simpa [isLock, otherHeld] using apart

theorem moves_ended : Moves store place transaction (Store.ended transaction) store.nextId where
  request := rfl
  le := Nat.le_refl _
  sound := rfl
  locks := by
    intro lock isHeld
    cases isHeld
  rows := by simp [Store.ended, Transaction.hasRow]
  known := by simp [Store.ended, Transaction.hasRow]

inductive Stepped (store : Store) : Event → Store → Prop where
  | begin (request : Request) :
      Stepped store (.begin request)
        { store with transactions := store.transactions ++ [{ request }] }
  | moves (event : Event) (place nextId : ℕ) (before after : Transaction)
      (found : store.transactions[place]? = some before)
      (moves : Moves store place before after nextId)
      (uncommitted : ∀ other, event ≠ .commit other) :
      Stepped store event { store.set place after with nextId }
  | commit (place : ℕ) (request : Request) (writes : Dict ℕ (Option ApiKey))
      (update : RowUpdate ApiKey)
      (found : store.transactions[place]? = some ⟨request, .visiting update [], writes⟩) :
      Stepped store (.commit place)
        { store.set place (Store.ended ⟨request, .visiting update [], writes⟩) with
          keys := store.keys.overlay writes
          users := Store.committedUsers store.users request }
  | setUser (userId : String) (user : User) :
      Stepped store (.setUser userId user) { store with users := store.users.insert userId user }

/-- A step of the store, by what it does. -/
theorem stepped_of_step {event : Event} {next : Store} (isolated : Isolated store)
    (stepped : store.step event = some next) : Stepped store event next := by
  cases event <;> simp only [Store.step] at stepped
  case begin request =>
    cases stepped
    exact .begin request
  case lock place =>
    split at stepped
    next transaction found =>
      rcases transaction with ⟨request, stage, writes⟩
      split at stepped
      next isWaiting =>
        simp only at isWaiting
        subst isWaiting
        split_ifs at stepped with taken
        cases stepped
        exact .moves _ place _ _ _ found
          (moves_locked isolated found (by simpa using taken)) (by simp)
      · cases stepped
    · cases stepped
  case advance place =>
    split at stepped
    next transaction found =>
      split at stepped
      next after nextId advanced =>
        cases stepped
        exact .moves _ place _ _ _ found (moves_advanced isolated found advanced) (by simp)
      next =>
        rcases Option.map_eq_some_iff.mp stepped with ⟨after, selected, rfl⟩
        exact .moves _ place _ _ _ found (moves_selected isolated found selected) (by simp)
    · cases stepped
  case visit place id =>
    split at stepped
    next transaction found =>
      rcases Option.map_eq_some_iff.mp stepped with ⟨after, visited, rfl⟩
      exact .moves _ place _ _ _ found (moves_visited isolated found visited) (by simp)
    · cases stepped
  case commit place =>
    split at stepped
    next transaction found =>
      rcases transaction with ⟨request, stage, writes⟩
      split at stepped
      next update isVisiting =>
        simp only at isVisiting
        subst isVisiting
        cases stepped
        exact .commit place request writes update found
      · cases stepped
    · cases stepped
  case abandon place =>
    split at stepped <;> cases stepped
    next transaction found => exact .moves _ place _ _ _ found moves_ended (by simp)
  case setUser userId user =>
    cases stepped
    exact .setUser userId user

end Advancing

section Commits

variable {keys : Dict ℕ ApiKey} {nextId : ℕ} {request : Request}
  {writes : Dict ℕ (Option ApiKey)} {update : RowUpdate ApiKey}

variable {userId : String}

theorem uniform_of_map {later : Dict ℕ ApiKey} (change : Quota → Quota)
    (uniform : Uniform keys userId)
    (mapped : ∀ id after, later.find id = some after → after.userId = userId →
      after.isLive = true → ∃ before, keys.find id = some before ∧ before.userId = userId ∧
        before.isLive = true ∧ after.quota = change before.quota) :
    Uniform later userId := by
  intro id other key another isKey isAnother keyUser anotherUser keyLive anotherLive
  rcases mapped id key isKey keyUser keyLive with ⟨first, isFirst, firstUser, firstLive, keyQuota⟩
  rcases mapped other another isAnother anotherUser anotherLive with
    ⟨second, isSecond, secondUser, secondLive, anotherQuota⟩
  rw [keyQuota, anotherQuota,
    uniform id other first second isFirst isSecond firstUser secondUser firstLive secondLive]

theorem Visiting.not_matching {id : ℕ} {key : ApiKey}
    (visiting : Visiting keys nextId request writes update []) (bulk : request.isBulk = true)
    (unwritten : writes.find id = none) (found : keys.find id = some key)
    (covered : request.covers key.userId = true) : update.matching key = false := by
  cases matching : update.matching key with
  | false => rfl
  | true =>
    rcases visiting.covers bulk id key found covered matching with member | written
    · cases member
    · rw [unwritten] at written
      cases written

theorem Request.Runs.mild {before after : ApiKey} (runs : request.Runs update)
    (changed : update.change before = some after)
    (notCreate : ∀ create, request ≠ .createKey create)
    (notUpdate : ∀ userId fields, request ≠ .updateKey userId fields)
    (notRole : ∀ role quota, request ≠ .applyRoleQuota role quota) : Mild before after := by
  cases request with
  | createKey create => exact absurd rfl (notCreate create)
  | updateKey userId fields => exact absurd rfl (notUpdate userId fields)
  | applyRoleQuota role quota => exact absurd rfl (notRole role quota)
  | rotateKey accountId keyPrefix newHash newPrefix | regenerateKey userId newHash newPrefix =>
    rcases runs with ⟨_, rfl⟩
    cases changed
    exact ⟨rfl, Or.inl rfl⟩
  | revokeKey userId hardDelete =>
    obtain rfl := runs
    cases hardDelete with
    | true => cases changed
    | false =>
      cases changed
      exact ⟨rfl, Or.inr rfl⟩
  | suspendUser userId | deleteUser userId selfService =>
    obtain rfl := runs
    cases changed
    exact ⟨rfl, Or.inr rfl⟩

theorem syncAccountQuota_stored {userId other : String} {first second : Quota} {id another : ℕ}
    (same : syncAccountQuota userId first id = syncAccountQuota other second another) :
    first.stored = second.stored := by
  have changed := congrArg (fun update : RowUpdate ApiKey =>
    (update.change ⟨0, "", "", "", none, "", first, 0⟩).map ApiKey.quota) same
  simpa [syncAccountQuota] using changed

theorem Visiting.quota_of_create {create : Create} {quota : Quota} {new id : ℕ} {after : ApiKey}
    (visiting : Visiting keys nextId (.createKey create) writes
      (syncAccountQuota create.userId quota new) [])
    (named : ∀ id key, keys.find id = some key → key.id = id ∧ key.quota.stored = key.quota)
    (isNew : keys.find new = none) (found : (keys.overlay writes).find id = some after)
    (isUser : after.userId = create.userId) (live : after.isLive = true) :
    after.quota = quota.stored := by
  rcases visiting.find_overlay_cases found with
    ⟨unwritten, isKey⟩ | ⟨before, -, -, changed, -⟩ | ⟨⟨other, otherQuota, -, same, isRow⟩, -⟩
  · have covered : (Request.createKey create).covers after.userId = true := by
      simp [Request.covers, Request.lock, Lock.covers, isUser]
    have unmatched := visiting.not_matching rfl unwritten isKey covered
    have different : after.id ≠ new := by
      rw [(named id after isKey).1]
      rintro rfl
      rw [isNew] at isKey
      cases isKey
    simp only [syncAccountQuota, isUser, decide_true, live, Bool.true_and, ne_eq, different,
      not_false_eq_true, Bool.or_eq_false_iff, decide_eq_false_iff_not, not_not] at unmatched
    have isQuota : after.quota = quota := by
      cases isAfter : after.quota
      cases quota
      simp_all
    rw [← isQuota]
    exact (named id after isKey).2.symm
  · cases changed
    rfl
  · cases isRow
    exact (syncAccountQuota_stored same).symm

theorem Inserts.isCreate {id : ℕ} {row : Option ApiKey} (inserts : Inserts request update id row) :
    ∃ create, request = .createKey create := by
  rcases inserts with ⟨create, -, isCreate, -⟩
  exact ⟨create, isCreate⟩

theorem Visiting.uniform_of_mild (visiting : Visiting keys nextId request writes update [])
    (notCreate : ∀ create, request ≠ .createKey create)
    (notUpdate : ∀ userId fields, request ≠ .updateKey userId fields)
    (notRole : ∀ role quota, request ≠ .applyRoleQuota role quota) (uniform : Uniform keys userId) :
    Uniform (keys.overlay writes) userId := by
  refine uniform_of_map id uniform ?_
  intro id after found isUser live
  rcases visiting.find_overlay_cases found with
    ⟨-, same⟩ | ⟨before, isBefore, -, changed, keeps⟩ | ⟨inserts, -⟩
  · exact ⟨after, same, isUser, live, rfl⟩
  · have mild := visiting.runs.mild changed notCreate notUpdate notRole
    exact ⟨before, isBefore, keeps.userId ▸ isUser, mild.isLive live, mild.quota⟩
  · rcases inserts.isCreate with ⟨create, isCreate⟩
    exact absurd isCreate (notCreate create)

theorem Visiting.uniform_updateKey {fields : KeyFields}
    (visiting : Visiting keys nextId (.updateKey userId fields) writes update [])
    (uniform : Uniform keys userId) : Uniform (keys.overlay writes) userId := by
  have isUpdate : update = updateKey userId fields := visiting.runs
  refine uniform_of_map fields.quota uniform ?_
  intro id after found isUser live
  rcases visiting.find_overlay_cases found with
    ⟨unwritten, same⟩ | ⟨before, isBefore, matching, changed, keeps⟩ | ⟨inserts, -⟩
  · have covered : (Request.updateKey userId fields).covers after.userId = true := by
      simp [Request.covers, Request.lock, Lock.covers, isUser]
    have unmatched := visiting.not_matching rfl unwritten same covered
    simp [isUpdate, updateKey, isUser, live] at unmatched
  · subst isUpdate
    cases changed
    simp only [updateKey, Bool.and_eq_true, decide_eq_true_eq] at matching
    exact ⟨before, isBefore, matching.1, matching.2, rfl⟩
  · rcases inserts.isCreate with ⟨create, isCreate⟩
    cases isCreate

theorem Visiting.uniform_applyRoleQuota {role userId : String} {quota : ℚ}
    (visiting : Visiting keys nextId (.applyRoleQuota role quota) writes update [])
    (uniform : Uniform keys userId) : Uniform (keys.overlay writes) userId := by
  rcases visiting.runs with ⟨members, rfl⟩
  -- Either all keys of the user are changed or none is.
  refine uniform_of_map (fun before => if members.contains userId then
    { before with daily := some (decimal quota) } else before) uniform ?_
  intro id after found isUser live
  rcases visiting.find_overlay_cases found with
    ⟨unwritten, same⟩ | ⟨before, isBefore, matching, changed, keeps⟩ | ⟨inserts, -⟩
  · have unmatched := visiting.not_matching rfl unwritten same rfl
    simp only [applyRoleQuota, live, isUser, Bool.true_and] at unmatched
    exact ⟨after, same, isUser, live, by rw [if_neg (Bool.eq_false_iff.mp unmatched)]⟩
  · cases changed
    have sameUser : before.userId = userId := isUser
    simp only [applyRoleQuota, Bool.and_eq_true, sameUser] at matching
    exact ⟨before, isBefore, sameUser, matching.1, by rw [if_pos matching.2]⟩
  · rcases inserts.isCreate with ⟨create, isCreate⟩
    cases isCreate

theorem Visiting.uniform (visiting : Visiting keys nextId request writes update [])
    (named : ∀ id key, keys.find id = some key → key.id = id ∧ key.quota.stored = key.quota)
    (uniform : Uniform keys userId) :
    Uniform (keys.overlay writes) userId := by
  by_cases covered : request.covers userId = true
  · cases request with
    | createKey create =>
      obtain rfl : create.userId = userId := by
        simpa [Request.covers, Request.lock, Lock.covers] using covered
      rcases visiting.except_ create rfl with ⟨quota, new, rfl, isNew, -⟩
      intro id other key another isKey isAnother keyUser anotherUser keyLive anotherLive
      rw [visiting.quota_of_create named isNew isKey keyUser keyLive,
        visiting.quota_of_create named isNew isAnother anotherUser anotherLive]
    | updateKey owner fields =>
      obtain rfl : owner = userId := by
        simpa [Request.covers, Request.lock, Lock.covers] using covered
      exact visiting.uniform_updateKey uniform
    | applyRoleQuota role quota => exact visiting.uniform_applyRoleQuota uniform
    | rotateKey accountId keyPrefix newHash newPrefix | regenerateKey owner newHash newPrefix
    | revokeKey owner hardDelete | suspendUser owner | deleteUser owner selfService =>
      exact visiting.uniform_of_mild (by simp) (by simp) (by simp) uniform
  · rw [Bool.not_eq_true] at covered
    refine uniform_of_map id uniform ?_
    intro id after found isUser live
    rcases visiting.uncovered found (isUser ▸ covered) with ⟨before, isBefore, -, sameUser, mild⟩
    exact ⟨before, isBefore, sameUser ▸ isUser, mild.isLive live, mild.quota⟩

end Commits

section Runs

variable {store : Store}

variable {userId : String}

theorem covers_eq_false_of_conflicts {first second : Request}
    (apart : ∀ lock held, first.lock = some lock → second.lock = some held →
      lock.conflicts held = false)
    (covered : first.covers userId = true) : second.covers userId = false := by
  cases isSecond : second.lock with
  | none => simp [Request.covers, isSecond]
  | some held =>
    rcases (Option.any_eq_true _ _).mp covered with ⟨lock, isFirst, covers⟩
    have free := apart lock held isFirst isSecond
    cases lock with
    | allAccounts => cases held <;> cases free
    | account accountId =>
      cases held with
      | allAccounts => cases free
      | account other =>
        simp only [Lock.conflicts, Lock.covers, decide_eq_true_eq,
          decide_eq_false_iff_not] at free covers
        subst covers
        simpa [Request.covers, isSecond, Lock.covers, eq_comm] using free

variable {update : RowUpdate ApiKey} {writes : Dict ℕ (Option ApiKey)} {request : Request}

theorem Isolated.commit {place : ℕ} (isolated : Isolated store)
    (found : store.transactions[place]? = some ⟨request, .visiting update [], writes⟩) :
    Isolated { store.set place (Store.ended ⟨request, .visiting update [], writes⟩) with
      keys := store.keys.overlay writes
      users := Store.committedUsers store.users request } := by
  rcases isolated.sound place _ found with ⟨visiting, -⟩
  have named {id : ℕ} {key : ApiKey} (isKey : store.keys.find id = some key) :=
    isolated.named id key isKey
  refine ⟨?_, ?_, ?_, ?_, ?_⟩
  · intro userId
    exact visiting.uniform (fun id key isKey => ⟨(named isKey).1, (named isKey).2.2⟩)
      (isolated.uniform userId)
  · intro id after isAfter
    rcases visiting.find_overlay_cases isAfter with
      ⟨-, isKey⟩ | ⟨before, isBefore, -, -, keeps⟩ | ⟨⟨create, quota, -, -, isRow⟩, -, drawn⟩
    · exact named isKey
    · rcases named isBefore with ⟨sameId, drawn, stored⟩
      exact ⟨keeps.id.trans sameId, drawn, keeps.stored stored⟩
    · cases isRow
      exact ⟨rfl, drawn, quota.stored_stored⟩
  · intro other transaction isFound
    rcases Store.set_cases found isFound with ⟨-, rfl⟩ | ⟨different, earlier⟩
    · rfl
    · refine (isolated.sound other transaction earlier).commit visiting ?_ ?_
      · intro id has
        have free := isolated.rows other place transaction _ id earlier found
          (fun same => different same.symm) has
        simpa [Transaction.hasRow] using free
      · intro isHeld userId covered
        refine covers_eq_false_of_conflicts ?_ covered
        intro lock held isLock isOther
        exact isolated.locks other place transaction _ lock held earlier found
          (fun same => different same.symm) (isHeld.trans isLock) isOther
  · intro first second transaction another lock held isFirst isSecond different firstHeld secondHeld
    rcases Store.set_cases found isFirst with ⟨-, rfl⟩ | ⟨-, earlierFirst⟩
    · cases firstHeld
    · rcases Store.set_cases found isSecond with ⟨-, rfl⟩ | ⟨-, earlierSecond⟩
      · cases secondHeld
      · exact isolated.locks first second transaction another lock held earlierFirst earlierSecond
          different firstHeld secondHeld
  · intro first second transaction another id isFirst isSecond different has
    rcases Store.set_cases found isFirst with ⟨-, rfl⟩ | ⟨-, earlierFirst⟩
    · cases has
    · rcases Store.set_cases found isSecond with ⟨-, rfl⟩ | ⟨-, earlierSecond⟩
      · rfl
      · exact isolated.rows first second transaction another id earlierFirst earlierSecond
          different has

theorem Isolated.begin (isolated : Isolated store) (request : Request) :
    Isolated { store with transactions := store.transactions ++ [{ request }] } := by
  refine ⟨isolated.uniform, isolated.named, ?_, ?_, ?_⟩
  · intro place transaction isFound
    rcases getElem?_concat_cases isFound with earlier | ⟨-, rfl⟩
    · exact isolated.sound place transaction earlier
    · rfl
  · intro first second transaction another lock held isFirst isSecond different firstHeld secondHeld
    rcases getElem?_concat_cases isFirst with earlierFirst | ⟨-, rfl⟩
    · rcases getElem?_concat_cases isSecond with earlierSecond | ⟨-, rfl⟩
      · exact isolated.locks first second transaction another lock held earlierFirst earlierSecond
          different firstHeld secondHeld
      · cases secondHeld
    · cases firstHeld
  · intro first second transaction another id isFirst isSecond different has
    rcases getElem?_concat_cases isFirst with earlierFirst | ⟨-, rfl⟩
    · rcases getElem?_concat_cases isSecond with earlierSecond | ⟨-, rfl⟩
      · exact isolated.rows first second transaction another id earlierFirst earlierSecond
          different has
      · rfl
    · cases has

variable {event : Event}

variable {next : Store}

/-- One step of any transaction keeps the isolation. -/
theorem isolated_step (isolated : Isolated store)
    (stepped : store.step event = some next) : Isolated next := by
  cases stepped_of_step isolated stepped with
  | begin request => exact isolated.begin request
  | moves event place nextId before after found moves _ => exact isolated.move found moves
  | commit place request writes update found => exact isolated.commit found
  | setUser userId user =>
    exact ⟨isolated.uniform, isolated.named, isolated.sound, isolated.locks, isolated.rows⟩

theorem isolated_initial (users : Dict String User) : Isolated { users } where
  uniform := by simp [Uniform]
  named := by simp
  sound := by simp
  locks := by simp
  rows := by simp

/-- A key that is revoked or gone, and that no transaction is about to insert. -/
structure Dead (store : Store) (id : ℕ) : Prop where
  drawn : id < store.nextId
  revoked : ∀ key, store.keys.find id = some key → key.isLive = false
  gone : store.keys.find id = none → ∀ (place : ℕ) (transaction : Transaction),
    store.transactions[place]? = some transaction → transaction.hasRow id = false

theorem dead_of_revoked {id : ℕ} {key : ApiKey} (isolated : Isolated store)
    (isKey : store.keys.find id = some key) (revoked : key.isLive = false) : Dead store id := by
  refine ⟨(isolated.named id key isKey).2.1, ?_, ?_⟩
  · intro other isOther
    rw [isKey, Option.some.injEq] at isOther
    exact isOther ▸ revoked
  · intro isGone
    rw [isKey] at isGone
    cases isGone

/-- A key that is gone stays gone. -/
theorem dead_step {id : ℕ} (isolated : Isolated store)
    (dead : Dead store id) (stepped : store.step event = some next) : Dead next id := by
  cases stepped_of_step isolated stepped with
  | begin request =>
    refine ⟨dead.drawn, dead.revoked, ?_⟩
    intro isGone place transaction isFound
    rcases getElem?_concat_cases isFound with earlier | ⟨-, rfl⟩
    · exact dead.gone isGone place transaction earlier
    · rfl
  | moves event place nextId before after found moves _ =>
    refine ⟨Nat.lt_of_lt_of_le dead.drawn moves.le, dead.revoked, ?_⟩
    intro isGone other transaction isFound
    rcases Store.set_cases found isFound with ⟨-, rfl⟩ | ⟨-, earlier⟩
    · cases has : transaction.hasRow id with
      | false => rfl
      | true =>
        have wasFree := dead.gone isGone place before found
        rcases moves.known id has with same | rfl | ⟨key, isKey⟩
        · rw [wasFree] at same
          cases same
        · exact absurd dead.drawn (Nat.lt_irrefl _)
        · have isGone : store.keys.find id = none := isGone
          rw [isGone] at isKey
          cases isKey
    · exact dead.gone isGone other transaction earlier
  | commit place request writes update found =>
    rcases isolated.sound place _ found with ⟨visiting, -⟩
    have notNew {after : ApiKey} (inserts : Inserts request update id (some after))
        (isNew : store.keys.find id = none)
        (isAfter : (store.keys.overlay writes).find id = some after) : False := by
      have free := dead.gone isNew place _ found
      simp only [Transaction.hasRow, Bool.or_false] at free
      have unwritten : writes.find id = none := by simpa using free
      rw [Dict.find_overlay, unwritten, Option.getD_none, isNew] at isAfter
      cases isAfter
    refine ⟨dead.drawn, ?_, ?_⟩
    · intro after isAfter
      rcases visiting.find_overlay_cases isAfter with
        ⟨-, isKey⟩ | ⟨before, isBefore, -, -, keeps⟩ | ⟨inserts, isNew, -⟩
      · exact dead.revoked after isKey
      · have wasRevoked := dead.revoked before isBefore
        simp only [ApiKey.isLive, decide_eq_false_iff_not, not_not] at wasRevoked ⊢
        exact keeps.revoked wasRevoked
      · exact absurd isAfter fun isAfter => notNew inserts isNew isAfter
    · intro isGone other transaction isFound
      rcases Store.set_cases found isFound with ⟨-, rfl⟩ | ⟨different, earlier⟩
      · rfl
      · cases has : transaction.hasRow id with
        | false => rfl
        | true =>
          have free := isolated.rows other place transaction _ id earlier found
            (fun same => different same.symm) has
          have unwritten : writes.find id = none := by
            simpa [Transaction.hasRow] using free
          simp only [Dict.find_overlay, unwritten, Option.getD_none] at isGone
          have wasFree := dead.gone isGone other transaction earlier
          rw [has] at wasFree
          cases wasFree
  | setUser userId user => exact ⟨dead.drawn, dead.revoked, dead.gone⟩

def Request.isCapped (cap : ℕ) : Request → Bool
  | .createKey create => create.maxActiveKeys = some cap
  | .updateKey _ fields => fields.status.isNone
  | _ => true

def Event.isCapped (cap : ℕ) : Event → Bool
  | .begin request => request.isCapped cap
  | _ => true

structure Capped (cap : ℕ) (store : Store) : Prop where
  isolated : Isolated store
  requests : ∀ (place : ℕ) (transaction : Transaction),
    store.transactions[place]? = some transaction → transaction.request.isCapped cap = true
  active : ∀ userId, Store.activeCount store.keys userId ≤ cap

theorem Request.Runs.active_of_capped {before after : ApiKey} {cap : ℕ} (runs : request.Runs update)
    (changed : update.change before = some after) (capped : request.isCapped cap = true)
    (active : after.isActive = true) : before.isActive = true := by
  cases request with
  | createKey create =>
    rcases runs with ⟨quota, id, rfl⟩
    cases changed
    exact active
  | updateKey userId fields =>
    obtain rfl := runs
    cases changed
    have unchanged : fields.status = none := by simpa [isCapped] using capped
    simpa [ApiKey.isActive, unchanged] using active
  | applyRoleQuota role quota =>
    rcases runs with ⟨members, rfl⟩
    cases changed
    exact active
  | _ => exact (runs.mild changed (by simp) (by simp) (by simp)).isActive active

theorem syncAccountQuota_id {userId other : String} {first second : Quota} {id another : ℕ}
    (same : syncAccountQuota userId first id = syncAccountQuota other second another) :
    id = another := by
  by_contra different
  have matching := congrArg (fun update : RowUpdate ApiKey =>
    update.matching ⟨id, "", "", other, none, "active",
      ⟨if second.daily = none then some 0 else none, none⟩, 0⟩) same
  cases daily : second.daily <;>
    simp [syncAccountQuota, ApiKey.isLive, different, daily] at matching

variable {keys : Dict ℕ ApiKey}

theorem Visiting.activeCount_le {nextId cap : ℕ}
    (visiting : Visiting keys nextId request writes update []) (room : HasRoom keys request)
    (capped : request.isCapped cap = true) (active : Store.activeCount keys userId ≤ cap) :
    Store.activeCount (keys.overlay writes) userId ≤ cap := by
  have kept {id : ℕ} {after : ApiKey} (isAfter : (keys.overlay writes).find id = some after)
      (isUser : after.userId = userId) (isActive : after.isActive = true) :
      (∃ before, keys.find id = some before ∧ before.userId = userId ∧
        before.isActive = true) ∨ Inserts request update id (some after) := by
    rcases visiting.find_overlay_cases isAfter with
      ⟨-, same⟩ | ⟨before, isBefore, -, changed, keeps⟩ | ⟨inserts, -⟩
    · exact Or.inl ⟨after, same, isUser, isActive⟩
    · exact Or.inl ⟨before, isBefore, keeps.userId ▸ isUser,
        visiting.runs.active_of_capped changed capped isActive⟩
    · exact Or.inr inserts
  by_cases creates : ∃ create, request = .createKey create ∧ create.userId = userId
  · rcases creates with ⟨create, rfl, rfl⟩
    have below := room create cap rfl (by simpa [Request.isCapped] using capped)
    rcases visiting.except_ create rfl with ⟨quota, new, isUpdate, -⟩
    have length : Store.activeCount (keys.overlay writes) create.userId ≤
        (new :: keys.keysWhere fun key =>
          key.userId = create.userId && key.isActive).length := by
      refine (List.subperm_of_subset ((keys.overlay writes).nodupKeys.filter _) ?_).length_le
      intro id member
      rcases Dict.mem_keysWhere_iff.mp member with ⟨after, isAfter, test⟩
      simp only [Bool.and_eq_true, decide_eq_true_eq] at test
      rcases kept isAfter test.1 test.2 with ⟨before, isBefore, sameUser, wasActive⟩ | inserts
      · refine List.mem_cons_of_mem _ (Dict.mem_keysWhere_iff.mpr ⟨before, isBefore, ?_⟩)
        simp [sameUser, wasActive]
      · rcases inserts with ⟨other, otherQuota, -, otherUpdate, -⟩
        rw [syncAccountQuota_id (otherUpdate.symm.trans isUpdate)]
        exact List.mem_cons_self
    exact Nat.le_trans length below
  · refine Nat.le_trans (ApiKeys.activeCount_le ?_) active
    intro id after isAfter isUser isActive
    rcases kept isAfter isUser isActive with before | ⟨create, quota, isCreate, -, isRow⟩
    · exact before
    · cases isRow
      exact absurd ⟨create, isCreate, isUser⟩ creates

/-- A step under the cap keeps every account under it. -/
theorem capped_step {cap : ℕ} (capped : Capped cap store)
    (isCapped : event.isCapped cap = true) (stepped : store.step event = some next) :
    Capped cap next := by
  refine ⟨isolated_step capped.isolated stepped, ?_, ?_⟩
  · cases stepped_of_step capped.isolated stepped with
    | begin request =>
      intro place transaction isFound
      rcases getElem?_concat_cases isFound with earlier | ⟨-, rfl⟩
      · exact capped.requests place transaction earlier
      · exact isCapped
    | moves event place nextId before after found moves _ =>
      intro other transaction isFound
      rcases Store.set_cases found isFound with ⟨-, rfl⟩ | ⟨-, earlier⟩
      · rw [moves.request]
        exact capped.requests place before found
      · exact capped.requests other transaction earlier
    | commit place request writes update found =>
      intro other transaction isFound
      rcases Store.set_cases found isFound with ⟨-, rfl⟩ | ⟨-, earlier⟩
      · have wasCapped := capped.requests place _ found
        exact wasCapped
      · exact capped.requests other transaction earlier
    | setUser userId user => exact capped.requests
  · cases stepped_of_step capped.isolated stepped with
    | begin request => exact capped.active
    | moves event place nextId before after found moves _ => exact capped.active
    | commit place request writes update found =>
      rcases capped.isolated.sound place _ found with ⟨visiting, room⟩
      intro userId
      exact visiting.activeCount_le room (capped.requests place _ found) (capped.active userId)
    | setUser userId user => exact capped.active

def Request.revokes : Request → Option String
  | .revokeKey userId _ => some userId
  | .suspendUser userId => some userId
  | .deleteUser userId _ => some userId
  | _ => none

theorem Request.Runs.inactive
    (runs : request.Runs update) (revokes : request.revokes = some userId) :
    request.isBulk = true ∧ request.covers userId = true ∧
      (∀ key, key.userId = userId → key.isActive = true → update.matching key = true) ∧
      ∀ before after, update.change before = some after → after.isActive = false := by
  cases request with
  | revokeKey owner hardDelete =>
    cases revokes
    obtain rfl := runs
    refine ⟨rfl, by simp [covers, lock, Lock.covers], ?_, ?_⟩
    · intro key isUser _
      simp [ApiKeys.revokeKey, isUser]
    · intro before after changed
      cases hardDelete with
      | true => cases changed
      | false =>
        cases changed
        rfl
  | suspendUser owner =>
    cases revokes
    obtain rfl := runs
    refine ⟨rfl, by simp [covers, lock, Lock.covers], ?_, ?_⟩
    · intro key isUser _
      simp [ApiKeys.revokeKey, isUser]
    · intro before after changed
      cases changed
      rfl
  | deleteUser owner selfService =>
    cases revokes
    obtain rfl := runs
    refine ⟨rfl, by simp [covers, lock, Lock.covers], ?_, ?_⟩
    · intro key isUser active
      simp [ApiKeys.deleteUser, isUser, active]
    · intro before after changed
      cases changed
      rfl
  | createKey create => cases revokes
  | updateKey owner fields => cases revokes
  | rotateKey accountId keyPrefix newHash newPrefix => cases revokes
  | regenerateKey owner newHash newPrefix => cases revokes
  | applyRoleQuota role quota => cases revokes

theorem Visiting.inactive {nextId : ℕ} (visiting : Visiting keys nextId request writes update [])
    (revokes : request.revokes = some userId) {id : ℕ} {after : ApiKey}
    (isAfter : (keys.overlay writes).find id = some after) (isUser : after.userId = userId) :
    after.isActive = false := by
  rcases visiting.runs.inactive revokes with ⟨bulk, covered, matching, changes⟩
  rcases visiting.find_overlay_cases isAfter with
    ⟨unwritten, isKey⟩ | ⟨before, -, -, changed, -⟩ | ⟨inserts, -⟩
  · cases active : after.isActive with
    | false => rfl
    | true =>
      have unmatched := visiting.not_matching bulk unwritten isKey (isUser ▸ covered)
      rw [matching after isUser active] at unmatched
      cases unmatched
  · exact changes before after changed
  · rcases inserts.isCreate with ⟨create, rfl⟩
    cases revokes

end Runs

/-- The keys of an account share one quota at every commit, a revoked key stays revoked, the
cap of the creations holds, and a revocation that commits leaves no key active. -/
theorem account_keys_share_one_quota {users : Dict String User} {events : List Event}
    {store : Store} (ran : Store.machine.run { users } events = some store) :
    (∀ userId, Uniform store.keys userId) ∧
      (∀ rest later id key after, Store.machine.run store rest = some later →
        store.keys.find id = some key → key.isLive = false →
        later.keys.find id = some after → after.isLive = false) ∧
      (∀ cap, (∀ event ∈ events, event.isCapped cap = true) →
        ∀ userId, Store.activeCount store.keys userId ≤ cap) ∧
      ∀ place transaction userId next, store.transactions[place]? = some transaction →
        transaction.request.revokes = some userId → store.step (.commit place) = some next →
        ∀ id key, next.keys.find id = some key → key.userId = userId → key.isActive = false := by
  have isolated : Isolated store := by
    refine Machine.run_invariant ?_ (isolated_initial users) ran
    intro before event after isolated stepped
    exact isolated_step isolated stepped
  refine ⟨isolated.uniform, ?_, ?_, ?_⟩
  · intro rest later id key after ranOn isKey revoked isAfter
    have preserved (before : Store) (event : Event) (next : Store)
        (both : Isolated before ∧ Dead before id)
        (stepped : Store.machine.step before event = some next) : Isolated next ∧ Dead next id :=
      ⟨isolated_step both.1 stepped, dead_step both.1 both.2 stepped⟩
    have initial : Isolated store ∧ Dead store id :=
      ⟨isolated, dead_of_revoked isolated isKey revoked⟩
    exact (Machine.run_invariant preserved initial ranOn).2.revoked after isAfter
  · intro cap allCapped
    have initial : Capped cap { users } :=
      ⟨isolated_initial users, by simp, fun _ => Nat.zero_le _⟩
    have capped : Capped cap store := by
      refine Machine.run_invariant_along (fun _ event => event.isCapped cap = true) ?_ initial
        (Machine.along_of_forall_mem _ allCapped) ran
      intro before event after capped isCapped stepped
      exact capped_step capped isCapped stepped
    exact capped.active
  · intro place transaction userId next found revokes stepped id key isKey isUser
    cases stepped_of_step isolated stepped with
    | moves event other nextId before after _ _ uncommitted => exact absurd rfl (uncommitted place)
    | commit _ request writes update isFound =>
      rw [found, Option.some.injEq] at isFound
      subst isFound
      exact (isolated.sound place _ found).1.inactive revokes isKey isUser

def overlappingCreate : List Event :=
  [.begin (.createKey ⟨"u", none, "h1", "p1", ⟨some 100, none⟩, false, some 2, 0⟩),
    .lock 0, .advance 0, .advance 0, .advance 0, .advance 0, .commit 0,
    .begin (.createKey ⟨"u", none, "h2", "p2", ⟨some 5, none⟩, true, some 2, 1⟩),
    .lock 1, .advance 1, .advance 1, .begin (.suspendUser "u"), .advance 1, .advance 1, .commit 1,
    .lock 2, .advance 2, .visit 2 1, .visit 2 0]

theorem account_keys_of_overlapping_create :
    ∃ store next, Store.machine.run {} overlappingCreate = some store ∧
      Store.activeCount store.keys "u" = 2 ∧ Uniform store.keys "u" ∧
      store.step (.commit 2) = some next ∧
      ∀ id key, next.keys.find id = some key → key.userId = "u" → key.isActive = false := by
  have computed : ((Store.machine.run {} overlappingCreate).bind fun store =>
      (store.step (.commit 2)).map fun next => (Store.activeCount store.keys "u",
        (store.transactions[2]?.map Transaction.request), Store.activeCount next.keys "u")) =
      some (2, some (.suspendUser "u"), 0) := by
    decide +kernel
  rcases Option.bind_eq_some_iff.mp computed with ⟨store, ran, rest⟩
  rcases Option.map_eq_some_iff.mp rest with ⟨next, stepped, values⟩
  simp only [Prod.mk.injEq] at values
  rcases Option.map_eq_some_iff.mp values.2.1 with ⟨transaction, found, isSuspension⟩
  have holds := account_keys_share_one_quota ran
  refine ⟨store, next, ran, values.1, holds.1 "u", stepped, ?_⟩
  exact holds.2.2.2 2 transaction "u" next found (by rw [isSuspension]; rfl) stepped

end HybridInference.ApiKeys
