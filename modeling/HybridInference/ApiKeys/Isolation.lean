import HybridInference.ApiKeys.Transactions

/-!
# What the transactions on API keys keep

A transaction may do as it likes with the keys of the accounts that its lock covers.
To any other key it gives at most a new secret, or revokes it. So while a bulk update
holds its lock, no key it is to find appears behind its snapshot.
-/

namespace HybridInference.ApiKeys

open Library

def Lock.covers (userId : String) : Lock → Bool
  | .account accountId => accountId = userId
  | .allAccounts => true

def Request.covers (request : Request) (userId : String) : Bool :=
  request.lock.any (Lock.covers userId)

structure Mild (before after : ApiKey) : Prop where
  quota : after.quota = before.quota
  status : after.status = before.status ∨ after.status = "revoked"

variable {before after : ApiKey}

theorem Mild.isActive (mild : Mild before after)
    (active : after.isActive = true) : before.isActive = true := by
  simp only [ApiKey.isActive, decide_eq_true_eq] at active ⊢
  rcases mild.status with same | revoked
  · exact same ▸ active
  · rw [revoked] at active
    exact absurd active (by decide)

theorem Mild.isLive (mild : Mild before after)
    (live : after.isLive = true) : before.isLive = true := by
  simp only [ApiKey.isLive, decide_eq_true_eq] at live ⊢
  rcases mild.status with same | revoked
  · exact same ▸ live
  · exact absurd revoked live

/-- What a request's update leaves of a key. -/
structure Keeps (request : Request) (before after : ApiKey) : Prop where
  id : after.id = before.id
  userId : after.userId = before.userId
  revoked : before.status = "revoked" → after.status = "revoked"
  stored : before.quota.stored = before.quota → after.quota.stored = after.quota
  mild : request.covers before.userId = false → Mild before after

def Request.Runs : Request → RowUpdate ApiKey → Prop
  | .createKey create, update => ∃ quota id, update = syncAccountQuota create.userId quota id
  | .updateKey userId fields, update => update = ApiKeys.updateKey userId fields
  | .rotateKey accountId _ newHash newPrefix, update =>
    ∃ keyPrefix, update = ApiKeys.rotateKey accountId keyPrefix newHash newPrefix
  | .regenerateKey _ newHash newPrefix, update =>
    ∃ id, update = ApiKeys.regenerateKey id newHash newPrefix
  | .revokeKey userId hardDelete, update => update = ApiKeys.revokeKey userId hardDelete
  | .suspendUser userId, update => update = ApiKeys.revokeKey userId false
  | .deleteUser userId _, update => update = ApiKeys.deleteUser userId
  | .applyRoleQuota _ quota, update => ∃ members, update = ApiKeys.applyRoleQuota members quota

def Request.isBulk : Request → Bool
  | .rotateKey _ _ _ _ | .regenerateKey _ _ _ => false
  | _ => true

theorem decimal_of_int (n : ℤ) : decimal (n / 10000) = n / 10000 := by
  have scaled : (n / 10000 : ℚ) * 10000 = n := by
    field_simp
  have negated : -(n / 10000 : ℚ) * 10000 = ((-n : ℤ) : ℚ) := by
    push_cast
    field_simp
  have half (m : ℤ) : ⌊(m : ℚ) + 1 / 2⌋ = m := by
    rw [Int.floor_eq_iff]
    constructor <;> linarith
  unfold decimal
  rw [scaled, negated, half, half]
  split_ifs
  · rfl
  · push_cast
    ring

theorem decimal_decimal (value : ℚ) : decimal (decimal value) = decimal value := by
  have isInt : ∃ n : ℤ, decimal value = n / 10000 := by
    unfold decimal
    split_ifs
    · exact ⟨_, rfl⟩
    · exact ⟨-⌊-value * 10000 + 1 / 2⌋, by push_cast; rfl⟩
  rcases isInt with ⟨n, isValue⟩
  rw [isValue, decimal_of_int]

@[simp]
theorem decimal_comp_decimal : decimal ∘ decimal = decimal := funext decimal_decimal

theorem Quota.stored_stored (quota : Quota) : quota.stored.stored = quota.stored := by
  simp [stored]

theorem Quota.stored_eq_iff {quota : Quota} : quota.stored = quota ↔
      quota.daily.map decimal = quota.daily ∧ quota.monthly.map decimal = quota.monthly := by
  rw [stored, Quota.mk.injEq]

theorem KeyFields.quota_stored {fields : KeyFields} {quota : Quota}
    (stored : quota.stored = quota) : (fields.quota quota).stored = fields.quota quota := by
  rw [Quota.stored_eq_iff] at stored ⊢
  constructor
  · cases daily : fields.daily with
    | none => simpa [KeyFields.quota, daily] using stored.1
    | some value => simp [KeyFields.quota, daily]
  · cases monthly : fields.monthly with
    | none => simpa [KeyFields.quota, monthly] using stored.2
    | some value => simp [KeyFields.quota, monthly]

theorem Request.Runs.keeps {request : Request} {update : RowUpdate ApiKey}
    (runs : request.Runs update) (matching : update.matching before = true)
    (changed : update.change before = some after) : Keeps request before after := by
  cases request with
  | createKey create =>
    rcases runs with ⟨quota, id, rfl⟩
    simp only [syncAccountQuota, Bool.and_eq_true, decide_eq_true_eq] at matching
    obtain rfl := Option.some.inj changed
    refine ⟨rfl, rfl, fun revoked => revoked, fun _ => quota.stored_stored, ?_⟩
    simp [covers, lock, Lock.covers, matching.1.1.1]
  | updateKey userId fields =>
    obtain rfl := runs
    simp only [ApiKeys.updateKey, Bool.and_eq_true, decide_eq_true_eq] at matching
    cases changed
    refine ⟨rfl, rfl, ?_, KeyFields.quota_stored, ?_⟩
    · intro revoked
      simp [ApiKey.isLive, revoked] at matching
    · simp [covers, lock, Lock.covers, matching.1]
  | rotateKey accountId keyPrefix newHash newPrefix | regenerateKey userId newHash newPrefix =>
    rcases runs with ⟨_, rfl⟩
    cases changed
    exact ⟨rfl, rfl, id, id, fun _ => ⟨rfl, Or.inl rfl⟩⟩
  | revokeKey userId hardDelete =>
    obtain rfl := runs
    cases hardDelete with
    | true => cases changed
    | false =>
      cases changed
      exact ⟨rfl, rfl, fun _ => rfl, id, fun _ => ⟨rfl, Or.inr rfl⟩⟩
  | suspendUser userId | deleteUser userId selfService =>
    obtain rfl := runs
    cases changed
    exact ⟨rfl, rfl, fun _ => rfl, id, fun _ => ⟨rfl, Or.inr rfl⟩⟩
  | applyRoleQuota role quota =>
    rcases runs with ⟨members, rfl⟩
    cases changed
    refine ⟨rfl, rfl, id, ?_, ?_⟩
    · intro stored
      rw [Quota.stored_eq_iff] at stored ⊢
      exact ⟨by simp [decimal_decimal], stored.2⟩
    · simp [covers, lock, Lock.covers]

theorem Request.Runs.matching_of_mild {request : Request} {update : RowUpdate ApiKey}
    (runs : request.Runs update) (bulk : request.isBulk = true)
    (id : after.id = before.id) (userId : after.userId = before.userId) (mild : Mild before after)
    (covered : request.covers before.userId = true) (matching : update.matching after = true) :
    update.matching before = true := by
  cases request with
  | createKey create =>
    rcases runs with ⟨quota, _, rfl⟩
    simp only [syncAccountQuota, Bool.and_eq_true, id, userId, mild.quota] at matching ⊢
    exact ⟨⟨⟨matching.1.1.1, mild.isLive matching.1.1.2⟩, matching.1.2⟩, matching.2⟩
  | updateKey _ fields =>
    obtain rfl := runs
    simp only [ApiKeys.updateKey, Bool.and_eq_true, userId] at matching ⊢
    exact ⟨matching.1, mild.isLive matching.2⟩
  | rotateKey accountId keyPrefix newHash newPrefix => cases bulk
  | regenerateKey userId newHash newPrefix => cases bulk
  | revokeKey _ hardDelete | suspendUser _ =>
    obtain rfl := runs
    simpa only [ApiKeys.revokeKey, userId] using matching
  | deleteUser owner selfService =>
    obtain rfl := runs
    have isOwner : before.userId = owner := by
      simpa [covers, lock, Lock.covers, eq_comm] using covered
    simp only [ApiKeys.deleteUser, Bool.and_eq_true] at matching
    simp [ApiKeys.deleteUser, isOwner, mild.isActive matching.2]
  | applyRoleQuota role quota =>
    rcases runs with ⟨members, rfl⟩
    simp only [ApiKeys.applyRoleQuota, Bool.and_eq_true, userId] at matching ⊢
    exact ⟨mild.isLive matching.1, matching.2⟩

/-- The row is the one that `create_key` inserts. -/
def Inserts (request : Request) (update : RowUpdate ApiKey) (id : ℕ) (row : Option ApiKey) :
    Prop :=
  ∃ create quota, request = .createKey create ∧
    update = syncAccountQuota create.userId quota id ∧ row = some (create.row quota id)

/-- An update part of the way through its rows. -/
structure Visiting (keys : Dict ℕ ApiKey) (nextId : ℕ) (request : Request)
    (writes : Dict ℕ (Option ApiKey)) (update : RowUpdate ApiKey) (remaining : List ℕ) : Prop where
  runs : request.Runs update
  written : ∀ id row, writes.find id = some row →
    (∃ before, keys.find id = some before ∧ update.matching before = true ∧
        row = update.change before) ∨
      Inserts request update id row ∧ keys.find id = none ∧ id < nextId
  except_ : ∀ create, request = .createKey create → ∃ quota id,
    update = syncAccountQuota create.userId quota id ∧ keys.find id = none ∧ id < nextId ∧
      (writes.find id).isSome = true
  nodup : remaining.Nodup
  unwritten : ∀ id ∈ remaining, writes.find id = none
  covers : request.isBulk = true →
    update.Covers keys writes remaining fun row => request.covers row.userId = true

def HasRoom (keys : Dict ℕ ApiKey) (request : Request) : Prop :=
  ∀ create limit, request = .createKey create → create.maxActiveKeys = some limit →
    Store.activeCount keys create.userId < limit

def Sound (keys : Dict ℕ ApiKey) (nextId : ℕ) (transaction : Transaction) : Prop :=
  match transaction.stage with
  | .waiting | .locked | .named _ | .selecting _ | .ended => transaction.writes = ∅
  | .checked | .seeded _ => transaction.writes = ∅ ∧ HasRoom keys transaction.request
  | .chosen id => transaction.writes = ∅ ∧ ∃ row, keys.find id = some row
  | .inserted quota id =>
    (∃ create, transaction.request = .createKey create ∧
      transaction.writes = (∅ : Dict ℕ (Option ApiKey)).insert id (some (create.row quota id))) ∧
    keys.find id = none ∧ id < nextId ∧ HasRoom keys transaction.request
  | .visiting update remaining =>
    Visiting keys nextId transaction.request transaction.writes update remaining ∧
      HasRoom keys transaction.request

def Uniform (keys : Dict ℕ ApiKey) (userId : String) : Prop :=
  ∀ id other key another, keys.find id = some key → keys.find other = some another →
    key.userId = userId → another.userId = userId → key.isLive = true → another.isLive = true →
    another.quota = key.quota

/-- Every transaction is sound for the committed keys, and no two hold conflicting locks or one row.
-/
structure Isolated (store : Store) : Prop where
  uniform : ∀ userId, Uniform store.keys userId
  named : ∀ id key, store.keys.find id = some key →
    key.id = id ∧ id < store.nextId ∧ key.quota.stored = key.quota
  sound : ∀ (place : ℕ) (transaction : Transaction),
    store.transactions[place]? = some transaction → Sound store.keys store.nextId transaction
  locks : ∀ (place other : ℕ) (transaction another : Transaction) (lock held : Lock),
    store.transactions[place]? = some transaction → store.transactions[other]? = some another →
    other ≠ place → transaction.held = some lock → another.held = some held →
    lock.conflicts held = false
  rows : ∀ (place other : ℕ) (transaction another : Transaction) (id : ℕ),
    store.transactions[place]? = some transaction → store.transactions[other]? = some another →
    other ≠ place → transaction.hasRow id = true → another.hasRow id = false

section Stages

variable {keys : Dict ℕ ApiKey} {nextId : ℕ} {request : Request}
  {writes : Dict ℕ (Option ApiKey)} {update : RowUpdate ApiKey} {remaining : List ℕ}

theorem visiting_targets (runs : request.Runs update)
    (notCreate : ∀ create, request ≠ .createKey create) :
    Visiting keys nextId request ∅ update (update.targets keys ∅) where
  runs := runs
  written := by simp
  except_ := by
    intro create isCreate
    exact absurd isCreate (notCreate create)
  nodup := update.nodup_targets keys ∅
  unwritten := by simp
  covers := fun _ => RowUpdate.covers_targets

theorem visiting_sync {create : Create} {quota : Quota} {id : ℕ} (new : keys.find id = none)
    (drawn : id < nextId) :
    let inserted := (∅ : Dict ℕ (Option ApiKey)).insert id (some (create.row quota id))
    Visiting keys nextId (.createKey create) inserted (syncAccountQuota create.userId quota id)
      ((syncAccountQuota create.userId quota id).targets keys inserted) := by
  intro inserted
  refine ⟨⟨quota, id, rfl⟩, ?_, ?_, RowUpdate.nodup_targets _ keys inserted, ?_,
    fun _ => RowUpdate.covers_targets⟩
  · intro other row found
    simp only [inserted, Dict.find_insert, Dict.find_empty] at found
    split_ifs at found with same
    subst same
    exact Or.inr ⟨⟨create, quota, rfl, rfl, (Option.some.inj found).symm⟩, new, drawn⟩
  · rintro other ⟨rfl⟩
    refine ⟨quota, id, rfl, new, drawn, ?_⟩
    simp only [inserted, Dict.find_insert, if_true, Option.isSome_some]
  · intro other member
    rcases Dict.mem_keysWhere_iff.mp member with ⟨row, found, matching⟩
    by_cases same : other = id
    · subst same
      simp only [Dict.find_overlay, inserted, Dict.find_insert, if_true, Option.getD_some,
        Option.some.injEq] at found
      subst found
      simp [syncAccountQuota, Create.row] at matching
    · simp only [inserted, Dict.find_insert, if_neg same, Dict.find_empty]

theorem Visiting.visit {id : ℕ} (visiting : Visiting keys nextId request writes update remaining)
    (member : id ∈ remaining) :
    Visiting keys nextId request (update.visit keys writes id) update (remaining.erase id) where
  runs := visiting.runs
  written := by
    intro other row found
    rcases RowUpdate.find_visit_cases found with earlier | ⟨rfl, before, isBefore, matching, rfl⟩
    · exact visiting.written other row earlier
    · rw [Dict.find_overlay, visiting.unwritten other member] at isBefore
      exact Or.inl ⟨before, isBefore, matching, rfl⟩
  except_ := by
    intro create isCreate
    rcases visiting.except_ create isCreate with ⟨quota, except_, isUpdate, new, drawn, written⟩
    exact ⟨quota, except_, isUpdate, new, drawn, RowUpdate.find_visit_isSome written⟩
  nodup := visiting.nodup.erase id
  unwritten := by
    intro other inRest
    have different : other ≠ id := fun same =>
      visiting.nodup.not_mem_erase (same ▸ inRest)
    have wasUnwritten := visiting.unwritten other (List.mem_of_mem_erase inRest)
    cases found : (update.visit keys writes id).find other with
    | none => rfl
    | some row =>
      rcases RowUpdate.find_visit_cases found with earlier | ⟨same, -⟩
      · rw [wasUnwritten] at earlier
        cases earlier
      · exact absurd same different
  covers := fun bulk => (visiting.covers bulk).visit id

theorem Visiting.find_overlay_cases {id : ℕ}
    (visiting : Visiting keys nextId request writes update remaining)
    (found : (keys.overlay writes).find id = some after) :
    (writes.find id = none ∧ keys.find id = some after) ∨
      (∃ before, keys.find id = some before ∧ update.matching before = true ∧
        update.change before = some after ∧ Keeps request before after) ∨
      Inserts request update id (some after) ∧ keys.find id = none ∧ id < nextId := by
  rw [Dict.find_overlay] at found
  cases written : writes.find id with
  | none =>
    rw [written] at found
    exact Or.inl ⟨rfl, found⟩
  | some row =>
    rw [written, Option.getD_some] at found
    subst found
    rcases visiting.written id _ written with ⟨before, isBefore, matching, changed⟩ | inserted
    · exact Or.inr (Or.inl ⟨before, isBefore, matching, changed.symm,
        visiting.runs.keeps matching changed.symm⟩)
    · exact Or.inr (Or.inr inserted)

theorem Inserts.covers {id : ℕ} {row : ApiKey} (inserts : Inserts request update id (some row)) :
    request.covers row.userId = true := by
  rcases inserts with ⟨create, quota, rfl, -, same⟩
  cases same
  simp [Request.covers, Request.lock, Lock.covers, Create.row]

theorem Visiting.uncovered {id : ℕ}
    (visiting : Visiting keys nextId request writes update remaining)
    (found : (keys.overlay writes).find id = some after)
    (uncovered : request.covers after.userId = false) :
    ∃ before, keys.find id = some before ∧ after.id = before.id ∧ after.userId = before.userId ∧
      Mild before after := by
  rcases visiting.find_overlay_cases found with ⟨-, same⟩ | ⟨before, isBefore, -, -, keeps⟩ | new
  · exact ⟨after, same, rfl, rfl, rfl, Or.inl rfl⟩
  · refine ⟨before, isBefore, keeps.id, keeps.userId, keeps.mild ?_⟩
    rw [← keeps.userId]
    exact uncovered
  · rw [new.1.covers] at uncovered
    cases uncovered

theorem activeCount_le {later : Dict ℕ ApiKey} {userId : String}
    (kept : ∀ id after, later.find id = some after → after.userId = userId →
      after.isActive = true → ∃ before, keys.find id = some before ∧ before.userId = userId ∧
        before.isActive = true) :
    Store.activeCount later userId ≤ Store.activeCount keys userId := by
  refine (List.subperm_of_subset (later.nodupKeys.filter _) ?_).length_le
  intro id member
  rcases Dict.mem_keysWhere_iff.mp member with ⟨after, found, test⟩
  simp only [Bool.and_eq_true, decide_eq_true_eq] at test
  rcases kept id after found test.1 test.2 with ⟨before, isBefore, sameUser, active⟩
  exact Dict.mem_keysWhere_iff.mpr ⟨before, isBefore, by simp [sameUser, active]⟩

theorem Sound.commit {transaction : Transaction} (sound : Sound keys nextId transaction)
    (visiting : Visiting keys nextId request writes update remaining)
    (apart : ∀ id, transaction.hasRow id = true → writes.find id = none)
    (uncovered : transaction.held = transaction.request.lock → ∀ userId,
      transaction.request.covers userId = true → request.covers userId = false) :
    Sound (keys.overlay writes) nextId transaction := by
  have untouched {id : ℕ} (has : transaction.hasRow id = true) :
      (keys.overlay writes).find id = keys.find id := by
    rw [Dict.find_overlay, apart id has]
    rfl
  have room (active : transaction.held = transaction.request.lock)
      (room : HasRoom keys transaction.request) :
      HasRoom (keys.overlay writes) transaction.request := by
    intro create limit isCreate isLimit
    refine lt_of_le_of_lt (activeCount_le ?_) (room create limit isCreate isLimit)
    intro id after found sameUser isActive
    have covered : transaction.request.covers after.userId = true := by
      simp [isCreate, Request.covers, Request.lock, Lock.covers, sameUser]
    rcases visiting.uncovered found (uncovered active _ covered) with
      ⟨before, isBefore, -, userId, mild⟩
    exact ⟨before, isBefore, userId ▸ sameUser, mild.isActive isActive⟩
  rcases transaction with ⟨ownRequest, stage, ownWrites⟩
  cases stage with
  | waiting => exact sound
  | locked => exact sound
  | named keyPrefix => exact sound
  | selecting candidates => exact sound
  | ended => exact sound
  | checked | seeded quota =>
    exact ⟨sound.1, room rfl sound.2⟩
  | chosen id =>
    rcases sound with ⟨empty, row, found⟩
    refine ⟨empty, row, ?_⟩
    rw [untouched (by simp [Transaction.hasRow])]
    exact found
  | inserted quota id =>
    rcases sound with ⟨⟨create, isCreate, isWrites⟩, new, drawn, hasRoom⟩
    refine ⟨⟨create, isCreate, isWrites⟩, ?_, drawn, room rfl hasRoom⟩
    rw [untouched]
    · exact new
    · simp only at isWrites
      simp only [Transaction.hasRow, isWrites, Dict.find_insert, if_true, Option.isSome_some,
        Bool.true_or]
  | visiting ownUpdate ownRemaining =>
    rcases sound with ⟨own, hasRoom⟩
    have written {id : ℕ} (isWritten : (ownWrites.find id).isSome = true) :
        (keys.overlay writes).find id = keys.find id :=
      untouched (by simp [Transaction.hasRow, isWritten])
    refine ⟨⟨own.runs, ?_, ?_, own.nodup, own.unwritten, ?_⟩, room rfl hasRoom⟩
    · intro id row found
      rw [written (by rw [found]; rfl)]
      exact own.written id row found
    · intro create isCreate
      rcases own.except_ create isCreate with ⟨quota, id, isUpdate, new, drawn, isWritten⟩
      refine ⟨quota, id, isUpdate, ?_, drawn, isWritten⟩
      rw [written isWritten]
      exact new
    · intro bulk
      refine (own.covers bulk).commit ?_
      intro id after found covered matching
      rcases visiting.uncovered found (uncovered rfl _ covered) with
        ⟨before, isBefore, sameId, userId, mild⟩
      rw [userId] at covered
      exact ⟨before, isBefore, covered,
        own.runs.matching_of_mild bulk sameId userId mild covered matching⟩

end Stages

section Steps

variable {store : Store}

theorem Store.anotherOne_eq_false_iff {place : ℕ} {property : Transaction → Bool} :
    store.anotherOne place property = false ↔
      ∀ other transaction, store.transactions[other]? = some transaction → other ≠ place →
        property transaction = false :=
  any_eraseIdx_eq_false_iff

theorem Store.set_cases {place other : ℕ} {moved before found : Transaction}
    (was : store.transactions[place]? = some before)
    (isFound : (store.set place moved).transactions[other]? = some found) :
    other = place ∧ found = moved ∨ other ≠ place ∧ store.transactions[other]? = some found :=
  getElem?_set_cases was isFound

theorem Lock.conflicts_comm (first second : Lock) :
    first.conflicts second = second.conflicts first := by
  cases first <;> cases second <;> simp [conflicts, eq_comm]

variable {transaction : Transaction}

theorem Sound.mono {keys : Dict ℕ ApiKey} {nextId later : ℕ}
    (sound : Sound keys nextId transaction) (le : nextId ≤ later) :
    Sound keys later transaction := by
  rcases transaction with ⟨request, stage, writes⟩
  cases stage with
  | inserted quota id =>
    rcases sound with ⟨create, new, drawn, room⟩
    exact ⟨create, new, Nat.lt_of_lt_of_le drawn le, room⟩
  | visiting update remaining =>
    rcases sound with ⟨⟨runs, written, except_, nodup, unwritten, covers⟩, room⟩
    refine ⟨⟨runs, ?_, ?_, nodup, unwritten, covers⟩, room⟩
    · intro id row found
      rcases written id row found with before | ⟨inserts, new, drawn⟩
      · exact Or.inl before
      · exact Or.inr ⟨inserts, new, Nat.lt_of_lt_of_le drawn le⟩
    · intro create isCreate
      rcases except_ create isCreate with ⟨quota, id, isUpdate, new, drawn, isWritten⟩
      exact ⟨quota, id, isUpdate, new, Nat.lt_of_lt_of_le drawn le, isWritten⟩
  | waiting => exact sound
  | locked => exact sound
  | checked => exact sound
  | named keyPrefix => exact sound
  | seeded quota => exact sound
  | selecting candidates => exact sound
  | chosen id => exact sound
  | ended => exact sound

theorem Isolated.lt_nextId {place id : ℕ} (isolated : Isolated store)
    (found : store.transactions[place]? = some transaction)
    (has : transaction.hasRow id = true) : id < store.nextId := by
  have sound := isolated.sound place transaction found
  rcases transaction with ⟨request, stage, writes⟩
  simp only [Transaction.hasRow, Bool.or_eq_true] at has
  have ofEmpty (empty : writes = ∅) (isSome : (writes.find id).isSome = true) :
      id < store.nextId := by
    rw [empty, Dict.find_empty] at isSome
    cases isSome
  cases stage with
  | waiting | locked | named keyPrefix | selecting candidates | ended =>
    exact ofEmpty sound (by simpa using has)
  | checked | seeded quota =>
    exact ofEmpty sound.1 (by simpa using has)
  | chosen chosen =>
    rcases has with written | same
    · exact ofEmpty sound.1 written
    · rcases sound with ⟨-, row, isRow⟩
      obtain rfl : chosen = id := by simpa using same
      exact (isolated.named chosen row isRow).2.1
  | inserted quota new =>
    rcases sound with ⟨⟨create, -, isWrites⟩, -, drawn, -⟩
    simp only at isWrites
    simp only [isWrites, Dict.find_insert, Dict.find_empty, Bool.false_eq_true, or_false] at has
    split_ifs at has with same
    · exact same ▸ drawn
    · cases has
  | visiting update remaining =>
    rcases Option.isSome_iff_exists.mp (by simpa using has) with ⟨row, isWritten⟩
    rcases sound.1.written id row isWritten with ⟨before, isBefore, -⟩ | ⟨-, -, drawn⟩
    · exact (isolated.named id before isBefore).2.1
    · exact drawn

structure Moves (store : Store) (place : ℕ) (before after : Transaction) (nextId : ℕ) : Prop where
  request : after.request = before.request
  le : store.nextId ≤ nextId
  sound : Sound store.keys nextId after
  locks : ∀ lock, after.held = some lock → before.held = some lock ∨
    ∀ (other : ℕ) (another : Transaction) (held : Lock),
      store.transactions[other]? = some another → other ≠ place → another.held = some held →
      lock.conflicts held = false
  rows : ∀ id, after.hasRow id = true → before.hasRow id = true ∨
    ∀ (other : ℕ) (another : Transaction), store.transactions[other]? = some another →
      other ≠ place → another.hasRow id = false
  known : ∀ id, after.hasRow id = true → before.hasRow id = true ∨ id = store.nextId ∨
    ∃ key, store.keys.find id = some key

/-- A transaction's move keeps the isolation. -/
theorem Isolated.move {place nextId : ℕ} {before after : Transaction} (isolated : Isolated store)
    (found : store.transactions[place]? = some before)
    (moves : Moves store place before after nextId) :
    Isolated { store.set place after with nextId } := by
  have lock {other : ℕ} {another : Transaction} {lock held : Lock}
      (isOther : store.transactions[other]? = some another) (different : other ≠ place)
      (isHeld : after.held = some lock) (otherHeld : another.held = some held) :
      lock.conflicts held = false := by
    rcases moves.locks lock isHeld with same | free
    · exact isolated.locks place other before another lock held found isOther different same
        otherHeld
    · exact free other another held isOther different otherHeld
  have row {other id : ℕ} {another : Transaction}
      (isOther : store.transactions[other]? = some another) (different : other ≠ place)
      (has : after.hasRow id = true) : another.hasRow id = false := by
    rcases moves.rows id has with same | free
    · exact isolated.rows place other before another id found isOther different same
    · exact free other another isOther different
  refine ⟨isolated.uniform, ?_, ?_, ?_, ?_⟩
  · intro id key isKey
    rcases isolated.named id key isKey with ⟨sameId, drawn, stored⟩
    exact ⟨sameId, Nat.lt_of_lt_of_le drawn moves.le, stored⟩
  · intro other transaction isFound
    rcases Store.set_cases found isFound with ⟨-, rfl⟩ | ⟨-, earlier⟩
    · exact moves.sound
    · exact (isolated.sound other transaction earlier).mono moves.le
  · intro first second transaction another firstLock secondLock isFirst isSecond different
      firstHeld secondHeld
    rcases Store.set_cases found isFirst with ⟨rfl, rfl⟩ | ⟨notPlace, earlierFirst⟩
    · rcases Store.set_cases found isSecond with ⟨rfl, -⟩ | ⟨-, earlierSecond⟩
      · exact absurd rfl different
      · exact lock earlierSecond different firstHeld secondHeld
    · rcases Store.set_cases found isSecond with ⟨rfl, rfl⟩ | ⟨-, earlierSecond⟩
      · rw [Lock.conflicts_comm]
        exact lock earlierFirst notPlace secondHeld firstHeld
      · exact isolated.locks first second transaction another firstLock secondLock earlierFirst
          earlierSecond different firstHeld secondHeld
  · intro first second transaction another id isFirst isSecond different has
    rcases Store.set_cases found isFirst with ⟨rfl, rfl⟩ | ⟨notPlace, earlierFirst⟩
    · rcases Store.set_cases found isSecond with ⟨rfl, -⟩ | ⟨-, earlierSecond⟩
      · exact absurd rfl different
      · exact row earlierSecond different has
    · rcases Store.set_cases found isSecond with ⟨rfl, rfl⟩ | ⟨-, earlierSecond⟩
      · cases alsoHas : another.hasRow id with
        | false => rfl
        | true =>
          rw [row earlierFirst notPlace alsoHas] at has
          cases has
      · exact isolated.rows first second transaction another id earlierFirst earlierSecond
          different has

end Steps

end HybridInference.ApiKeys
