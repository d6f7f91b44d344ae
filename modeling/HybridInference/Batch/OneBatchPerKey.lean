import HybridInference.Batch.IdempotentCreates

/-!
# One batch for one key

Every run whose statements wait for a failed file batch to be sealed keeps the record of
a batch for a day after its end, and no longer than the sweep needs to find it.
-/

namespace HybridInference.Batch

open Library

namespace KeyStore

variable {surface : Surface} {store next : KeyStore}

def Waits (store : KeyStore) (event : KeyEvent) : Prop :=
  store.premature event = false

instance (store : KeyStore) (event : KeyEvent) : Decidable (store.Waits event) :=
  inferInstanceAs (Decidable (_ = _))

theorem lookup_idempotent {place : ℕ} (idempotent : Idempotent surface store)
    (waits : store.Waits (.lookup place))
    (stepped : store.step surface (.lookup place) = some next) :
    Idempotent surface next := by
  simp only [step] at stepped
  split at stepped
  · next create found =>
    rcases idempotent.creates place create .locked found with ⟨-, begun⟩
    split at stepped
    · next outcome answered =>
      cases stepped
      exact idempotent.move found (by simp [CreateStage.isLocked]) (by simp [CreateStage.isPast])
        (by simp)
    · next unanswered =>
      cases stepped
      refine idempotent.move found (fun _ => Or.inl rfl) (fun _ => ?_) (by simp)
      apply idempotent.unprotected_of_replay begun ?_ unanswered
      intro record isRecord draining
      simpa [Waits, premature, isRecord, found, draining] using waits
  · cases stepped

theorem lookupConsole_idempotent {place : ℕ} (idempotent : Idempotent surface store)
    (stepped : store.step surface (.lookupConsole place) = some next) :
    Idempotent surface next := by
  simp only [step] at stepped
  split at stepped
  · next create found =>
    have unprotected := idempotent.past place create .unrecorded found rfl
    have answered (outcome : CreateOutcome) :
        Idempotent surface (store.setCreate place create (.ended outcome)) :=
      idempotent.move found (by simp [CreateStage.isLocked]) (by simp [CreateStage.isPast])
        (by simp)
    have passed : Idempotent surface (store.setCreate place create .unanswered) :=
      idempotent.move found (fun _ => Or.inl rfl) (fun _ => unprotected) (by simp)
    split_ifs at stepped
    · split at stepped
      · next id replayed =>
        cases stepped
        apply (answered (.replayed id)).of_record (by simp)
        intro record _ protected_
        exact absurd protected_ (unprotected _)
      · cases stepped
        exact answered _
      · cases stepped
        exact passed
    · cases stepped
      exact passed
  · cases stepped

/-- One step that waits for the key's lock keeps the promise. -/
theorem step_idempotent {event : KeyEvent} (idempotent : Idempotent surface store)
    (waits : store.Waits event) (stepped : store.step surface event = some next) :
    Idempotent surface next := by
  cases event <;> simp only [step] at stepped
  case lookup place => exact lookup_idempotent idempotent waits stepped
  case lookupConsole place => exact lookupConsole_idempotent idempotent stepped
  case tick clock =>
    split_ifs at stepped with later
    cases stepped
    have before {id : String} (protected_ : Protected store.history id clock) :
        Protected store.history id store.clock :=
      ⟨protected_.1, fun bound isBound => lt_of_le_of_lt later (protected_.2 bound isBound)⟩
    refine ⟨idempotent.rows, idempotent.record, ?_, idempotent.alone, ?_, ?_, idempotent.fresh,
      idempotent.apart, idempotent.known, idempotent.unique⟩
    · intro id protected_
      exact idempotent.guarded id (before protected_)
    · intro place create stage found isPast id protected_
      exact idempotent.past place create stage found isPast id (before protected_)
    · intro place create stage found
      rcases idempotent.creates place create stage found with ⟨proper, begun⟩
      exact ⟨proper, begun.trans later⟩
  case beginCreate create =>
    simp only [Bool.and_eq_true, decide_eq_true_eq] at stepped
    split_ifs at stepped with allowed
    cases stepped
    exact idempotent.beginCreate allowed.1.1 allowed.1.2 allowed.2
  case lock place =>
    split at stepped
    · next create found =>
      split_ifs at stepped with taken
      cases stepped
      refine idempotent.move found (fun _ => Or.inr ?_) (by simp [CreateStage.isPast]) (by simp)
      intro other another stage isOther
      simp only [List.any_eq_true, not_exists, not_and, Bool.not_eq_true] at taken
      exact taken _ (List.mem_of_getElem? isOther)
    · cases stepped
  case checkCaps place full =>
    split at stepped
    · next create found =>
      split_ifs at stepped <;> cases stepped
      · exact idempotent.move found (by simp [CreateStage.isLocked])
          (by simp [CreateStage.isPast]) (by simp)
      · exact idempotent.move found (fun _ => Or.inl rfl)
          (fun _ => idempotent.past place create .unanswered found rfl) (by simp)
    · cases stepped
  case commit place =>
    split at stepped
    · next create found =>
      cases stepped
      exact idempotent.commit found
    · cases stepped
  case rollback place =>
    split at stepped
    · cases stepped
    · next create stage unended found =>
      cases stepped
      refine idempotent.move found (by simp [CreateStage.isLocked])
        (by simp [CreateStage.isPast]) ?_
      rintro rfl
      exact unended .created rfl
    · cases stepped
  case transact id transaction now =>
    simp only [Bool.or_eq_true] at stepped
    split_ifs at stepped with refused
    split at stepped
    · next row found =>
      cases stepped
      apply idempotent.transact ?_ found
      simpa using (not_or.mp (not_or.mp refused).1).1
    · cases stepped
  case deleteBatch id now reading =>
    split_ifs at stepped
    cases stepped
    exact idempotent.deleteBatch
  case purge id now retention =>
    split_ifs at stepped
    cases stepped
    apply idempotent.purge
    intro record isRecord same
    simpa [Waits, premature, isRecord, same] using waits
  case freeze =>
    cases stepped
    apply idempotent.freeze
    intro record isRecord
    simpa [Waits, premature, isRecord] using waits
  case vanish now =>
    split_ifs at stepped
    cases stepped
    rw [idempotent.vanish_eq]
    exact idempotent
  case drop now =>
    split_ifs at stepped with behind
    cases stepped
    exact idempotent.drop (le_of_not_gt behind)

theorem idempotent_of_run {events : List KeyEvent} (along : (machine surface).Along Waits {} events)
    (ran : (machine surface).run {} events = some store) : Idempotent surface store := by
  have initial : Idempotent surface {} := by
    refine ⟨?_, ?_, ?_, ?_, ?_, ?_, ?_, ?_, ?_, ?_⟩ <;> simp [Protected]
  exact Machine.run_invariant_along Waits
    (fun _ _ _ idempotent waits stepped => step_idempotent idempotent waits stepped)
    initial along ran

/-- What a creation is told that finds a batch created under its key. -/
structure Answered (history : List KeyEntry) (id : String) (create : KeyedCreate)
    (outcome : CreateOutcome) : Prop where
  conflict : ∀ requestDigest, KeyEntry.created id requestDigest ∈ history →
    requestDigest ≠ create.requestDigest → outcome = .conflict id
  tombstoned : KeyEntry.created id create.requestDigest ∈ history → Gone history id →
    outcome = .tombstoned id
  replayed : KeyEntry.created id create.requestDigest ∈ history → ¬ Gone history id →
    outcome = .replayed id

theorem replay_of_protected {id : String} {create : KeyedCreate}
    (idempotent : Idempotent surface store) (protected_ : Protected store.history id store.clock)
    (begun : create.now ≤ store.clock)
    (settled : ∀ record, store.record = some record → store.isDraining record = true →
      store.isLive record create.now = true) :
    ∃ outcome, store.replay create = some outcome ∧ Answered store.history id create outcome := by
  rcases idempotent.guarded id protected_ with ⟨record, isRecord, rfl, -⟩
  have recorded := idempotent.record record isRecord
  have live : store.isLive record create.now = true := by
    cases draining : store.isDraining record with
    | true => exact settled record isRecord draining
    | false => exact idempotent.isLive_of_protected isRecord protected_ draining begun
  have onlyDigest {requestDigest : String}
      (created : KeyEntry.created record.batchId requestDigest ∈ store.history) :
      requestDigest = record.requestDigest :=
    idempotent.unique _ _ _ recorded.created created
  simp only [replay, isRecord, live, if_true]
  by_cases same : record.requestDigest = create.requestDigest
  · rw [if_neg (not_not.mpr same)]
    have noConflict (requestDigest : String)
        (created : KeyEntry.created record.batchId requestDigest ∈ store.history)
        (different : requestDigest ≠ create.requestDigest) : False :=
      different ((onlyDigest created).trans same)
    by_cases gone : Gone store.history record.batchId
    · have deleted := recorded.tombstone.mpr gone
      rw [if_pos (by simp [deleted])]
      refine ⟨_, rfl, ?_, fun _ _ => rfl, fun _ there => absurd gone there⟩
      intro requestDigest created different
      exact (noConflict requestDigest created different).elim
    · have kept : record.deletedAt.isSome = false := by
        simpa using mt recorded.tombstone.mp gone
      rcases recorded.stored gone with ⟨row, found, stays⟩
      rw [if_neg (by simp [kept, isStored, found, stays])]
      refine ⟨_, rfl, ?_, fun _ isGone => absurd isGone gone, fun _ _ => rfl⟩
      intro requestDigest created different
      exact (noConflict requestDigest created different).elim
  · rw [if_pos same]
    refine ⟨_, rfl, fun _ _ _ => rfl, ?_, ?_⟩
    · intro created
      exact absurd (onlyDigest created).symm same
    · intro created
      exact absurd (onlyDigest created).symm same

/-- Only an admitted create adds a batch. -/
theorem created_of_step {event : KeyEvent} {other requestDigest : String}
    (stepped : store.step surface event = some next)
    (created : KeyEntry.created other requestDigest ∈ next.history) :
    KeyEntry.created other requestDigest ∈ store.history ∨
      ∃ (place : ℕ) (create : KeyedCreate), store.creates[place]? = some (create, .admitted) := by
  cases event with
  | commit place =>
    simp only [step] at stepped
    split at stepped
    · next create found => exact Or.inr ⟨place, create, found⟩
    · cases stepped
  | transact id transaction now =>
    simp only [step] at stepped
    split_ifs at stepped
    split at stepped <;> cases stepped
    rcases List.mem_append.mp created with earlier | last
    · exact Or.inl earlier
    · unfold endsOf at last
      split_ifs at last <;> simp at last
  | deleteBatch id now reading =>
    simp only [step] at stepped
    split_ifs at stepped
    cases stepped
    refine Or.inl ?_
    simp only [deleteBatch] at created
    split at created
    · split at created
      · exact created
      · simpa using created
    · exact created
  | purge id now retention =>
    simp only [step] at stepped
    split_ifs at stepped
    cases stepped
    refine Or.inl ?_
    simp only [purge] at created
    split at created
    · split_ifs at created
      · simpa using created
      · exact created
    · exact created
  | _ =>
    refine Or.inl ?_
    simp only [step] at stepped
    repeat' split at stepped
    all_goals first
      | cases stepped; done
      | obtain rfl := Option.some.inj stepped; exact created

theorem sweep_drops_record {record : IdempotencyRecord} {now : ℚ}
    (idempotent : Idempotent surface store) (isRecord : store.record = some record)
    (ended : ∃ moment, EndsAt store.history record.batchId moment)
    (past : ∀ moment, EndsAt store.history record.batchId moment →
      moment + idempotencyRetention ≤ now) :
    store.isDraining record = false ∧ ((store.freeze.vanish now).drop now).record = none := by
  have recorded := idempotent.record record isRecord
  have expires : store.isDraining record = false ∧ ∃ expiresAt,
      record.expiresAt.or ((store.batches.find record.batchId).bind KeyedBatch.recordExpiry) =
        some expiresAt ∧ expiresAt ≤ now := by
    cases frozen : record.expiresAt with
    | some expiresAt =>
      rcases recorded.frozen expiresAt frozen with ⟨moment, ends, le⟩
      exact ⟨by simp [isDraining, frozen], expiresAt, rfl, le.trans (past moment ends)⟩
    | none =>
      have there := recorded.unfrozen frozen
      rcases recorded.stored there with ⟨row, found, -⟩
      have kept := idempotent.rows _ _ found
      rcases ended with ⟨moment, isEnd | ⟨clock, deleted⟩⟩
      · rcases kept.over_of_ended isEnd with ⟨isOver, still⟩
        have settled : store.isDraining record = false := by
          simp [isDraining, frozen, found, still]
        rcases kept.endedAt_of_over isOver still with ⟨end_, isEndedAt, isEnded⟩
        refine ⟨settled, end_ + idempotencyRetention, ?_, past end_ (Or.inl isEnded)⟩
        simp [found, KeyedBatch.recordExpiry, isOver, isEndedAt]
      · exact absurd (Or.inl ⟨moment, clock, deleted⟩) there
  rcases expires with ⟨settled, expiresAt, isExpiry, le⟩
  refine ⟨settled, ?_⟩
  have frozen := idempotent.freeze (by
    intro other isOther
    obtain rfl : record = other := Option.some.inj (isRecord.symm.trans isOther)
    exact settled)
  rw [frozen.vanish_eq]
  simp only [drop, freeze, isRecord, Option.map_some, isExpiry]
  rw [Option.filter_eq_none_iff]
  simpa using le

/-- As long as a batch created under the key is protected, no other one is stored, and every
creation is answered with it; afterwards the sweep drops the record. -/
theorem one_batch_per_key {events : List KeyEvent} (along : (machine surface).Along Waits {} events)
    (ran : (machine surface).run {} events = some store) :
    (∀ id, Protected store.history id store.clock →
      (∀ event next other requestDigest, store.step surface event = some next →
        KeyEntry.created other requestDigest ∈ next.history →
        KeyEntry.created other requestDigest ∈ store.history) ∧
      (∀ (place : ℕ) (create : KeyedCreate) (stage : CreateStage),
        store.creates[place]? = some (create, stage) → stage.isPast = false) ∧
      ∀ (place : ℕ) (create : KeyedCreate), store.creates[place]? = some (create, .locked) →
        store.Waits (.lookup place) → ∃ next outcome,
          store.step surface (.lookup place) = some next ∧
          next.creates[place]? = some (create, .ended outcome) ∧
          Answered store.history id create outcome) ∧
    ∀ record now, store.record = some record → now ≤ store.clock →
      (∃ moment, EndsAt store.history record.batchId moment) →
      (∀ moment, EndsAt store.history record.batchId moment → moment + idempotencyRetention ≤ now) →
      ∃ final, (machine surface).run store [.freeze, .vanish now, .drop now] = some final ∧
        (machine surface).Along Waits store [.freeze, .vanish now, .drop now] ∧
        final.record = none := by
  have idempotent := idempotent_of_run along ran
  refine ⟨?_, ?_⟩
  · intro id protected_
    refine ⟨?_, ?_, ?_⟩
    · intro event next other requestDigest stepped created
      rcases created_of_step stepped created with earlier | ⟨place, create, found⟩
      · exact earlier
      · exact absurd protected_ (idempotent.past place create .admitted found rfl id)
    · intro place create stage found
      cases isPast : stage.isPast with
      | false => rfl
      | true => exact absurd protected_ (idempotent.past place create stage found isPast id)
    · intro place create found waits
      rcases idempotent.creates place create .locked found with ⟨-, begun⟩
      have settled : ∀ record, store.record = some record → store.isDraining record = true →
          store.isLive record create.now = true := by
        intro record isRecord draining
        simpa [Waits, premature, isRecord, found, draining] using waits
      rcases replay_of_protected idempotent protected_ begun settled with
        ⟨outcome, answered, isAnswer⟩
      refine ⟨store.setCreate place create (.ended outcome), outcome, ?_, ?_, isAnswer⟩
      · simp [step, found, answered]
      · simp only [setCreate]
        rw [getElem?_set_of_some found, if_pos rfl]
  · intro record now isRecord begun ended past
    rcases sweep_drops_record idempotent isRecord ended past with ⟨settled, dropped⟩
    have inTime : ¬ store.clock < now := not_lt.mpr begun
    refine ⟨(store.freeze.vanish now).drop now, ?_, ?_, dropped⟩
    · simp only [Machine.run, machine, step, Option.bind_some]
      have frozenClock : store.freeze.clock = store.clock := rfl
      have sweptClock : (store.freeze.vanish now).clock = store.clock := rfl
      simp [frozenClock, sweptClock, inTime]
    · simp [Machine.Along, Waits, premature, isRecord, settled]

def fileCreate (id : String) (now : ℚ) : KeyedCreate :=
  ⟨id, "digest", { surface := .openaiFile, expiresAt := none, requests := none }, false, none, now⟩

def failsWhileRunning : List KeyEvent :=
  [.beginCreate (fileCreate "first" 0), .lock 0, .lookup 0, .lookupConsole 0, .checkCaps 0 false,
    .commit 0, .tick 10,
    .transact "first" (.claimBatchWork .validating "worker" 0 60) 0,
    .transact "first" (.stageItems "worker" ["model"] 1) 1,
    .transact "first" (.publishValidated "worker" 2) 2,
    .transact "first" (.claimItems "worker" "model" [0] 3 60) 3,
    .transact "first" (.failBatch 4) 4]

def isSealedLater : List KeyEvent :=
  [.transact "first" (.completeItem 0 "worker" 1 { costUsd := some 1 } 6) 6,
    .transact "first" (.claimBatchWork .sealing "worker" 7 60) 7,
    .transact "first" (.commitSeal "worker" 1) 10]

def sentAgain : List KeyEvent :=
  [.tick 86405, .beginCreate (fileCreate "second" 86405), .lock 1]

theorem protected_after_seal :
    Protected [.created "first" "digest", .ended "first" 10] "first" 86405 := by
  refine ⟨⟨"digest", by simp⟩, ?_⟩
  intro bound isBound
  rw [← Option.some.inj isBound]
  decide +kernel

theorem retry_is_answered_with_sealed_batch : ∃ store next create, (machine .openaiFile).run {}
        (failsWhileRunning ++ isSealedLater ++ sentAgain) = some store ∧
      store.step .openaiFile (.lookup 1) = some next ∧ create.batchId = "second" ∧
      next.creates[1]? = some (create, .ended (.replayed "first")) := by
  have ran := (Option.some_get (show ((machine .openaiFile).run {}
    (failsWhileRunning ++ isSealedLater ++ sentAgain)).isSome = true by decide +kernel)).symm
  have along : (machine .openaiFile).Along Waits {}
      (failsWhileRunning ++ isSealedLater ++ sentAgain) := by decide +kernel
  have once := (one_batch_per_key along ran).1 "first"
  generalize isStore : Option.get _ _ = store at ran once
  have history : store.history = [.created "first" "digest", .ended "first" 10] := by
    rw [← isStore]
    decide +kernel
  have clock : store.clock = 86405 := by
    rw [← isStore]
    decide +kernel
  have waits : store.Waits (.lookup 1) := by
    rw [← isStore]
    decide +kernel
  have found : store.creates[1]?.map (fun entry =>
      (entry.1.batchId, entry.1.requestDigest, entry.2)) = some ("second", "digest", .locked) := by
    rw [← isStore]
    decide +kernel
  rw [history, clock] at once
  rcases Option.map_eq_some_iff.mp found with ⟨⟨create, stage⟩, found, same⟩
  simp only [Prod.mk.injEq] at same
  rcases same with ⟨isId, isDigest, rfl⟩
  rcases (once protected_after_seal).2.2 1 create found waits with
    ⟨next, outcome, stepped, ended, answered⟩
  have isOutcome : outcome = .replayed "first" := by
    apply answered.replayed
    · simp [isDigest]
    · simp [Gone]
  exact ⟨store, next, create, ran, stepped, isId, isOutcome ▸ ended⟩

/-- The sweep takes the failure for the end, and the creation that is sent again stores
a second batch. -/
theorem second_batch_within_day_of_seal :
    ¬ ∀ (surface : Surface) (events : List KeyEvent) (store : KeyStore) (id : String),
      (machine surface).run {} events = some store → Protected store.history id store.clock →
      ∀ event next other requestDigest, store.step surface event = some next →
        KeyEntry.created other requestDigest ∈ next.history →
        KeyEntry.created other requestDigest ∈ store.history := by
  intro once
  have ran := (Option.some_get (show ((machine .openaiFile).run {}
    (failsWhileRunning ++ .freeze :: isSealedLater ++ sentAgain ++
      [.lookup 1, .lookupConsole 1, .checkCaps 1 false])).isSome = true by decide +kernel)).symm
  have secondly := once .openaiFile _ _ "first" ran
  generalize isStore : Option.get _ _ = store at ran secondly
  have history : store.history = [.created "first" "digest", .ended "first" 10] := by
    rw [← isStore]
    decide +kernel
  have clock : store.clock = 86405 := by
    rw [← isStore]
    decide +kernel
  have stored : (store.step .openaiFile (.commit 1)).map KeyStore.history =
      some [.created "first" "digest", .ended "first" 10, .created "second" "digest"] := by
    rw [← isStore]
    decide +kernel
  rw [history, clock] at secondly
  rcases Option.map_eq_some_iff.mp stored with ⟨next, stepped, isHistory⟩
  have absent := secondly protected_after_seal (.commit 1) next "second" "digest" stepped
    (by simp [isHistory])
  simp at absent

end KeyStore

end HybridInference.Batch
