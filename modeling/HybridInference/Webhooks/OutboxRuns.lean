import HybridInference.Webhooks.OutboxTables

/-!
# The outbox over its runs

What every interleaving of the transactions keeps, step by step, and what a worker, an
owner and a receiver may rely on.
-/

namespace HybridInference.Webhooks

open Library

variable {maxAttempts : ℕ} {store next : OutboxStore}

theorem sound_initial (batches : Batches) (hooks : Hooks) (versions : ℕ) (clock : ℚ) :
    OutboxSound maxAttempts (OutboxStore.initial batches hooks versions clock) := by
  refine ⟨⟨?_, ?_, ?_, ?_, ?_⟩, ⟨?_, ?_, ?_, ?_⟩, ⟨?_, ?_⟩, ⟨?_, ?_⟩⟩ <;> simp [OutboxStore.initial]

theorem mem_pendingOf {userId : String} {id : ℕ} {event : WebhookEvent}
    (sound : OutboxSound maxAttempts store) (found : store.events id = some event)
    (pending : event.status = .pending) (same : event.userId = userId) :
    id ∈ store.pendingOf userId := by
  simp only [OutboxStore.pendingOf, List.mem_filter, List.mem_range]
  exact ⟨sound.rows.drawn id event found, by simp [found, pending, same]⟩

theorem unlockRows_of_ne {id : ℕ} {holder other : Holder}
    (isLocked : store.rowLocks id = some other)
    (different : other ≠ holder) : (store.unlockRows holder).rowLocks id = some other := by
  simp [OutboxStore.unlockRows, isLocked, different]

theorem of_unlockRows {id : ℕ} {holder other : Holder}
    (isLocked : (store.unlockRows holder).rowLocks id = some other) :
    store.rowLocks id = some other ∧ store.rowLocks id ≠ some holder := by
  simp only [OutboxStore.unlockRows] at isLocked
  split_ifs at isLocked with isMine
  exact ⟨isLocked, isMine⟩

variable {enqueues : Bool}

theorem isKeyShared_of_mem {place version : ℕ} {record : Seal}
    (found : store.seals[place]? = some record)
    (ready : record.stage = .ready (some version) enqueues) :
    store.isKeyShared record.userId = true := by
  simp only [OutboxStore.isKeyShared, List.any_eq_true]
  exact ⟨record, List.mem_of_getElem? found, by simp [ready]⟩

variable {events changed : Events}

theorem LocksSound.change {sweeps changedSweeps : List Sweep}
    {rowLocks rows : ℕ → Option Holder} (locks : LocksSound maxAttempts sweeps events rowLocks)
    (kept : ∀ id holder, rows id = some holder → rowLocks id = some holder ∧ changed id = events id)
    (running : ∀ (id place : ℕ), rows id = some (.sweep place) →
      changedSweeps[place]? = sweeps[place]?) :
    LocksSound maxAttempts changedSweeps changed rows := by
  constructor
  · intro id place isLocked
    rcases kept id _ isLocked with ⟨wasLocked, same⟩
    rw [same]
    exact locks.removed id place wasLocked
  · intro id place isLocked
    rcases kept id _ isLocked with ⟨wasLocked, same⟩
    rw [same, running id place isLocked]
    exact locks.taken id place wasLocked

theorem OutboxSound.beginSeal {batchId : String} {job : BatchJob} {target : Phase} {moment : ℚ}
    (sound : OutboxSound maxAttempts store)
    (unlocked : store.batchLocks batchId = none) (found : store.batches batchId = some job)
    (unsealed : job.phase ≠ .sealed) (targeted : enqueues = true → target = .sealed) :
    OutboxSound maxAttempts (store.beginSeal batchId job target moment enqueues) :=
  ⟨sound.rows, sound.seals.concat unlocked found unsealed targeted, sound.removals, sound.locks⟩

variable {place : ℕ}

theorem OutboxSound.setSeal {record : Seal} {stage : SealStage}
    (sound : OutboxSound maxAttempts store) (found : store.seals[place]? = some record)
    (going : record.stage ≠ .ended) (target : record.stage ≠ .moved false)
    (keyShared : ∀ version enqueues, stage = .ready (some version) enqueues →
      store.hooks record.userId ≠ none ∧ store.hookLocks record.userId = none)
    (unhooked : ∀ enqueues, stage = .ready none enqueues → enqueues = false) :
    OutboxSound maxAttempts (store.setSeal place record stage) :=
  ⟨sound.rows, sound.seals.setStage found going target keyShared unhooked, sound.removals,
    sound.locks⟩

theorem OutboxSound.abortSeal {record : Seal} (sound : OutboxSound maxAttempts store)
    (found : store.seals[place]? = some record) (going : record.stage ≠ .ended) :
    OutboxSound maxAttempts { store.setSeal place record .ended with
      batchLocks := Function.update store.batchLocks record.batchId none } := by
  have closed := sound.seals.close (store.batches record.batchId) found going
  rw [Function.update_eq_self] at closed
  exact ⟨sound.rows, closed, sound.removals, sound.locks⟩

theorem OutboxSound.closeSeal {record : Seal}
    (sound : OutboxSound maxAttempts store) (found : store.seals[place]? = some record)
    (going : record.stage ≠ .ended)
    (enqueuing : enqueues = true → ∃ held, record.stage = .ready held true) :
    OutboxSound maxAttempts (OutboxStore.sealed { store.setSeal place record .ended with
      batchLocks := Function.update store.batchLocks record.batchId none } record enqueues) := by
  rcases (sound.seals.locked place record found going).2 with ⟨job, isJob, unsealed⟩
  have rows := sound.rows.moveBatch
    ((store.batches record.batchId).map fun job => { job with phase := record.target })
    isJob unsealed
  have seals := sound.seals.close
    ((store.batches record.batchId).map fun job => { job with phase := record.target })
    found going
  cases enqueues with
  | false => exact ⟨rows, seals, sound.removals, sound.locks⟩
  | true =>
    rcases enqueuing rfl with ⟨held, isReady⟩
    cases held with
    | none => cases sound.seals.unhooked place record true found isReady
    | some version =>
      have shared := sound.seals.keyShared place record version true found isReady
      have target := sound.seals.target place record found going (by simp [isReady])
      have fresh : ∀ id, id = store.issued → store.events id = none := by
        rintro id rfl
        cases isEvent : store.events store.issued with
        | none => rfl
        | some event => exact absurd (sound.rows.drawn _ event isEvent) (lt_irrefl _)
      refine ⟨?_, seals, ?_, ?_⟩
      · refine rows.concat { job with phase := record.target } shared.1 ?_ target ?_
        · change Function.update store.batches record.batchId _ record.batchId = _
          rw [Function.update_self]
          exact congrArg (Option.map fun job => { job with phase := record.target }) isJob
        · intro id event isEvent same
          change store.events id = some event at isEvent
          rcases sound.rows.sealedBatch id event isEvent with ⟨other, isOther, isSealed⟩
          rw [same, isJob] at isOther
          cases isOther
          exact unsealed isSealed
      · refine sound.removals.change (fun _ _ _ _ locked => locked) ?_
          (fun _ _ _ _ _ _ locked => locked)
        intro other removal left isRemoval isRemoving id next isNext isPending sameUser
        by_cases new : id = store.issued
        · subst new
          change Function.update store.events store.issued _ store.issued = _ at isNext
          rw [Function.update_self] at isNext
          cases isNext
          have took := sound.removals.took other removal isRemoval (by simp [isRemoving,
            RemovalStage.hasHook])
          rw [← sameUser, shared.2] at took
          cases took
        · change Function.update store.events store.issued _ id = _ at isNext
          rw [Function.update_of_ne new] at isNext
          exact ⟨next, isNext, isPending, sameUser⟩
      · refine sound.locks.change ?_ (fun _ _ _ => rfl)
        intro id holder isLocked
        refine ⟨isLocked, Function.update_of_ne ?_ _ _⟩
        intro new
        cases holder with
        | removal other =>
          rcases sound.locks.removed id other isLocked with ⟨event, isEvent, -⟩
          rw [fresh id new] at isEvent
          cases isEvent
        | sweep other =>
          rcases sound.locks.taken id other isLocked with
            ⟨_, _, _, _, _, event, -, isEvent, -⟩
          rw [fresh id new] at isEvent
          cases isEvent

theorem OutboxSound.setHook {userId : String} {hook : Webhook} {versions : ℕ}
    (sound : OutboxSound maxAttempts store) :
    OutboxSound maxAttempts { store with
      hooks := Function.update store.hooks userId (some hook)
      versions := versions } := by
  refine ⟨sound.rows.setHook, sound.seals.changeHooks ?_, sound.removals, sound.locks⟩
  intro place record version enqueues _ _ hasHook isFree
  refine ⟨?_, isFree⟩
  change Function.update store.hooks userId (some hook) record.userId ≠ none
  by_cases same : record.userId = userId
  · rw [same, Function.update_self]
    exact Option.some_ne_none hook
  · rwa [Function.update_of_ne same]

variable {record : Removal}

theorem OutboxSound.deleteHook
    (sound : OutboxSound maxAttempts store) (found : store.removals[place]? = some record)
    (unlocked : store.hookLocks record.userId = none)
    (unshared : store.isKeyShared record.userId = false) :
    OutboxSound maxAttempts { store.setRemoval place record (.hookDone true) with
      hookLocks := Function.update store.hookLocks record.userId (some place) } := by
  refine ⟨sound.rows, sound.seals.changeHooks ?_, ?_, sound.locks⟩
  · intro other sealing seen enqueues isSeal isReady hasHook isFree
    refine ⟨hasHook, ?_⟩
    have different : sealing.userId ≠ record.userId := by
      intro same
      have shared := isKeyShared_of_mem isSeal isReady
      rw [same, unshared] at shared
      cases shared
    change Function.update store.hookLocks record.userId (some place) sealing.userId = none
    rwa [Function.update_of_ne different]
  · have moved : RemovalsSound (Function.update store.hookLocks record.userId (some place))
        store.removals store.events store.rowLocks := by
      refine sound.removals.change ?_ (fun _ _ _ _ _ id next isNext isPending sameUser =>
        ⟨next, isNext, isPending, sameUser⟩) (fun _ _ _ _ _ _ locked => locked)
      intro other removal _ _ locked
      have different : removal.userId ≠ record.userId := by
        intro same
        rw [same, unlocked] at locked
        cases locked
      rwa [Function.update_of_ne different]
    exact moved.setStage found (fun _ => Function.update_self ..) (by simp)

variable {took : Bool}

section

variable {place id : ℕ} {left : List ℕ} (sound : OutboxSound maxAttempts store)
  (found : store.removals[place]? = some record) (removing : record.stage = .removing took left)

include sound found removing

theorem OutboxSound.removeEvent (unlocked : store.rowLocks id = none)
    (pending : ∃ event, store.events id = some event ∧ event.status = .pending) :
    OutboxSound maxAttempts { store.setRemoval place record
        (.removing took (left.filter fun other => other ≠ id)) with
      rowLocks := Function.update store.rowLocks id (some (.removal place)) } := by
  refine ⟨sound.rows, sound.seals, ?_, ?_⟩
  · have locked : RemovalsSound store.hookLocks store.removals store.events
        (Function.update store.rowLocks id (some (.removal place))) := by
      refine sound.removals.change (fun _ _ _ _ locked => locked)
        (fun _ _ _ _ _ id next isNext isPending sameUser => ⟨next, isNext, isPending, sameUser⟩) ?_
      intro other removal before _ _ row isLocked
      have different : row ≠ id := by
        rintro rfl
        rw [unlocked] at isLocked
        cases isLocked
      rwa [Function.update_of_ne different]
    refine locked.setStage found ?_ ?_
    · intro hasHook
      exact sound.removals.took place record found (by rw [removing]; exact hasHook)
    · intro before same row event isEvent isPending sameUser
      cases same
      by_cases isId : row = id
      · subst isId
        exact Or.inr (Function.update_self ..)
      · rcases sound.removals.left place record left found removing row event isEvent isPending
            sameUser with ahead | isLocked
        · exact Or.inl (List.mem_filter.mpr ⟨ahead, by simpa using isId⟩)
        · exact Or.inr (by rwa [Function.update_of_ne isId])
  · constructor
    · intro row other isLocked
      by_cases isId : row = id
      · exact isId ▸ pending
      · change Function.update store.rowLocks id _ row = _ at isLocked
        rw [Function.update_of_ne isId] at isLocked
        exact sound.locks.removed row other isLocked
    · intro row other isLocked
      change Function.update store.rowLocks id _ row = _ at isLocked
      by_cases isId : row = id
      · subst isId
        rw [Function.update_self] at isLocked
        cases isLocked
      · rw [Function.update_of_ne isId] at isLocked
        exact sound.locks.taken row other isLocked

theorem OutboxSound.skipEvent
    (final : ∀ event, store.events id = some event → event.status ≠ .pending) :
    OutboxSound maxAttempts (store.setRemoval place record
      (.removing took (left.filter fun other => other ≠ id))) := by
  refine ⟨sound.rows, sound.seals, ?_, sound.locks⟩
  refine sound.removals.setStage found ?_ ?_
  · intro hasHook
    exact sound.removals.took place record found (by rw [removing]; exact hasHook)
  · intro before same row event isEvent isPending sameUser
    cases same
    have different : row ≠ id := by
      rintro rfl
      exact final event isEvent isPending
    rcases sound.removals.left place record left found removing row event isEvent isPending
        sameUser with ahead | isLocked
    · exact Or.inl (List.mem_filter.mpr ⟨ahead, by simpa using different⟩)
    · exact Or.inr isLocked

end

theorem released_of_none {locks : String → Option ℕ} {userId : String}
    (isFree : locks userId = none) :
    (if locks userId = some place then none else locks userId) = none := by
  simp [isFree]

theorem RemovalsSound.close {hookLocks : String → Option ℕ} {removals : List Removal}
    {rowLocks : ℕ → Option Holder} (sound : RemovalsSound hookLocks removals events rowLocks)
    (found : removals[place]? = some record)
    (fewer : ∀ id event, changed id = some event → events id = some event) :
    RemovalsSound (fun userId => if hookLocks userId = some place then none else hookLocks userId)
      (removals.set place { record with stage := .ended }) changed
      (fun id => if rowLocks id = some (.removal place) then none else rowLocks id) := by
  constructor
  · intro other next isNext hasHook
    rcases getElem?_set_cases found isNext with ⟨rfl, rfl⟩ | ⟨different, isNext⟩
    · cases hasHook
    · have locked := sound.took other next isNext hasHook
      rw [locked, if_neg (fun equal => different (Option.some.inj equal))]
  · intro other next before isNext isRemoving id event isEvent isPending sameUser
    rcases getElem?_set_cases found isNext with ⟨rfl, rfl⟩ | ⟨different, isNext⟩
    · cases isRemoving
    · rcases sound.left other next before isNext isRemoving id event (fewer id event isEvent)
          isPending sameUser with ahead | isLocked
      · exact Or.inl ahead
      · right
        rw [isLocked, if_neg]
        intro equal
        simp only [Option.some.injEq, Holder.removal.injEq] at equal
        exact different equal

theorem OutboxSound.abortRemoval
    (sound : OutboxSound maxAttempts store) (found : store.removals[place]? = some record) :
    OutboxSound maxAttempts
      { (store.setRemoval place record .ended).unlockRows (.removal place) with
        hookLocks := fun userId =>
          if store.hookLocks userId = some place then none else store.hookLocks userId } := by
  refine ⟨sound.rows, sound.seals.changeHooks ?_,
    sound.removals.close found (fun _ _ isEvent => isEvent), sound.locks.change ?_
      (fun _ _ _ => rfl)⟩
  · intro _ sealing _ _ _ _ hasHook isFree
    exact ⟨hasHook, released_of_none isFree⟩
  · intro id holder isLocked
    exact ⟨(of_unlockRows isLocked).1, rfl⟩

theorem OutboxSound.commitRemoval
    (sound : OutboxSound maxAttempts store) (found : store.removals[place]? = some record)
    (removing : record.stage = .removing took []) :
    OutboxSound maxAttempts
      { (store.setRemoval place record .ended).unlockRows (.removal place) with
        hookLocks := fun userId =>
          if store.hookLocks userId = some place then none else store.hookLocks userId
        hooks := if took then Function.update store.hooks record.userId none else store.hooks
        events := fun id =>
          if store.rowLocks id = some (.removal place) then none else store.events id } := by
  have fewer : ∀ id event, (if store.rowLocks id = some (.removal place) then none
      else store.events id) = some event →
      store.rowLocks id ≠ some (.removal place) ∧ store.events id = some event := by
    intro id event isEvent
    split_ifs at isEvent with isLocked
    exact ⟨isLocked, isEvent⟩
  have locked : took = true → store.hookLocks record.userId = some place := by
    rintro rfl
    exact sound.removals.took place record found (by rw [removing]; rfl)
  refine ⟨?_, ?_, sound.removals.close found fun id event isEvent => (fewer id event isEvent).2,
    sound.locks.change ?_ (fun _ _ _ => rfl)⟩
  · have rows : RowsSound maxAttempts store.batches store.hooks
        (fun id => if store.rowLocks id = some (.removal place) then none else store.events id)
        store.issued :=
      sound.rows.step fun id event isEvent =>
        ⟨event, (fewer id event isEvent).2, Or.inl rfl⟩
    refine ⟨?_, rows.sealedBatch, rows.oneEvent, rows.drawn, rows.trailed⟩
    intro id event isEvent isPending
    have hasHook := rows.hooked id event isEvent isPending
    cases took with
    | false => exact hasHook
    | true =>
      have different : event.userId ≠ record.userId := by
        intro same
        rcases sound.removals.left place record [] found removing id event
            (fewer id event isEvent).2 isPending same with ahead | isLocked
        · cases ahead
        · exact (fewer id event isEvent).1 isLocked
      change Function.update store.hooks record.userId none event.userId ≠ none
      rwa [Function.update_of_ne different]
  · refine sound.seals.changeHooks ?_
    intro _ sealing _ _ _ _ hasHook isFree
    refine ⟨?_, released_of_none isFree⟩
    cases took with
    | false => exact hasHook
    | true =>
      have different : sealing.userId ≠ record.userId := by
        intro same
        rw [same, locked rfl] at isFree
        cases isFree
      change Function.update store.hooks record.userId none sealing.userId ≠ none
      rwa [Function.update_of_ne different]
  · intro id holder isLocked
    exact ⟨(of_unlockRows isLocked).1, if_neg (of_unlockRows isLocked).2⟩

theorem SweepKind.rowStep {kind : SweepKind} {now : ℚ} {hooks : Hooks} {event : WebhookEvent}
    (applies : kind.applies maxAttempts now hooks event = true) :
    RowStep maxAttempts event (kind.update now event) := by
  cases kind with
  | claim worker leaseSeconds limit =>
    simp only [SweepKind.applies, Bool.and_eq_true] at applies
    exact .claim worker now leaseSeconds applies.1
  | exhausted =>
    simp only [SweepKind.applies, WebhookEvent.isExhausted, Bool.and_eq_true,
      decide_eq_true_eq] at applies
    exact .exhausted applies.1.1
  | orphaned =>
    simp only [SweepKind.applies, Bool.and_eq_true, decide_eq_true_eq] at applies
    exact .orphaned applies.1

section

variable (sound : OutboxSound maxAttempts store)

include sound

theorem OutboxSound.beginSweep {kind : SweepKind} :
    OutboxSound maxAttempts { store with
      sweeps := store.sweeps ++ [⟨kind, store.clock, .begun⟩] } := by
  refine ⟨sound.rows, sound.seals, sound.removals,
    sound.locks.change (fun _ _ isLocked => ⟨isLocked, rfl⟩) ?_⟩
  intro id place isLocked
  rcases sound.locks.taken id place isLocked with ⟨_, _, _, _, _, _, isSweep, -⟩
  rw [isSweep]
  exact getElem?_concat_of_some isSweep

theorem OutboxSound.moveSweep {place count : ℕ} {kind : SweepKind} {moment : ℚ}
    {stage : SweepStage} {hooks : Hooks} {seen : Events} {rowLocks : ℕ → Option Holder}
    (found : store.sweeps[place]? = some ⟨kind, moment, stage⟩)
    (same : (∀ id, store.rowLocks id ≠ some (.sweep place)) ∨
      ∃ earlier, stage = .running hooks seen earlier)
    (locks : ∀ id holder, rowLocks id = some holder → store.rowLocks id = some holder ∨
      holder = .sweep place ∧ ∃ event, store.events id = some event ∧
        kind.applies maxAttempts moment hooks event = true)
    (kept : ∀ id place, store.rowLocks id = some (.removal place) →
      rowLocks id = some (.removal place)) :
    OutboxSound maxAttempts { store.setSweep place ⟨kind, moment, .begun⟩
        (.running hooks seen count) with
      rowLocks := rowLocks } := by
  refine ⟨sound.rows, sound.seals, ?_, ?_⟩
  · exact sound.removals.change (fun _ _ _ _ locked => locked)
      (fun _ _ _ _ _ id next isNext isPending sameUser => ⟨next, isNext, isPending, sameUser⟩)
      (fun other _ _ _ _ id isLocked => kept id other isLocked)
  · constructor
    · intro id other isLocked
      rcases locks id _ isLocked with earlier | ⟨mine, -⟩
      · exact sound.locks.removed id other earlier
      · cases mine
    · intro id other isLocked
      have taken : store.rowLocks id = some (.sweep other) ∨
          other = place ∧ ∃ event, store.events id = some event ∧
            kind.applies maxAttempts moment hooks event = true := by
        rcases locks id _ isLocked with earlier | ⟨mine, row⟩
        · exact Or.inl earlier
        · cases mine
          exact Or.inr ⟨rfl, row⟩
      change ∃ kind moment hooks seen count event,
        (store.sweeps.set place _)[other]? = some ⟨kind, moment, .running hooks seen count⟩ ∧ _
      rcases taken with earlier | ⟨rfl, event, isEvent, applies⟩
      · rcases sound.locks.taken id other earlier with
          ⟨kindOf, momentOf, hooksOf, seenOf, countOf, event, isSweep, isEvent, applies⟩
        by_cases isPlace : place = other
        · subst isPlace
          rw [found] at isSweep
          cases isSweep
          rcases same with none | ⟨before, isRunning⟩
          · exact absurd earlier (none id)
          · cases isRunning
            exact ⟨kind, moment, hooks, seen, count, event,
              by rw [getElem?_set_of_some found, if_pos rfl], isEvent, applies⟩
        · exact ⟨kindOf, momentOf, hooksOf, seenOf, countOf, event,
            by rw [getElem?_set_of_some found, if_neg isPlace, isSweep], isEvent, applies⟩
      · exact ⟨kind, moment, hooks, seen, count, event,
          by rw [getElem?_set_of_some found, if_pos rfl], isEvent, applies⟩

theorem OutboxSound.endSweep {record : Sweep} {changed : Events}
    (found : store.sweeps[place]? = some record)
    (steps : ∀ id next, changed id = some next → ∃ event, store.events id = some event ∧
      (next = event ∨ RowStep maxAttempts event next))
    (others : ∀ id, store.rowLocks id ≠ some (.sweep place) → changed id = store.events id) :
    OutboxSound maxAttempts
      { (store.setSweep place record .ended).unlockRows (.sweep place) with
        events := changed } := by
  refine ⟨sound.rows.step steps, sound.seals, ?_, sound.locks.change ?_ ?_⟩
  · refine sound.removals.change (fun _ _ _ _ locked => locked) ?_ ?_
    · intro _ _ _ _ _ id next isNext isPending sameUser
      rcases steps id next isNext with ⟨event, isEvent, rfl | stepped⟩
      · exact ⟨next, isEvent, isPending, sameUser⟩
      · refine ⟨event, isEvent, ?_, stepped.same_batch.1 ▸ sameUser⟩
        by_contra final
        rw [stepped.eq_of_final final] at isPending
        exact final isPending
    · intro other _ _ _ _ id isLocked
      exact unlockRows_of_ne isLocked (by simp)
  · intro id holder isLocked
    have held := of_unlockRows isLocked
    exact ⟨held.1, others id held.2⟩
  · intro id other isLocked
    have held := of_unlockRows isLocked
    change (store.sweeps.set place _)[other]? = _
    rw [getElem?_set_of_some found, if_neg]
    rintro rfl
    exact held.2 held.1

theorem OutboxSound.mark {id : ℕ} {mark : WebhookEvent → WebhookEvent}
    (unlocked : store.rowLocks id = none)
    (steps : ∀ event, RowStep maxAttempts event (mark event)) :
    OutboxSound maxAttempts { store with
      events := Function.update store.events id ((store.events id).map mark) } := by
  have changes : ∀ row next, Function.update store.events id ((store.events id).map mark) row =
      some next → ∃ event, store.events row = some event ∧
        (next = event ∨ RowStep maxAttempts event next) := by
    intro row next isNext
    by_cases same : row = id
    · subst same
      rw [Function.update_self] at isNext
      rcases Option.map_eq_some_iff.mp isNext with ⟨event, isEvent, rfl⟩
      exact ⟨event, isEvent, Or.inr (steps event)⟩
    · rw [Function.update_of_ne same] at isNext
      exact ⟨next, isNext, Or.inl rfl⟩
  refine ⟨sound.rows.step changes, sound.seals, ?_, sound.locks.change ?_ (fun _ _ _ => rfl)⟩
  · refine sound.removals.change (fun _ _ _ _ locked => locked) ?_
      (fun _ _ _ _ _ _ locked => locked)
    intro _ _ _ _ _ row next isNext isPending sameUser
    rcases changes row next isNext with ⟨event, isEvent, rfl | stepped⟩
    · exact ⟨next, isEvent, isPending, sameUser⟩
    · refine ⟨event, isEvent, ?_, stepped.same_batch.1 ▸ sameUser⟩
      by_contra final
      rw [stepped.eq_of_final final] at isPending
      exact final isPending
  · intro row holder isLocked
    refine ⟨isLocked, Function.update_of_ne ?_ _ _⟩
    rintro rfl
    rw [unlocked] at isLocked
    cases isLocked

/-- One step of any transaction keeps the tables sound. -/
theorem OutboxSound.step {event : OutboxEvent}
    (stepped : (OutboxStore.machine maxAttempts).step store event = some next) :
    OutboxSound maxAttempts next := by
  simp only [OutboxStore.machine, OutboxStore.step] at stepped
  cases event with
  | advance later =>
    simp only at stepped
    split_ifs at stepped
    cases stepped
    exact ⟨sound.rows, sound.seals, sound.removals, sound.locks⟩
  | finalize batchId moment =>
    simp only at stepped
    split at stepped
    next job found =>
        split_ifs at stepped with locked moved isFile <;> cases stepped
        · exact sound
        · exact sound.beginSeal (not_not.mp (not_or.mp locked).2) found
            (by simp [not_not.mp moved]) (by simp)
        · exact sound.beginSeal (not_not.mp (not_or.mp locked).2) found
            (by simp [not_not.mp moved]) fun _ => rfl
    next =>
        cases stepped
        exact sound
  | commitSeal batchId withEvent moment =>
    simp only at stepped
    split at stepped
    next job found =>
        split_ifs at stepped with locked moved <;> cases stepped
        · exact sound
        · exact sound.beginSeal (not_not.mp (not_or.mp locked).2) found
            (by simp [not_not.mp moved]) fun _ => rfl
    next =>
        cases stepped
        exact sound
  | readHook place =>
    simp only at stepped
    split at stepped
    next record found =>
        split_ifs at stepped with stage
        cases stepped
        exact sound.setSeal found (by simp [stage]) (by simp [stage]) (by simp) (by simp)
    next => cases stepped
  | lockHook place =>
    simp only at stepped
    split at stepped
    next record found =>
        split at stepped
        next stage =>
            cases stepped
            exact sound.setSeal found (by simp [stage]) (by simp [stage]) (by simp) (by simp)
        next version stage =>
            split at stepped
            next hook isHook =>
                split_ifs at stepped with other locked <;> cases stepped
                · exact sound.setSeal found (by simp [stage]) (by simp [stage]) (by simp) (by simp)
                · refine sound.setSeal found (by simp [stage]) (by simp [stage]) ?_ (by simp)
                  intro _ _ _
                  exact ⟨by simp [isHook], not_not.mp locked⟩
            next =>
                cases stepped
                exact sound.setSeal found (by simp [stage]) (by simp [stage]) (by simp) (by simp)
        next => cases stepped
    next => cases stepped
  | endSeal place commits =>
    simp only at stepped
    split at stepped
    next record found =>
        split_ifs at stepped with going commits
        · split at stepped <;> cases stepped
          next stage => exact sound.closeSeal found going (by simp)
          next held enqueues stage =>
              refine sound.closeSeal found going ?_
              rintro rfl
              exact ⟨held, stage⟩
        · cases stepped
          exact sound.abortSeal found going
    next => cases stepped
  | setWebhook userId hasSecret enabled =>
    simp only at stepped
    by_cases locked : store.hookLocks userId ≠ none
    · rw [if_pos locked] at stepped
      cases stepped
    rw [if_neg locked] at stepped
    split at stepped
    next hook found =>
        cases stepped
        exact sound.setHook
    next found =>
        split_ifs at stepped <;> cases stepped
        · exact sound.setHook
        · exact sound
  | deleteWebhook userId =>
    cases stepped
    exact ⟨sound.rows, sound.seals, sound.removals.concat, sound.locks⟩
  | deleteHook place =>
    have finds {record : Removal} {took : Bool} (found : store.removals[place]? = some record)
        (nothing : took = false) :
        OutboxSound maxAttempts (store.setRemoval place record (.hookDone took)) := by
      subst nothing
      exact ⟨sound.rows, sound.seals, sound.removals.setStage found (by simp [RemovalStage.hasHook])
        (by simp), sound.locks⟩
    simp only at stepped
    split at stepped
    next record found =>
        split at stepped
        next stage =>
            cases stepped
            exact finds found rfl
        next version stage =>
            split at stepped
            next hook isHook =>
                split_ifs at stepped with other locked <;> cases stepped
                · exact finds found rfl
                · simp only [Bool.or_eq_true, decide_eq_true_eq, not_or, not_not,
                    Bool.not_eq_true] at locked
                  exact sound.deleteHook found locked.1 locked.2
            next =>
                cases stepped
                exact finds found rfl
        next => cases stepped
    next => cases stepped
  | readEvents place =>
    simp only at stepped
    split at stepped
    next record found =>
        split at stepped <;> cases stepped
        next took stage =>
            refine ⟨sound.rows, sound.seals, sound.removals.setStage found ?_ ?_, sound.locks⟩
            · intro hasHook
              exact sound.removals.took place record found (by rw [stage]; exact hasHook)
            · intro left same id event isEvent pending sameUser
              cases same
              exact Or.inl (mem_pendingOf sound isEvent pending sameUser)
    next => cases stepped
  | removeEvent place id =>
    simp only at stepped
    split at stepped
    next record found =>
        split at stepped
        next took left stage =>
            split_ifs at stepped with blocked pending <;> cases stepped
            · simp only [not_or, not_not] at blocked
              simp only [Option.any_eq_true, decide_eq_true_eq] at pending
              rcases pending with ⟨event, isEvent, isPending⟩
              exact sound.removeEvent found stage blocked.2 ⟨event, isEvent, isPending⟩
            · refine sound.skipEvent found stage ?_
              intro event isEvent isPending
              simp [isEvent, isPending] at pending
        next => cases stepped
    next => cases stepped
  | endRemoval place commits =>
    simp only at stepped
    split at stepped
    next record found =>
        split_ifs at stepped with going commits
        · split at stepped <;> cases stepped
          next took stage => exact sound.commitRemoval found stage
        · cases stepped
          exact sound.abortRemoval found
    next => cases stepped
  | beginSweep kind =>
    cases stepped
    exact sound.beginSweep
  | readSweep place =>
    simp only at stepped
    split at stepped <;> cases stepped
    next kind moment found =>
        refine sound.moveSweep found (Or.inl ?_) (fun _ _ isLocked => Or.inl isLocked)
          (fun _ _ isLocked => isLocked)
        intro id isLocked
        rcases sound.locks.taken id place isLocked with ⟨_, _, _, _, _, _, isSweep, -⟩
        rw [found] at isSweep
        cases isSweep
  | takeEvent place id =>
    simp only at stepped
    split at stepped
    next kind moment hooks seen taken found =>
        split_ifs at stepped with takes
        cases stepped
        simp only [Bool.and_eq_true, decide_eq_true_eq] at takes
        rcases takes with ⟨⟨⟨unlocked, -⟩, -⟩, applies⟩
        refine sound.moveSweep found (Or.inr ⟨taken, rfl⟩) ?_ ?_
        · intro row holder isLocked
          by_cases same : row = id
          · subst same
            rw [Function.update_self] at isLocked
            cases isLocked
            exact Or.inr ⟨rfl, by simpa [Option.any_eq_true] using applies⟩
          · rw [Function.update_of_ne same] at isLocked
            exact Or.inl isLocked
        · intro row other isLocked
          have different : row ≠ id := by
            rintro rfl
            rw [unlocked] at isLocked
            cases isLocked
          rwa [Function.update_of_ne different]
    next => cases stepped
  | endSweep place commits =>
    simp only at stepped
    split at stepped
    next => cases stepped
    next kind moment stage going found =>
        split_ifs at stepped with commits <;> cases stepped
        · refine sound.endSweep found ?_ (fun _ other => if_neg other)
          intro id later isLater
          split_ifs at isLater with isMine
          · rcases Option.map_eq_some_iff.mp isLater with ⟨event, isEvent, rfl⟩
            rcases sound.locks.taken id place isMine with
              ⟨_, _, hooks, _, _, row, isSweep, isRow, applies⟩
            rw [found] at isSweep
            cases isSweep
            rw [isEvent] at isRow
            cases isRow
            exact ⟨event, isEvent, Or.inr (SweepKind.rowStep applies)⟩
          · exact ⟨later, isLater, Or.inl rfl⟩
        · exact sound.endSweep found (fun _ later isLater => ⟨later, isLater, Or.inl rfl⟩)
            (fun _ _ => rfl)
    next => cases stepped
  | markDelivered id worker attempt =>
    simp only at stepped
    split_ifs at stepped with locked
    cases stepped
    exact sound.mark (not_not.mp locked) fun event => .markDelivered worker attempt
  | markFailed id worker attempt nextAttemptAt =>
    simp only at stepped
    split_ifs at stepped with locked
    cases stepped
    exact sound.mark (not_not.mp locked) fun event => .markFailed worker attempt nextAttemptAt

theorem OutboxSound.row_step {event : OutboxEvent} {id : ℕ} {row : WebhookEvent}
    (stepped : (OutboxStore.machine maxAttempts).step store event = some next)
    (found : store.events id = some row) :
    next.events id = some row ∨ (next.events id = none ∧ row.status = .pending) ∨
      ∃ later, next.events id = some later ∧ RowStep maxAttempts row later := by
  have marks {place : ℕ} {mark : WebhookEvent → WebhookEvent}
      (steps : ∀ event, RowStep maxAttempts event (mark event)) :
      Function.update store.events place ((store.events place).map mark) id = some row ∨
        (Function.update store.events place ((store.events place).map mark) id = none ∧
          row.status = .pending) ∨
        ∃ later, Function.update store.events place ((store.events place).map mark) id =
          some later ∧
          RowStep maxAttempts row later := by
    by_cases same : id = place
    · subst same
      rw [Function.update_self, found]
      exact Or.inr (Or.inr ⟨mark row, rfl, steps row⟩)
    · rw [Function.update_of_ne same]
      exact Or.inl found
  simp only [OutboxStore.machine, OutboxStore.step] at stepped
  cases event with
  | endSeal place commits =>
    have drawn : id ≠ store.issued := fun same => by
      have below := sound.rows.drawn id row found
      omega
    have sealedKeeps {free : OutboxStore} {record : Seal} {enqueues : Bool}
        (sameEvents : free.events = store.events) (sameIssued : free.issued = store.issued) :
        (free.sealed record enqueues).events id = some row := by
      cases enqueues with
      | false => exact sameEvents ▸ found
      | true =>
        change Function.update free.events free.issued _ id = some row
        rw [sameIssued, Function.update_of_ne drawn, sameEvents]
        exact found
    simp only at stepped
    split at stepped
    next record isRecord =>
        split_ifs at stepped with going commits
        · split at stepped <;> cases stepped
          · exact Or.inl (sealedKeeps rfl rfl)
          · exact Or.inl (sealedKeeps rfl rfl)
        · cases stepped
          exact Or.inl found
    next => cases stepped
  | endRemoval place commits =>
    simp only at stepped
    split at stepped
    next record isRecord =>
        split_ifs at stepped with going commits
        · split at stepped <;> cases stepped
          next took stage =>
              by_cases isMine : store.rowLocks id = some (.removal place)
              · rcases sound.locks.removed id place isMine with ⟨event, isEvent, pending⟩
                rw [found] at isEvent
                cases isEvent
                exact Or.inr (Or.inl ⟨if_pos isMine, pending⟩)
              · exact Or.inl ((if_neg isMine).trans found)
        · cases stepped
          exact Or.inl found
    next => cases stepped
  | endSweep place commits =>
    simp only at stepped
    split at stepped
    next => cases stepped
    next kind moment stage going isSweep =>
        split_ifs at stepped with commits <;> cases stepped
        · by_cases isMine : store.rowLocks id = some (.sweep place)
          · rcases sound.locks.taken id place isMine with
              ⟨_, _, hooks, _, _, event, isTaking, isEvent, applies⟩
            rw [isSweep] at isTaking
            cases isTaking
            rw [found] at isEvent
            cases isEvent
            refine Or.inr (Or.inr ⟨_, (if_pos isMine).trans ?_, SweepKind.rowStep applies⟩)
            rw [found]
            rfl
          · exact Or.inl ((if_neg isMine).trans found)
        · exact Or.inl found
    next => cases stepped
  | markDelivered place worker attempt =>
    simp only at stepped
    split_ifs at stepped
    cases stepped
    exact marks fun event => .markDelivered worker attempt
  | markFailed place worker attempt nextAttemptAt =>
    simp only at stepped
    split_ifs at stepped
    cases stepped
    exact marks fun event => .markFailed worker attempt nextAttemptAt
  | setWebhook userId hasSecret enabled =>
    simp only at stepped
    by_cases locked : store.hookLocks userId ≠ none
    · rw [if_pos locked] at stepped
      cases stepped
    rw [if_neg locked] at stepped
    split at stepped
    next => cases stepped; exact Or.inl found
    next => split_ifs at stepped <;> cases stepped <;> exact Or.inl found
  | advance | deleteWebhook | beginSweep =>
    simp only at stepped
    try split_ifs at stepped
    all_goals (cases stepped; exact Or.inl found)
  | finalize | commitSeal | readHook | readSweep | takeEvent =>
    simp only at stepped
    split at stepped <;> try split_ifs at stepped
    all_goals cases stepped <;> exact Or.inl found
  | readEvents | removeEvent =>
    simp only at stepped
    split at stepped
    next =>
        split at stepped <;> try split_ifs at stepped
        all_goals cases stepped <;> exact Or.inl found
    next => cases stepped
  | lockHook | deleteHook =>
    simp only at stepped
    split at stepped
    next =>
        split at stepped
        next => cases stepped; exact Or.inl found
        next =>
            split at stepped <;> try split_ifs at stepped
            all_goals (cases stepped; exact Or.inl found)
        next => cases stepped
    next => cases stepped

theorem OutboxSound.final_kept {events : List OutboxEvent} {id : ℕ} {row : WebhookEvent}
    (found : store.events id = some row)
    (final : row.status ≠ .pending)
    (ran : (OutboxStore.machine maxAttempts).run store events = some next) :
    next.events id = some row := by
  have kept : ∀ state event later, (OutboxSound maxAttempts state ∧ state.events id = some row) →
      (OutboxStore.machine maxAttempts).step state event = some later →
      OutboxSound maxAttempts later ∧ later.events id = some row := by
    rintro state event later ⟨isSound, isRow⟩ stepped
    refine ⟨isSound.step stepped, ?_⟩
    rcases isSound.row_step stepped isRow with same | ⟨-, pending⟩ | ⟨changed, isChanged, step⟩
    · exact same
    · exact absurd pending final
    · rw [isChanged, step.eq_of_final final]
  exact (Machine.run_invariant kept ⟨sound, found⟩ ran).2

end

/-- What the outbox promises of every event: a hook, a sealed batch of its own, one attempt at a
time and at most `maxAttempts`, and no change after its outcome. -/
structure OutboxReliable (maxAttempts : ℕ) (store : OutboxStore) : Prop where
  hooked : ∀ id event, store.events id = some event → event.status = .pending →
    store.hooks event.userId ≠ none
  oneEvent : ∀ id other event later, store.events id = some event →
    store.events other = some later → event.batchId = later.batchId → id = other
  sealedBatch : ∀ id event, store.events id = some event →
    ∃ job, store.batches event.batchId = some job ∧ job.phase = .sealed
  attempts : ∀ id event, store.events id = some event → event.attempts ≤ maxAttempts
  claims : ∀ id event, store.events id = some event →
    event.history.filterMap Entry.claimedAttempt = List.range' 1 event.attempts
  again : ∀ id event, store.events id = some event → ∀ past attempt worker moment until_ rest,
      event.history = past ++ .claimed (attempt + 1) worker moment until_ :: rest → attempt ≠ 0 →
      (∃ earlier started ended, .claimed attempt earlier started ended ∈ past ∧ ended ≤ moment) ∨
        ∃ retry, .failed attempt (some retry) ∈ past ∧ retry ≤ moment
  outcomes : ∀ id event, store.events id = some event →
    (event.history.filterMap Entry.recordedAttempt).Pairwise (· < ·)
  final : ∀ id event, store.events id = some event → event.status ≠ .pending →
    ∀ later next, (OutboxStore.machine maxAttempts).run store later = some next →
      next.events id = some event

/-- The outbox keeps its promises in every run. -/
theorem webhook_outbox (maxAttempts : ℕ) (batches : Batches) (hooks : Hooks) (versions : ℕ)
    (clock : ℚ) (events : List OutboxEvent) (store : OutboxStore)
    (ran : (OutboxStore.machine maxAttempts).run
      (OutboxStore.initial batches hooks versions clock) events = some store) :
    OutboxReliable maxAttempts store := by
  have sound : OutboxSound maxAttempts store :=
    Machine.run_invariant (fun _ _ _ sound stepped => sound.step stepped)
      (sound_initial batches hooks versions clock) ran
  have trailed := sound.rows.trailed
  exact {
    hooked := sound.rows.hooked
    oneEvent := sound.rows.oneEvent
    sealedBatch := sound.rows.sealedBatch
    attempts := fun id event found => (trailed id event found).attempts
    claims := fun id event found => (trailed id event found).claims
    again := fun id event found => (trailed id event found).again
    outcomes := fun id event found => (trailed id event found).outcomes
    final := fun id event found final later next ran => sound.final_kept found final ran }

def secondAttempt : List OutboxEvent :=
  [.setWebhook "user" true true, .finalize "batch" 0, .readHook 0, .lockHook 0, .endSeal 0 true,
    .beginSweep (.claim "first" 70 1), .readSweep 0, .takeEvent 0 0, .endSweep 0 true,
    .markFailed 0 "first" 1 (some 30), .advance 30,
    .beginSweep (.claim "second" 70 1), .readSweep 1, .takeEvent 1 0, .endSweep 1 true,
    .markDelivered 0 "second" 2, .markFailed 0 "first" 1 none]

def oneBatch : Batches := fun batchId =>
  if batchId = "batch" then some ⟨"user", false, .running⟩ else none

theorem webhook_outbox_second_attempt :
    ∃ store, (OutboxStore.machine 8).run (OutboxStore.initial oneBatch (fun _ => none) 0 0)
        secondAttempt = some store ∧
      (store.events 0).map WebhookEvent.history =
        some [.claimed 1 "first" 0 70, .failed 1 (some 30), .claimed 2 "second" 30 100,
          .delivered 2] ∧
      OutboxReliable 8 store := by
  have ends : ((OutboxStore.machine 8).run (OutboxStore.initial oneBatch (fun _ => none) 0 0)
      secondAttempt).map (fun store => (store.events 0).map WebhookEvent.history) =
      some (some [.claimed 1 "first" 0 70, .failed 1 (some 30), .claimed 2 "second" 30 100,
        .delivered 2]) := by
    decide +kernel
  rcases Option.map_eq_some_iff.mp ends with ⟨store, ran, history⟩
  exact ⟨store, ran, history, webhook_outbox 8 oneBatch (fun _ => none) 0 0 secondAttempt store ran⟩

end HybridInference.Webhooks
