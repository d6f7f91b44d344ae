import HybridInference.Webhooks.EventTrail

/-!
# The tables and their locks

Four invariants, each over the tables it reads: the events and what they hang on, the
sealing transactions, the removals of webhooks, and the rows that are locked.
-/

namespace HybridInference.Webhooks

open Library

structure RowsSound (maxAttempts : ℕ) (batches : Batches) (hooks : Hooks) (events : Events)
    (issued : ℕ) : Prop where
  hooked : ∀ id event, events id = some event → event.status = .pending → hooks event.userId ≠ none
  sealedBatch : ∀ id event, events id = some event →
    ∃ job, batches event.batchId = some job ∧ job.phase = .sealed
  oneEvent : ∀ id other event later, events id = some event → events other = some later →
    event.batchId = later.batchId → id = other
  drawn : ∀ id event, events id = some event → id < issued
  trailed : ∀ id event, events id = some event → Trailed maxAttempts event

structure SealsSound (batches : Batches) (hooks : Hooks) (hookLocks batchLocks : String → Option ℕ)
    (seals : List Seal) : Prop where
  locked : ∀ (place : ℕ) (record : Seal), seals[place]? = some record → record.stage ≠ .ended →
    batchLocks record.batchId = some place ∧
      ∃ job, batches record.batchId = some job ∧ job.phase ≠ .sealed
  target : ∀ (place : ℕ) (record : Seal), seals[place]? = some record → record.stage ≠ .ended →
    record.stage ≠ .moved false → record.target = .sealed
  keyShared : ∀ (place : ℕ) (record : Seal) version enqueues, seals[place]? = some record →
    record.stage = .ready (some version) enqueues →
    hooks record.userId ≠ none ∧ hookLocks record.userId = none
  unhooked : ∀ (place : ℕ) (record : Seal) enqueues, seals[place]? = some record →
    record.stage = .ready none enqueues → enqueues = false

namespace RemovalStage

def hasHook : RemovalStage → Bool
  | .hookDone took | .removing took _ => took
  | _ => false

end RemovalStage

structure RemovalsSound (hookLocks : String → Option ℕ) (removals : List Removal)
    (events : Events) (rowLocks : ℕ → Option Holder) : Prop where
  took : ∀ (place : ℕ) (record : Removal), removals[place]? = some record →
    record.stage.hasHook = true →
    hookLocks record.userId = some place
  left : ∀ (place : ℕ) (record : Removal) left, removals[place]? = some record →
    record.stage = .removing true left → ∀ id event, events id = some event →
    event.status = .pending → event.userId = record.userId →
    id ∈ left ∨ rowLocks id = some (.removal place)

structure LocksSound (maxAttempts : ℕ) (sweeps : List Sweep) (events : Events)
    (rowLocks : ℕ → Option Holder) : Prop where
  removed : ∀ id place, rowLocks id = some (.removal place) →
    ∃ event, events id = some event ∧ event.status = .pending
  taken : ∀ id place, rowLocks id = some (.sweep place) → ∃ kind moment hooks seen count event,
      sweeps[place]? = some ⟨kind, moment, .running hooks seen count⟩ ∧
      events id = some event ∧ kind.applies maxAttempts moment hooks event = true

/-- The tables are sound and their locks apart. -/
structure OutboxSound (maxAttempts : ℕ) (store : OutboxStore) : Prop where
  rows : RowsSound maxAttempts store.batches store.hooks store.events store.issued
  seals : SealsSound store.batches store.hooks store.hookLocks store.batchLocks store.seals
  removals : RemovalsSound store.hookLocks store.removals store.events store.rowLocks
  locks : LocksSound maxAttempts store.sweeps store.events store.rowLocks

section Rows

variable {maxAttempts issued : ℕ} {batches : Batches} {hooks : Hooks} {events changed : Events}

theorem RowsSound.step (rows : RowsSound maxAttempts batches hooks events issued)
    (steps : ∀ id next, changed id = some next →
      ∃ event, events id = some event ∧ (next = event ∨ RowStep maxAttempts event next)) :
    RowsSound maxAttempts batches hooks changed issued := by
  have same {id : ℕ} {next : WebhookEvent} (found : changed id = some next) :
      ∃ event, events id = some event ∧ next.userId = event.userId ∧
        next.batchId = event.batchId ∧ (next.status = .pending → event.status = .pending) := by
    rcases steps id next found with ⟨event, earlier, rfl | stepped⟩
    · exact ⟨next, earlier, rfl, rfl, fun pending => pending⟩
    · refine ⟨event, earlier, stepped.same_batch.1, stepped.same_batch.2, ?_⟩
      intro pending
      by_contra final
      rw [stepped.eq_of_final final] at pending
      exact final pending
  constructor
  · intro id next found pending
    rcases same found with ⟨event, earlier, sameUser, -, wasPending⟩
    rw [sameUser]
    exact rows.hooked id event earlier (wasPending pending)
  · intro id next found
    rcases same found with ⟨event, earlier, -, sameBatch, -⟩
    rw [sameBatch]
    exact rows.sealedBatch id event earlier
  · intro id other next later found foundLater equal
    rcases same found with ⟨event, earlier, -, sameBatch, -⟩
    rcases same foundLater with ⟨second, earlierSecond, -, sameSecond, -⟩
    rw [sameBatch, sameSecond] at equal
    exact rows.oneEvent id other event second earlier earlierSecond equal
  · intro id next found
    rcases same found with ⟨event, earlier, -⟩
    exact rows.drawn id event earlier
  · intro id next found
    rcases steps id next found with ⟨event, earlier, rfl | stepped⟩
    · exact rows.trailed id next earlier
    · exact (rows.trailed id event earlier).step stepped

theorem RowsSound.moveBatch {batchId : String} {job : BatchJob} (moved : Option BatchJob)
    (rows : RowsSound maxAttempts batches hooks events issued)
    (found : batches batchId = some job) (unsealed : job.phase ≠ .sealed) :
    RowsSound maxAttempts (Function.update batches batchId moved) hooks events issued := by
  refine ⟨rows.hooked, ?_, rows.oneEvent, rows.drawn, rows.trailed⟩
  intro id event isEvent
  rcases rows.sealedBatch id event isEvent with ⟨other, isJob, isSealed⟩
  have different : event.batchId ≠ batchId := by
    rintro rfl
    rw [found] at isJob
    cases isJob
    exact unsealed isSealed
  rw [Function.update_of_ne different]
  exact ⟨other, isJob, isSealed⟩

theorem RowsSound.concat {userId batchId : String} {moment : ℚ} (job : BatchJob)
    (rows : RowsSound maxAttempts batches hooks events issued) (hasHook : hooks userId ≠ none)
    (found : batches batchId = some job) (isSealed : job.phase = .sealed)
    (alone : ∀ id event, events id = some event → event.batchId ≠ batchId) :
    RowsSound maxAttempts batches hooks (Function.update events issued
        (some { userId := userId, batchId := batchId, nextAttemptAt := moment }))
      (issued + 1) := by
  have cases {id : ℕ} {next : WebhookEvent} (isNext : Function.update events issued
        (some { userId := userId, batchId := batchId, nextAttemptAt := moment }) id = some next) :
      id ≠ issued ∧ events id = some next ∨ id = issued ∧
          next = { userId := userId, batchId := batchId, nextAttemptAt := moment } := by
    by_cases fresh : id = issued
    · subst fresh
      rw [Function.update_self] at isNext
      exact Or.inr ⟨rfl, (Option.some.inj isNext).symm⟩
    · rw [Function.update_of_ne fresh] at isNext
      exact Or.inl ⟨fresh, isNext⟩
  constructor
  · intro id next isNext pending
    rcases cases isNext with ⟨-, earlier⟩ | ⟨-, rfl⟩
    · exact rows.hooked id next earlier pending
    · exact hasHook
  · intro id next isNext
    rcases cases isNext with ⟨-, earlier⟩ | ⟨-, rfl⟩
    · exact rows.sealedBatch id next earlier
    · exact ⟨job, found, isSealed⟩
  · intro id other next later isNext isLater equal
    rcases cases isNext with ⟨-, earlier⟩ | ⟨rfl, rfl⟩
    · rcases cases isLater with ⟨-, earlierLater⟩ | ⟨rfl, rfl⟩
      · exact rows.oneEvent id other next later earlier earlierLater equal
      · exact absurd equal (alone id next earlier)
    · rcases cases isLater with ⟨-, earlierLater⟩ | ⟨rfl, rfl⟩
      · exact absurd equal.symm (alone other later earlierLater)
      · rfl
  · intro id next isNext
    rcases cases isNext with ⟨-, earlier⟩ | ⟨rfl, -⟩
    · exact Nat.lt_succ_of_lt (rows.drawn id next earlier)
    · exact Nat.lt_succ_self id
  · intro id next isNext
    rcases cases isNext with ⟨-, earlier⟩ | ⟨-, rfl⟩
    · exact rows.trailed id next earlier
    · exact trailed_new

theorem RowsSound.setHook {userId : String} {hook : Webhook}
    (rows : RowsSound maxAttempts batches hooks events issued) :
    RowsSound maxAttempts batches (Function.update hooks userId (some hook)) events issued := by
  refine ⟨?_, rows.sealedBatch, rows.oneEvent, rows.drawn, rows.trailed⟩
  intro id event isEvent pending
  by_cases same : event.userId = userId
  · rw [same, Function.update_self]
    exact Option.some_ne_none hook
  · rw [Function.update_of_ne same]
    exact rows.hooked id event isEvent pending

end Rows

section Seals

variable {batches : Batches} {hooks : Hooks} {hookLocks batchLocks : String → Option ℕ}
  {seals : List Seal} {place : ℕ} {record : Seal} {batchId : String} {job : BatchJob}

theorem SealsSound.concat {target : Phase} {moment : ℚ} {enqueues : Bool}
    (sound : SealsSound batches hooks hookLocks batchLocks seals)
    (unlocked : batchLocks batchId = none) (found : batches batchId = some job)
    (unsealed : job.phase ≠ .sealed) (targeted : enqueues = true → target = .sealed) :
    SealsSound batches hooks hookLocks (Function.update batchLocks batchId (some seals.length))
      (seals ++ [⟨batchId, job.userId, target, moment, .moved enqueues⟩]) := by
  constructor
  · intro place record isRecord going
    rcases getElem?_concat_cases isRecord with earlier | ⟨rfl, rfl⟩
    · rcases sound.locked place record earlier going with ⟨locked, rest⟩
      have different : record.batchId ≠ batchId := by
        rintro rfl
        rw [unlocked] at locked
        cases locked
      rw [Function.update_of_ne different]
      exact ⟨locked, rest⟩
    · rw [Function.update_self]
      exact ⟨rfl, job, found, unsealed⟩
  · intro place record isRecord going enqueuing
    rcases getElem?_concat_cases isRecord with earlier | ⟨rfl, rfl⟩
    · exact sound.target place record earlier going enqueuing
    · cases enqueues with
      | true => exact targeted rfl
      | false => exact absurd rfl enqueuing
  · intro place record version enqueues isRecord isReady
    rcases getElem?_concat_cases isRecord with earlier | ⟨rfl, rfl⟩
    · exact sound.keyShared place record version enqueues earlier isReady
    · cases isReady
  · intro place record enqueues isRecord isReady
    rcases getElem?_concat_cases isRecord with earlier | ⟨rfl, rfl⟩
    · exact sound.unhooked place record enqueues earlier isReady
    · cases isReady

theorem SealsSound.setStage {stage : SealStage}
    (sound : SealsSound batches hooks hookLocks batchLocks seals)
    (found : seals[place]? = some record) (going : record.stage ≠ .ended)
    (target : record.stage ≠ .moved false)
    (keyShared : ∀ version enqueues, stage = .ready (some version) enqueues →
      hooks record.userId ≠ none ∧ hookLocks record.userId = none)
    (unhooked : ∀ enqueues, stage = .ready none enqueues → enqueues = false) :
    SealsSound batches hooks hookLocks batchLocks
      (seals.set place { record with stage := stage }) := by
  constructor
  · intro other next isNext goingOn
    rcases getElem?_set_cases found isNext with ⟨rfl, rfl⟩ | ⟨-, isNext⟩
    · exact sound.locked other record found going
    · exact sound.locked other next isNext goingOn
  · intro other next isNext goingOn enqueuing
    rcases getElem?_set_cases found isNext with ⟨rfl, rfl⟩ | ⟨-, isNext⟩
    · exact sound.target other record found going target
    · exact sound.target other next isNext goingOn enqueuing
  · intro other next version enqueues isNext isReady
    rcases getElem?_set_cases found isNext with ⟨rfl, rfl⟩ | ⟨-, isNext⟩
    · exact keyShared version enqueues isReady
    · exact sound.keyShared other next version enqueues isNext isReady
  · intro other next enqueues isNext isReady
    rcases getElem?_set_cases found isNext with ⟨rfl, rfl⟩ | ⟨-, isNext⟩
    · exact unhooked enqueues isReady
    · exact sound.unhooked other next enqueues isNext isReady

theorem SealsSound.close (moved : Option BatchJob)
    (sound : SealsSound batches hooks hookLocks batchLocks seals)
    (found : seals[place]? = some record) (going : record.stage ≠ .ended) :
    SealsSound (Function.update batches record.batchId moved) hooks hookLocks
      (Function.update batchLocks record.batchId none)
      (seals.set place { record with stage := .ended }) := by
  constructor
  · intro other next isNext goingOn
    rcases getElem?_set_cases found isNext with ⟨rfl, rfl⟩ | ⟨other_ne, isNext⟩
    · exact absurd rfl goingOn
    · have locked := sound.locked other next isNext goingOn
      have different : next.batchId ≠ record.batchId := by
        intro equal
        rw [equal, (sound.locked place record found going).1] at locked
        exact other_ne (Option.some.inj locked.1).symm
      rw [Function.update_of_ne different, Function.update_of_ne different]
      exact locked
  · intro other next isNext goingOn enqueuing
    rcases getElem?_set_cases found isNext with ⟨rfl, rfl⟩ | ⟨-, isNext⟩
    · exact absurd rfl goingOn
    · exact sound.target other next isNext goingOn enqueuing
  · intro other next version enqueues isNext isReady
    rcases getElem?_set_cases found isNext with ⟨rfl, rfl⟩ | ⟨-, isNext⟩
    · cases isReady
    · exact sound.keyShared other next version enqueues isNext isReady
  · intro other next enqueues isNext isReady
    rcases getElem?_set_cases found isNext with ⟨rfl, rfl⟩ | ⟨-, isNext⟩
    · cases isReady
    · exact sound.unhooked other next enqueues isNext isReady

theorem SealsSound.changeHooks {changed : Hooks} {locks : String → Option ℕ}
    (sound : SealsSound batches hooks hookLocks batchLocks seals)
    (keeps : ∀ (place : ℕ) (record : Seal) version enqueues, seals[place]? = some record →
      record.stage = .ready (some version) enqueues → hooks record.userId ≠ none →
      hookLocks record.userId = none → changed record.userId ≠ none ∧ locks record.userId = none) :
    SealsSound batches changed locks batchLocks seals := by
  refine ⟨sound.locked, sound.target, ?_, sound.unhooked⟩
  intro place record version enqueues isRecord isReady
  rcases sound.keyShared place record version enqueues isRecord isReady with ⟨hasHook, unlocked⟩
  exact keeps place record version enqueues isRecord isReady hasHook unlocked

end Seals

section Removals

variable {hookLocks : String → Option ℕ} {removals : List Removal} {events : Events}
  {rowLocks : ℕ → Option Holder} {place : ℕ} {record : Removal}

theorem RemovalsSound.concat {userId : String} {seen : Option ℕ}
    (sound : RemovalsSound hookLocks removals events rowLocks) :
    RemovalsSound hookLocks (removals ++ [⟨userId, .looking seen⟩]) events rowLocks := by
  constructor
  · intro place record isRecord hasHook
    rcases getElem?_concat_cases isRecord with earlier | ⟨rfl, rfl⟩
    · exact sound.took place record earlier hasHook
    · cases hasHook
  · intro place record left isRecord isRemoving
    rcases getElem?_concat_cases isRecord with earlier | ⟨rfl, rfl⟩
    · exact sound.left place record left earlier isRemoving
    · cases isRemoving

theorem RemovalsSound.setStage {stage : RemovalStage}
    (sound : RemovalsSound hookLocks removals events rowLocks)
    (found : removals[place]? = some record)
    (took : stage.hasHook = true → hookLocks record.userId = some place)
    (left : ∀ left, stage = .removing true left → ∀ id event, events id = some event →
      event.status = .pending → event.userId = record.userId →
      id ∈ left ∨ rowLocks id = some (.removal place)) :
    RemovalsSound hookLocks (removals.set place { record with stage := stage }) events
      rowLocks := by
  constructor
  · intro other next isNext hasHook
    rcases getElem?_set_cases found isNext with ⟨rfl, rfl⟩ | ⟨-, isNext⟩
    · exact took hasHook
    · exact sound.took other next isNext hasHook
  · intro other next before isNext isRemoving
    rcases getElem?_set_cases found isNext with ⟨rfl, rfl⟩ | ⟨-, isNext⟩
    · exact left before isRemoving
    · exact sound.left other next before isNext isRemoving

theorem RemovalsSound.change {locks : String → Option ℕ} {changed : Events}
    {rows : ℕ → Option Holder} (sound : RemovalsSound hookLocks removals events rowLocks)
    (took : ∀ (place : ℕ) (record : Removal), removals[place]? = some record →
      record.stage.hasHook = true →
      hookLocks record.userId = some place → locks record.userId = some place)
    (pending : ∀ (place : ℕ) (record : Removal) left, removals[place]? = some record →
      record.stage = .removing true left → ∀ id next, changed id = some next →
      next.status = .pending → next.userId = record.userId →
      ∃ event, events id = some event ∧ event.status = .pending ∧ event.userId = record.userId)
    (locked : ∀ (place : ℕ) (record : Removal) left, removals[place]? = some record →
      record.stage = .removing true left → ∀ id, rowLocks id = some (.removal place) →
      rows id = some (.removal place)) :
    RemovalsSound locks removals changed rows := by
  constructor
  · intro place record isRecord hasHook
    exact took place record isRecord hasHook (sound.took place record isRecord hasHook)
  · intro place record left isRecord isRemoving id next isNext isPending sameUser
    rcases pending place record left isRecord isRemoving id next isNext isPending sameUser with
      ⟨event, isEvent, wasPending, wasUser⟩
    rcases sound.left place record left isRecord isRemoving id event isEvent wasPending wasUser with
      ahead | isLocked
    · exact Or.inl ahead
    · exact Or.inr (locked place record left isRecord isRemoving id isLocked)

end Removals

end HybridInference.Webhooks
