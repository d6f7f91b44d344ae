import HybridInference.Batch.Refinement
import HybridInference.Library.Tally
import Mathlib.Tactic.Linarith

/-!
# Attempts, their ends and what they cost

Every claim of an item opens an attempt, fenced by the item's `attempt_seq`, and
the attempt is closed by its worker's report or abandoned when its lease ran
out. A heartbeat is two steps here, the check of the leases and the commit. In
between it holds the rows of its items and the claim locks of their models, so
a claim waits for it. A settlement does not: it reads the leases as committed,
abandons the attempts of those that ran out, and waits for a heartbeat's rows
only when it writes the items.

The transactions other than heartbeats are serialized by the batch's row lock
and are one step each, with the heartbeats that commit while they run. A cost
counts as stored, to eight decimals.
-/

namespace HybridInference.Batch

open Library

/-- A claim of an item, as `claim_items` returns it to its worker. -/
structure Claim where
  item : ℕ
  attempt : ℕ
  worker : String
  deriving DecidableEq

inductive ClosedBy where
  | complete
  | retry
  | release
  | abandon
  deriving DecidableEq

structure Closing where
  item : ℕ
  attempt : ℕ
  closedBy : ClosedBy
  deriving DecidableEq

structure Renewal where
  id : ℕ
  models : List String
  items : List ℕ
  expiresAt : ℚ
  deriving DecidableEq

def Attempt.claim (attempt : Attempt) : Claim :=
  { item := attempt.item, attempt := attempt.attemptNo, worker := attempt.worker }

namespace StoredBatch

def checkLeases (batch : StoredBatch) (id : ℕ) (worker : String) (ids : List ℕ)
    (now leaseSeconds : ℚ) : Renewal where
  id := id
  models := ids.filterMap fun index => batch.items[index]?.map Item.modelId
  items := ids.filter fun index => batch.items[index]?.any (Item.beats worker now)
  expiresAt := now + leaseSeconds

def renew (batch : StoredBatch) (renewal : Renewal) : StoredBatch :=
  batch.rewriteItems renewal.items (fun _ => true) fun item =>
    { item with leaseExpiresAt := some renewal.expiresAt }

/-- The batch as a transaction hands it to `_settle`, with the clock of the
transaction and the status it settles. -/
def handsOver (batch : StoredBatch) : Transaction → Option (StoredBatch × ℚ × BatchStatus)
  | .publishValidated worker now =>
    if (batch.job.workOwner = some worker ∧ batch.job.phase = .validating ∧
        batch.job.status = .validating ∧ !batch.job.deleteRequested) ∧
        !batch.published.hasOpenItems then
      some (batch.published, now, .inProgress)
    else none
  | .completeItem id worker attempt report now =>
    (batch.guardedItemWrite id worker attempt (Item.complete report)).map fun written =>
      (written.recordReport id attempt report, now, batch.job.status)
  | .retryItem id worker attempt report nextAttemptAt now =>
    (batch.guardedItemWrite id worker attempt (Item.retry report nextAttemptAt)).map
      fun written =>
        (written.recordAttempt id attempt .retry (report.cost report.retryBilling)
          report.retryBilling, now, batch.job.status)
  | .releaseItem id worker attempt nextAttemptAt dispatched now =>
    (batch.guardedItemWrite id worker attempt (Item.release nextAttemptAt dispatched)).map
      fun written =>
        (written.recordAttempt id attempt (if dispatched then .abandoned else .released) none
          (if dispatched then .unknown else .notBilled), now, batch.job.status)
  | .cancelBatch now =>
    if !batch.job.deleteRequested && batch.job.stoppable then
      some (batch.withStatus .cancelling, now, .cancelling)
    else none
  | .failBatch now =>
    if batch.job.stoppable then some (batch.withStatus .failed, now, .failed) else none
  | .sweepExpired now =>
    if batch.job.stoppable && batch.job.expiresAt.any (· ≤ now) then
      some (batch.withStatus .expired, now, .expired)
    else none
  | .sweepSettled now => some (batch, now, batch.job.status)
  | .stageItems _ _ _ | .resetStagedItems _ | .failValidation _ | .claimBatchWork _ _ _ _
  | .extendBatchWork _ _ _ _ | .claimItems _ _ _ _ _ | .heartbeat _ _ _ _
  | .markDispatched _ _ _ | .commitSeal _ _ | .pause _ | .requestDelete _ => none

/-- `_settle` passes a verdict on the open items. -/
def passesVerdict (batch : StoredBatch) (status : BatchStatus) : Bool :=
  batch.job.phase = .runnable && (itemVerdict status).isSome

def waitsFor (batch : StoredBatch) (now : ℚ) (status : BatchStatus) (renewal : Renewal) : Bool :=
  batch.passesVerdict status &&
    renewal.items.any fun index => batch.items[index]?.any (Item.leaseRanOut now)

/-- `passVerdict`, with the heartbeats that commit after it has read the leases. -/
def passVerdictAmid (batch : StoredBatch) (now : ℚ) (status : BatchStatus)
    (meanwhile : List Renewal) : StoredBatch :=
  match itemVerdict status with
  | none => meanwhile.foldl renew batch
  | some (itemStatus, error) =>
    let abandoned := meanwhile.foldl renew
      (batch.abandonAttempts (batch.attemptsOf (Item.leaseRanOut now)))
    let settled := abandoned.items.countP (Item.settles now)
    let settledBatch := abandoned.settleItems now itemStatus error
    { settledBatch with job := countSettled settledBatch.job status settled }

/-- `settle`, with the heartbeats that commit after it has read the leases. -/
def settleAmid (batch : StoredBatch) (now : ℚ) (status : BatchStatus)
    (meanwhile : List Renewal) : StoredBatch :=
  if batch.job.phase ≠ .runnable then meanwhile.foldl renew batch
  else
    let settled := batch.passVerdictAmid now status meanwhile
    match finalStatus status with
    | none => settled
    | some final =>
      if settled.hasOpenItems then settled
      else if (status = .failed || status = .expired) && batch.job.schemaVersion < 2 then settled
      else settled.finalize final

/-- The attempts `_abandon_attempts` closes. -/
def abandons (stale : List (ℕ × ℕ)) (attempt : Attempt) : Bool :=
  attempt.outcome = none && stale.contains (attempt.item, attempt.attemptNo)

def abandonedBy (batch : StoredBatch) (stale : List (ℕ × ℕ)) : List Closing :=
  (batch.attempts.filter (abandons stale)).map fun attempt =>
    { item := attempt.item, attempt := attempt.attemptNo, closedBy := .abandon }

def takenBack (batch : StoredBatch) (model : String) (ids : List ℕ) (now : ℚ) : List (ℕ × ℕ) :=
  ((batch.claimedItems model ids now).filter fun entry => entry.1.leaseRanOut now).map
    fun entry => (entry.2, entry.1.attemptSeq)

/-- What `claim_items` returns of this batch. -/
def claimsOf (batch : StoredBatch) : Transaction → List Claim
  | .claimItems worker model ids now _ =>
    if batch.job.claimable now then
      ((batch.abandonAttempts (batch.takenBack model ids now)).claimedItems model ids now).map
        fun entry => { item := entry.2, attempt := entry.1.attemptSeq + 1, worker := worker }
    else []
  | _ => []

def reportOf (batch : StoredBatch) : Transaction → List Closing
  | .completeItem id worker attempt report _ =>
    if (batch.guardedItemWrite id worker attempt (Item.complete report)).isSome then
      [{ item := id, attempt := attempt, closedBy := .complete }]
    else []
  | .retryItem id worker attempt report nextAttemptAt _ =>
    if (batch.guardedItemWrite id worker attempt (Item.retry report nextAttemptAt)).isSome then
      [{ item := id, attempt := attempt, closedBy := .retry }]
    else []
  | .releaseItem id worker attempt nextAttemptAt dispatched _ =>
    if (batch.guardedItemWrite id worker attempt
        (Item.release nextAttemptAt dispatched)).isSome then
      [{ item := id, attempt := attempt, closedBy := .release }]
    else []
  | _ => []

def abandonedIn (batch : StoredBatch) : Transaction → List Closing
  | .claimItems _ model ids now _ =>
    if batch.job.claimable now then batch.abandonedBy (batch.takenBack model ids now) else []
  | transaction =>
    match batch.handsOver transaction with
    | none => []
    | some (handed, now, status) =>
      if handed.passesVerdict status then
        handed.abandonedBy (handed.attemptsOf (Item.leaseRanOut now))
      else []

end StoredBatch

namespace Transaction

def claims : Transaction → Bool
  | .claimItems _ _ _ _ _ => true
  | _ => false

def beats : Transaction → Bool
  | .heartbeat _ _ _ _ => true
  | _ => false

def dispatches : Transaction → Bool
  | .markDispatched _ _ _ => true
  | _ => false

end Transaction

structure FencedBatch where
  batch : StoredBatch
  renewals : List Renewal := []
  claims : List Claim := []
  closings : List Closing := []

inductive FencedEvent where
  | checkLeases (id : ℕ) (worker : String) (ids : List ℕ) (now leaseSeconds : ℚ)
  | commitHeartbeat (id : ℕ)
  | rollBackHeartbeat (id : ℕ)
  | transact (transaction : Transaction) (meanwhile : List ℕ)

namespace FencedBatch

def waits (fenced : FencedBatch) : Transaction → Bool
  | .claimItems _ model _ _ _ =>
    fenced.renewals.any fun renewal => renewal.models.contains model
  | .completeItem id _ _ _ _ | .retryItem id _ _ _ _ _ | .releaseItem id _ _ _ _ _ =>
    fenced.renewals.any fun renewal => renewal.items.contains id
  | .heartbeat _ _ _ _ => true
  | _ => false

def committing (fenced : FencedBatch) (meanwhile : List ℕ) : List Renewal :=
  fenced.renewals.filter fun renewal => meanwhile.contains renewal.id

def others (fenced : FencedBatch) (meanwhile : List ℕ) : List Renewal :=
  fenced.renewals.filter fun renewal => !meanwhile.contains renewal.id

def transact (fenced : FencedBatch) (transaction : Transaction) (meanwhile : List ℕ) :
    Option FencedBatch :=
  if fenced.waits transaction then none
  else
    let batch := fenced.batch
    match batch.handsOver transaction with
    | none =>
      if meanwhile = [] then
        some
          { batch := batch.after transaction
            renewals := fenced.renewals
            claims := fenced.claims ++ batch.claimsOf transaction
            closings := fenced.closings ++ batch.abandonedIn transaction }
      else none
    | some (handed, now, status) =>
      if (fenced.others meanwhile).any (handed.waitsFor now status) then none
      else
        some
          { batch := handed.settleAmid now status (fenced.committing meanwhile)
            renewals := fenced.others meanwhile
            claims := fenced.claims
            closings :=
              fenced.closings ++ batch.reportOf transaction ++ batch.abandonedIn transaction }

def step (fenced : FencedBatch) : FencedEvent → Option FencedBatch
  | .checkLeases id worker ids now leaseSeconds =>
    let renewal := fenced.batch.checkLeases id worker ids now leaseSeconds
    if fenced.renewals.any fun other =>
        other.id = id || other.models.any renewal.models.contains then none
    else some { fenced with renewals := renewal :: fenced.renewals }
  | .commitHeartbeat id =>
    some
      { fenced with
        batch := (fenced.committing [id]).foldl StoredBatch.renew fenced.batch
        renewals := fenced.others [id] }
  | .rollBackHeartbeat id => some { fenced with renewals := fenced.others [id] }
  | .transact transaction meanwhile => fenced.transact transaction meanwhile

end FencedBatch

def fencedMachine : Machine FencedBatch FencedEvent where
  step := FencedBatch.step

namespace StoredBatch

def claims (batch : StoredBatch) : List Claim :=
  batch.attempts.map Attempt.claim

/-- The attempts of an item are numbered in the order of its claims, up to the
item's `attempt_seq`. -/
structure Numbered (batch : StoredBatch) : Prop where
  staged : batch.job.phase = .validating → batch.claims = []
  placed : ∀ claim ∈ batch.claims,
    ∃ item, batch.items[claim.item]? = some item ∧ claim.attempt ≤ item.attemptSeq
  ordered : batch.claims.Pairwise fun earlier later =>
    earlier.item = later.item → earlier.attempt < later.attempt

/-- The attempt of every running item is open, up to the items excused; what the
closed attempts were billed is what the batch adds up, and each was closed by
one transaction. -/
structure Billed (batch : StoredBatch) (excused : ℕ → Prop) (closings : List Closing) : Prop where
  running : ∀ (index : ℕ) (item : Item), batch.items[index]? = some item → item.status = .running →
    ¬ excused index → ∃ row ∈ batch.attempts,
      row.item = index ∧ row.attemptNo = item.attemptSeq ∧ row.outcome = none
  unbilled : ∀ row ∈ batch.attempts, row.outcome = none → row.costUsd = none ∧ row.costStatus = none
  cost : batch.job.costUsd = tally (fun row => row.costUsd.getD 0) batch.attempts
  unknown : batch.job.unknownCostCount =
    batch.attempts.countP fun row => row.costStatus = some .unknown
  unclosed : ∀ row ∈ batch.attempts, row.outcome = none →
    ∀ closing ∈ closings, (closing.item, closing.attempt) ≠ (row.item, row.attemptNo)
  recorded : ∀ closing ∈ closings, ∃ row ∈ batch.attempts,
    row.item = closing.item ∧ row.attemptNo = closing.attempt
  once : closings.Pairwise fun earlier later =>
    (earlier.item, earlier.attempt) ≠ (later.item, later.attempt)

structure Scope where
  ended : ℕ → Prop
  renewed : ℕ → Prop
  cleared : Prop

def Scope.nothing : Scope where
  ended _ := False
  renewed _ := False
  cleared := False

def Scope.reporting (reports : List Closing) : Scope where
  ended index := ∃ report ∈ reports, report.item = index
  renewed _ := False
  cleared := False

def Scope.renewing (renewals : List Renewal) : Scope where
  ended _ := False
  renewed index := ∃ renewal ∈ renewals, index ∈ renewal.items
  cleared := False

def Scope.clearing : Scope where
  ended _ := False
  renewed _ := False
  cleared := True

def scopeOf : Transaction → Scope
  | .resetStagedItems _ | .failValidation _ => .clearing
  | _ => .nothing

structure Stands (scope : Scope) (index : ℕ) (item later : Item) : Prop where
  modelId : later.modelId = item.modelId
  attemptSeq : later.attemptSeq = item.attemptSeq
  running : later.status = .running → item.status = .running
  leased : later.status = .running → later.leaseExpiresAt = item.leaseExpiresAt ∨
    scope.renewed index
  queued : later.status = .queued → item.status = .queued ∨ scope.ended index

/-- A write after which every item stands within a scope, and no other runs. -/
structure Rests (scope : Scope) (before after : StoredBatch) : Prop where
  phase : after.job.phase = .validating → before.job.phase = .validating
  kept : ∀ (index : ℕ) (item : Item), before.items[index]? = some item →
    scope.cleared ∧ before.job.phase = .validating ∨
      ∃ later, after.items[index]? = some later ∧ Stands scope index item later
  running : ∀ (index : ℕ) (later : Item), after.items[index]? = some later →
    later.status = .running →
      ∃ item, before.items[index]? = some item ∧ Stands scope index item later

structure Quiet (scope : Scope) (before after : StoredBatch) : Prop
    extends Rests scope before after where
  attempts : after.attempts = before.attempts
  cost : after.job.costUsd = before.job.costUsd
  unknown : after.job.unknownCostCount = before.job.unknownCostCount

theorem Stands.refl (scope : Scope) (index : ℕ) (item : Item) : Stands scope index item item :=
  ⟨rfl, rfl, id, fun _ => Or.inl rfl, Or.inl⟩

theorem Stands.trans {scope : Scope} {index : ℕ} {item middle later : Item}
    (earlier : Stands scope index item middle) (next : Stands scope index middle later) :
    Stands scope index item later where
  modelId := next.modelId.trans earlier.modelId
  attemptSeq := next.attemptSeq.trans earlier.attemptSeq
  running runs := earlier.running (next.running runs)
  leased := by
    intro runs
    rcases next.leased runs with same | renewed
    · rcases earlier.leased (next.running runs) with sameBefore | renewed
      · exact Or.inl (same.trans sameBefore)
      · exact Or.inr renewed
    · exact Or.inr renewed
  queued := by
    intro waits
    rcases next.queued waits with waited | ended
    · exact earlier.queued waited
    · exact Or.inr ended

def Scope.Within (narrow wide : Scope) : Prop :=
  (∀ index, narrow.ended index → wide.ended index) ∧
    (∀ index, narrow.renewed index → wide.renewed index) ∧ (narrow.cleared → wide.cleared)

theorem Scope.nothing_within (wide : Scope) : Scope.nothing.Within wide :=
  ⟨fun _ => False.elim, fun _ => False.elim, False.elim⟩

theorem Stands.widen {narrow wide : Scope} {index : ℕ} {item later : Item}
    (stands : Stands narrow index item later) (within : narrow.Within wide) :
    Stands wide index item later :=
  ⟨stands.modelId, stands.attemptSeq, stands.running,
    fun runs => (stands.leased runs).imp_right (within.2.1 index),
    fun waits => (stands.queued waits).imp_right (within.1 index)⟩

namespace Rests

variable {scope wide : Scope} {first second third before after : StoredBatch}

theorem widen (rests : Rests scope before after) (within : scope.Within wide) :
    Rests wide before after where
  phase := rests.phase
  kept := by
    intro index item found
    rcases rests.kept index item found with ⟨cleared, validating⟩ | ⟨later, foundLater, stands⟩
    · exact Or.inl ⟨within.2.2 cleared, validating⟩
    · exact Or.inr ⟨later, foundLater, stands.widen within⟩
  running := by
    intro index later found runs
    rcases rests.running index later found runs with ⟨item, foundItem, stands⟩
    exact ⟨item, foundItem, stands.widen within⟩

theorem trans (earlier : Rests scope first second) (later : Rests scope second third) :
    Rests scope first third where
  phase validating := earlier.phase (later.phase validating)
  kept := by
    intro index item found
    rcases earlier.kept index item found with cleared | ⟨middle, foundMiddle, stands⟩
    · exact Or.inl cleared
    · rcases later.kept index middle foundMiddle with
        ⟨cleared, validating⟩ | ⟨last, foundLast, still⟩
      · exact Or.inl ⟨cleared, earlier.phase validating⟩
      · exact Or.inr ⟨last, foundLast, stands.trans still⟩
  running := by
    intro index last found runs
    rcases later.running index last found runs with ⟨middle, foundMiddle, still⟩
    rcases earlier.running index middle foundMiddle (still.running runs) with
      ⟨item, foundItem, stands⟩
    exact ⟨item, foundItem, stands.trans still⟩

theorem of_rewritten (rewrite : ℕ → Item → Item)
    (phase : after.job.phase = .validating → before.job.phase = .validating)
    (items : ∀ index : ℕ, after.items[index]? = before.items[index]?.map (rewrite index))
    (stands : ∀ index item, Stands scope index item (rewrite index item)) :
    Rests scope before after where
  phase := phase
  kept := by
    intro index item found
    refine Or.inr ⟨rewrite index item, ?_, stands index item⟩
    rw [items, found, Option.map_some]
  running := by
    intro index later found _
    rw [items, Option.map_eq_some_iff] at found
    rcases found with ⟨item, foundItem, rfl⟩
    exact ⟨item, foundItem, stands index item⟩

theorem of_items (items : after.items = before.items)
    (phase : after.job.phase = .validating → before.job.phase = .validating) :
    Rests scope before after := by
  refine of_rewritten (fun _ item => item) phase ?_ fun index item => .refl scope index item
  intro index
  rw [items, Option.map_id']

end Rests

/-- Numbered claims stay numbered while the items keep their attempts. -/
theorem Numbered.of_kept {before after : StoredBatch} (numbered : before.Numbered)
    (claims : after.claims = before.claims)
    (phase : after.job.phase = .validating → before.job.phase = .validating)
    (kept : ∀ claim ∈ before.claims, ∀ item, before.items[claim.item]? = some item →
      ∃ later, after.items[claim.item]? = some later ∧ later.attemptSeq = item.attemptSeq) :
    after.Numbered where
  staged validating := claims.trans (numbered.staged (phase validating))
  placed := by
    intro claim member
    rw [claims] at member
    rcases numbered.placed claim member with ⟨item, found, le⟩
    rcases kept claim member item found with ⟨later, foundLater, same⟩
    exact ⟨later, foundLater, same ▸ le⟩
  ordered := by
    rw [claims]
    exact numbered.ordered

theorem Numbered.rows_ordered {batch : StoredBatch} (numbered : batch.Numbered) :
    batch.attempts.Pairwise fun earlier later =>
      earlier.item = later.item → earlier.attemptNo < later.attemptNo :=
  List.pairwise_map.mp numbered.ordered

namespace Quiet

variable {scope wide : Scope} {first second third before after : StoredBatch}

theorem claims (quiet : Quiet scope before after) : after.claims = before.claims := by
  simp only [StoredBatch.claims, quiet.attempts]

theorem widen (quiet : Quiet scope before after) (within : scope.Within wide) :
    Quiet wide before after :=
  ⟨quiet.toRests.widen within, quiet.attempts, quiet.cost, quiet.unknown⟩

theorem trans (earlier : Quiet scope first second) (later : Quiet scope second third) :
    Quiet scope first third :=
  ⟨earlier.toRests.trans later.toRests, later.attempts.trans earlier.attempts,
    later.cost.trans earlier.cost, later.unknown.trans earlier.unknown⟩

theorem of_job (attempts : after.attempts = before.attempts) (items : after.items = before.items)
    (cost : after.job.costUsd = before.job.costUsd)
    (unknown : after.job.unknownCostCount = before.job.unknownCostCount)
    (phase : after.job.phase = .validating → before.job.phase = .validating) :
    Quiet scope before after :=
  ⟨.of_items items phase, attempts, cost, unknown⟩

theorem refl (batch : StoredBatch) : Quiet scope batch batch :=
  of_job rfl rfl rfl rfl id

theorem numbered (quiet : Quiet scope before after) (numbered : before.Numbered) :
    after.Numbered := by
  apply numbered.of_kept quiet.claims quiet.phase
  intro claim member item found
  rcases quiet.kept claim.item item found with ⟨-, validating⟩ | ⟨later, foundLater, stands⟩
  · rw [numbered.staged validating] at member
    cases member
  · exact ⟨later, foundLater, stands.attemptSeq⟩

theorem billed {excused : ℕ → Prop} {closings : List Closing} (quiet : Quiet scope before after)
    (billed : before.Billed excused closings)
    (gone : ∀ (index : ℕ) (later : Item), after.items[index]? = some later →
      later.status = .running → ¬ excused index) : after.Billed (fun _ => False) closings where
  running := by
    intro index later found runs _
    rcases quiet.running index later found runs with ⟨item, foundItem, stands⟩
    rcases billed.running index item foundItem (stands.running runs)
      (gone index later found runs) with ⟨row, member, itsItem, itsNumber, isOpen⟩
    have number := itsNumber.trans stands.attemptSeq.symm
    exact ⟨row, quiet.attempts ▸ member, itsItem, number, isOpen⟩
  unbilled := by
    rw [quiet.attempts]
    exact billed.unbilled
  cost := by
    rw [quiet.attempts, quiet.cost]
    exact billed.cost
  unknown := by
    rw [quiet.attempts, quiet.unknown]
    exact billed.unknown
  unclosed := by
    rw [quiet.attempts]
    exact billed.unclosed
  recorded := by
    rw [quiet.attempts]
    exact billed.recorded
  once := billed.once

end Quiet

theorem claims_map {rows : List Attempt} {change : Attempt → Attempt}
    (same : ∀ row, (change row).claim = row.claim) :
    (rows.map change).map Attempt.claim = rows.map Attempt.claim := by
  rw [List.map_map]
  apply List.map_congr_left
  intro row _
  exact same row

section Abandon

variable {batch : StoredBatch} {stale : List (ℕ × ℕ)} {closings : List Closing}

theorem abandonAttempts_attempts (batch : StoredBatch) (stale : List (ℕ × ℕ)) :
    (batch.abandonAttempts stale).attempts =
      batch.attempts.map fun row => if abandons stale row then abandonAttempt row else row := rfl

theorem abandonAttempts_unknown (batch : StoredBatch) (stale : List (ℕ × ℕ)) :
    (batch.abandonAttempts stale).job.unknownCostCount = batch.job.unknownCostCount +
      batch.attempts.countP fun row => abandons stale row && row.dispatched := by
  simp only [abandonAttempts, List.length_map, ← List.countP_eq_length_filter]
  rfl

theorem abandonAttempts_item {index : ℕ} {later : Item}
    (found : (batch.abandonAttempts stale).items[index]? = some later) :
    ∃ item costStatus, batch.items[index]? = some item ∧
      later = { item with costStatus := costStatus } := by
  simp only [abandonAttempts, List.getElem?_mapIdx, Option.map_eq_some_iff] at found
  rcases found with ⟨item, foundItem, rfl⟩
  split_ifs
  · exact ⟨item, some .unknown, foundItem, rfl⟩
  · exact ⟨item, item.costStatus, foundItem, rfl⟩

theorem abandonAttempts_item_of_some (stale : List (ℕ × ℕ)) {index : ℕ} {item : Item}
    (found : batch.items[index]? = some item) :
    ∃ costStatus, (batch.abandonAttempts stale).items[index]? =
      some { item with costStatus := costStatus } := by
  simp only [abandonAttempts, List.getElem?_mapIdx, found, Option.map_some]
  split_ifs
  · exact ⟨some .unknown, rfl⟩
  · exact ⟨item.costStatus, rfl⟩

theorem abandonAttempts_claims (batch : StoredBatch) (stale : List (ℕ × ℕ)) :
    (batch.abandonAttempts stale).claims = batch.claims := by
  apply claims_map
  intro row
  split_ifs <;> rfl

theorem Numbered.abandonAttempts (numbered : batch.Numbered) (stale : List (ℕ × ℕ)) :
    (batch.abandonAttempts stale).Numbered := by
  apply numbered.of_kept (abandonAttempts_claims batch stale) id
  intro claim _ item found
  rcases abandonAttempts_item_of_some stale found with ⟨costStatus, foundLater⟩
  exact ⟨_, foundLater, rfl⟩

theorem Billed.abandonAttempts (numbered : batch.Numbered)
    (billed : batch.Billed (fun _ => False) closings) (stale : List (ℕ × ℕ)) :
    (batch.abandonAttempts stale).Billed (fun index => ∃ number, (index, number) ∈ stale)
      (closings ++ batch.abandonedBy stale) := by
  have openRow (row : Attempt) (member : row ∈ (batch.abandonAttempts stale).attempts)
      (isOpen : row.outcome = none) :
      row ∈ batch.attempts ∧ (row.item, row.attemptNo) ∉ stale := by
    rw [abandonAttempts_attempts, List.mem_map] at member
    rcases member with ⟨old, oldMember, rfl⟩
    by_cases closed : abandons stale old = true
    · rw [if_pos closed] at isOpen
      cases isOpen
    · rw [if_neg closed] at isOpen ⊢
      refine ⟨oldMember, fun isStale => closed ?_⟩
      simp [abandons, isOpen, isStale]
  refine ⟨?_, ?_, ?_, ?_, ?_, ?_, ?_⟩
  · intro index later found running notExcused
    rcases abandonAttempts_item found with ⟨item, costStatus, foundItem, rfl⟩
    rcases billed.running index item foundItem running id with
      ⟨row, member, itsItem, itsNumber, isOpen⟩
    refine ⟨row, ?_, itsItem, itsNumber, isOpen⟩
    rw [abandonAttempts_attempts, List.mem_map]
    refine ⟨row, member, if_neg ?_⟩
    intro closed
    simp only [abandons, Bool.and_eq_true, List.contains_iff_mem] at closed
    exact notExcused ⟨row.attemptNo, itsItem ▸ closed.2⟩
  · intro row member isOpen
    exact billed.unbilled row (openRow row member isOpen).1 isOpen
  · change batch.job.costUsd = _
    rw [billed.cost, abandonAttempts_attempts, tally_map]
    apply tally_congr
    intro row _
    split_ifs <;> rfl
  · rw [abandonAttempts_unknown, billed.unknown, abandonAttempts_attempts, List.countP_map]
    symm
    apply countP_eq_add
    intro row member
    simp only [Function.comp_apply]
    by_cases closed : abandons stale row = true
    · have isOpen : row.outcome = none := by
        simp only [abandons, Bool.and_eq_true, decide_eq_true_eq] at closed
        exact closed.1
      have nothing := (billed.unbilled row member isOpen).2
      cases dispatched : row.dispatched <;> simp [closed, dispatched, nothing, abandonAttempt]
    · simp [closed]
  · intro row member isOpen closing closingMember
    rcases openRow row member isOpen with ⟨wasMember, notStale⟩
    rcases List.mem_append.mp closingMember with earlier | fresh
    · exact billed.unclosed row wasMember isOpen closing earlier
    · simp only [abandonedBy, List.mem_map, List.mem_filter] at fresh
      rcases fresh with ⟨closed, ⟨-, abandoned⟩, rfl⟩
      intro same
      simp only [abandons, Bool.and_eq_true, List.contains_iff_mem] at abandoned
      exact notStale (same ▸ abandoned.2)
  · intro closing member
    have recorded : ∃ row ∈ batch.attempts,
        row.item = closing.item ∧ row.attemptNo = closing.attempt := by
      rcases List.mem_append.mp member with earlier | fresh
      · exact billed.recorded closing earlier
      · simp only [abandonedBy, List.mem_map, List.mem_filter] at fresh
        rcases fresh with ⟨row, ⟨rowMember, -⟩, rfl⟩
        exact ⟨row, rowMember, rfl, rfl⟩
    rcases recorded with ⟨row, rowMember, itsItem, itsNumber⟩
    refine ⟨_, List.mem_map_of_mem rowMember, ?_⟩
    split_ifs <;> exact ⟨itsItem, itsNumber⟩
  · apply List.pairwise_append.mpr
    refine ⟨billed.once, ?_, ?_⟩
    · apply List.pairwise_map.mpr
      apply (numbered.rows_ordered.filter (abandons stale)).imp
      intro earlier later increases same
      have sameItem : earlier.item = later.item := congrArg Prod.fst same
      have sameNumber : earlier.attemptNo = later.attemptNo := congrArg Prod.snd same
      exact (increases sameItem).ne sameNumber
    · intro earlier earlierMember later laterMember
      simp only [abandonedBy, List.mem_map, List.mem_filter] at laterMember
      rcases laterMember with ⟨row, ⟨rowMember, abandoned⟩, rfl⟩
      simp only [abandons, Bool.and_eq_true, decide_eq_true_eq] at abandoned
      exact billed.unclosed row rowMember abandoned.1 earlier earlierMember

end Abandon

section Report

variable {batch : StoredBatch} {id attempt : ℕ} {item later : Item} {closings : List Closing}
  {outcome : AttemptOutcome} {cost : Option ℚ} {billing : CostStatus}

theorem guardedItemWrite_cases {written : StoredBatch} {worker : String} {rewrite : Item → Item}
    (guarded : batch.guardedItemWrite id worker attempt rewrite = some written) :
    ∃ item, batch.items[id]? = some item ∧ item.status = .running ∧ item.attemptSeq = attempt ∧
      written = { batch with items := batch.items.set id (rewrite item) } := by
  unfold guardedItemWrite at guarded
  split at guarded
  · cases guarded
  · next item found =>
    split_ifs at guarded with holds
    cases guarded
    simp only [Item.guarded, Bool.and_eq_true, decide_eq_true_eq] at holds
    exact ⟨item, found, holds.1.1, holds.2, rfl⟩

theorem closeAttempt_split (numbered : batch.Numbered) {row : Attempt}
    (member : row ∈ batch.attempts) (itsItem : row.item = id) (itsNumber : row.attemptNo = attempt)
    (isOpen : row.outcome = none) :
    ∃ left right, batch.attempts = left ++ row :: right ∧
      (batch.closeAttempt id attempt outcome cost billing).attempts =
        left ++ { row with
          outcome := some outcome, costUsd := cost, costStatus := some billing } :: right ∧
      ∀ other ∈ left ++ right, (id, attempt) ≠ (other.item, other.attemptNo) := by
  have alone : batch.attempts.Pairwise fun earlier later =>
      ¬ ((id, attempt) = (earlier.item, earlier.attemptNo) ∧
        (id, attempt) = (later.item, later.attemptNo)) := by
    apply numbered.rows_ordered.imp
    intro earlier later increases both
    have same := both.1.symm.trans both.2
    exact (increases (congrArg Prod.fst same)).ne (congrArg Prod.snd same)
  rcases exists_split_of_pairwise alone member (by rw [itsItem, itsNumber]) with
    ⟨left, right, split, notLeft, notRight⟩
  have unchanged (other : Attempt) (differs : (id, attempt) ≠ (other.item, other.attemptNo)) :
      (if other.item = id ∧ other.attemptNo = attempt ∧ other.outcome = none then
        { other with outcome := some outcome, costUsd := cost, costStatus := some billing }
      else other) = other :=
    if_neg fun same => differs (by rw [same.1, same.2.1])
  refine ⟨left, right, split, ?_, ?_⟩
  · simp only [closeAttempt, split, List.map_append, List.map_cons]
    rw [List.map_congr_left fun other inLeft => unchanged other (notLeft other inLeft),
      List.map_congr_left fun other inRight => unchanged other (notRight other inRight),
      if_pos ⟨itsItem, itsNumber, isOpen⟩, List.map_id', List.map_id']
  · intro other otherMember
    rcases List.mem_append.mp otherMember with inLeft | inRight
    · exact notLeft other inLeft
    · exact notRight other inRight

theorem recordAttempt_claims (batch : StoredBatch) (id attempt : ℕ) (outcome : AttemptOutcome)
    (cost : Option ℚ) (billing : CostStatus) :
    (batch.recordAttempt id attempt outcome cost billing).claims = batch.claims := by
  apply claims_map
  intro row
  split_ifs <;> rfl

theorem Numbered.recordAttempt (numbered : batch.Numbered) :
    (batch.recordAttempt id attempt outcome cost billing).Numbered := by
  apply numbered.of_kept (recordAttempt_claims batch id attempt outcome cost billing)
  · exact fun validating => validating
  · exact fun _ _ item found => ⟨item, found, rfl⟩

theorem Billed.recordAttempt (numbered : batch.Numbered)
    (billed : batch.Billed (fun _ => False) closings) {row : Attempt}
    (member : row ∈ batch.attempts) (itsItem : row.item = id) (itsNumber : row.attemptNo = attempt)
    (isOpen : row.outcome = none)
    (stopped : ∀ item, batch.items[id]? = some item → item.status ≠ .running)
    (closedBy : ClosedBy) :
    (batch.recordAttempt id attempt outcome cost billing).Billed (fun _ => False)
      (closings ++ [{ item := id, attempt := attempt, closedBy := closedBy }]) := by
  have splits : ∃ left right, batch.attempts = left ++ row :: right ∧
      (batch.recordAttempt id attempt outcome cost billing).attempts =
        left ++ { row with
          outcome := some outcome, costUsd := cost, costStatus := some billing } :: right ∧
      ∀ other ∈ left ++ right, (id, attempt) ≠ (other.item, other.attemptNo) :=
    closeAttempt_split numbered member itsItem itsNumber isOpen
  rcases splits with ⟨left, right, split, closed, others⟩
  have unbilled := billed.unbilled row member isOpen
  have kept (other : Attempt) (among : other ∈ left ++ right) : other ∈ batch.attempts ∧
        other ∈ (batch.recordAttempt id attempt outcome cost billing).attempts := by
    rw [split, closed]
    rcases List.mem_append.mp among with inLeft | inRight
    · simp [inLeft]
    · simp [inRight]
  have isOther (other : Attempt)
      (otherMember : other ∈ (batch.recordAttempt id attempt outcome cost billing).attempts)
      (otherOpen : other.outcome = none) : other ∈ left ++ right := by
    rw [closed] at otherMember
    rcases List.mem_append.mp otherMember with inLeft | inRest
    · exact List.mem_append_left _ inLeft
    · rcases List.mem_cons.mp inRest with rfl | inRight
      · cases otherOpen
      · exact List.mem_append_right _ inRight
  have rowOrOther (other : Attempt) (otherMember : other ∈ batch.attempts) :
      other = row ∨ other ∈ left ++ right := by
    rw [split] at otherMember
    rcases List.mem_append.mp otherMember with inLeft | inRest
    · exact Or.inr (List.mem_append_left _ inLeft)
    · rcases List.mem_cons.mp inRest with same | inRight
      · exact Or.inl same
      · exact Or.inr (List.mem_append_right _ inRight)
  refine ⟨?_, ?_, ?_, ?_, ?_, ?_, ?_⟩
  · intro index item found running _
    rcases billed.running index item found running (fun excused => excused) with
      ⟨other, otherMember, otherItem, otherNumber, otherOpen⟩
    rcases rowOrOther other otherMember with rfl | among
    · have here : index = id := otherItem.symm.trans itsItem
      subst here
      exact absurd running (stopped item found)
    · exact ⟨other, (kept other among).2, otherItem, otherNumber, otherOpen⟩
  · intro other otherMember otherOpen
    exact billed.unbilled other (kept other (isOther other otherMember otherOpen)).1 otherOpen
  · change batch.job.costUsd + cost.getD 0 = _
    rw [closed, billed.cost, split]
    simp only [tally_append, tally_cons, unbilled.1, Option.getD_none]
    linarith
  · change batch.job.unknownCostCount + (if billing = .unknown then 1 else 0) = _
    rw [closed, billed.unknown, split]
    simp only [List.countP_append, List.countP_cons, unbilled.2, Option.some.injEq,
      decide_eq_true_eq, reduceCtorEq, if_false]
    omega
  · intro other otherMember otherOpen closing closingMember
    have among := isOther other otherMember otherOpen
    rcases List.mem_append.mp closingMember with earlier | fresh
    · exact billed.unclosed other (kept other among).1 otherOpen closing earlier
    · cases List.mem_singleton.mp fresh
      exact others other among
  · intro closing closingMember
    have itself : ∃ other ∈ (batch.recordAttempt id attempt outcome cost billing).attempts,
        other.item = id ∧ other.attemptNo = attempt := by
      rw [closed]
      exact ⟨_, List.mem_append_right _ (List.mem_cons_self ..), itsItem, itsNumber⟩
    rcases List.mem_append.mp closingMember with earlier | fresh
    · rcases billed.recorded closing earlier with ⟨other, otherMember, otherItem, otherNumber⟩
      rcases rowOrOther other otherMember with rfl | among
      · rw [← otherItem, ← otherNumber, itsItem, itsNumber]
        exact itself
      · exact ⟨other, (kept other among).2, otherItem, otherNumber⟩
    · cases List.mem_singleton.mp fresh
      exact itself
  · apply List.pairwise_append.mpr
    refine ⟨billed.once, List.pairwise_singleton _ _, ?_⟩
    intro earlier earlierMember last lastMember
    cases List.mem_singleton.mp lastMember
    have apart := billed.unclosed row member isOpen earlier earlierMember
    rw [itsItem, itsNumber] at apart
    exact apart

end Report

section Claim

variable {batch : StoredBatch} {worker model : String} {ids : List ℕ} {now leaseSeconds : ℚ}

def takes (model : String) (ids : List ℕ) (now : ℚ) (index : ℕ) (item : Item) : Bool :=
  ids.contains index && (item.modelId = model && item.claimable now)

def claimed (batch : StoredBatch) (worker model : String) (ids : List ℕ)
    (now leaseSeconds : ℚ) : StoredBatch :=
  (batch.rewriteItems ids (fun item => item.modelId = model && item.claimable now)
    (Item.claim worker now leaseSeconds)).openAttempts worker (batch.claimedItems model ids now)

theorem mem_claimedItems {entry : Item × ℕ} : entry ∈ batch.claimedItems model ids now ↔
      batch.items[entry.2]? = some entry.1 ∧ takes model ids now entry.2 entry.1 = true := by
  simp only [claimedItems, List.mem_filter, List.mem_zipIdx_iff_getElem?, takes]

theorem claimed_item (batch : StoredBatch) (index : ℕ) :
    (batch.claimed worker model ids now leaseSeconds).items[index]? =
      batch.items[index]?.map fun item =>
        if takes model ids now index item then item.claim worker now leaseSeconds else item := by
  simp only [claimed, openAttempts, rewriteItems, List.getElem?_mapIdx, takes]
  rfl

theorem claimed_attempts (batch : StoredBatch) :
    (batch.claimed worker model ids now leaseSeconds).attempts = batch.attempts ++
      (batch.claimedItems model ids now).map fun entry =>
        { item := entry.2, attemptNo := entry.1.attemptSeq + 1, worker := worker } := rfl

theorem claimed_claims (batch : StoredBatch) :
    (batch.claimed worker model ids now leaseSeconds).claims = batch.claims ++
      (batch.claimedItems model ids now).map fun entry =>
        { item := entry.2, attempt := entry.1.attemptSeq + 1, worker := worker } := by
  simp only [claims, claimed_attempts, List.map_append, List.map_map]
  rfl

theorem claimedItems_apart (batch : StoredBatch) (model : String) (ids : List ℕ) (now : ℚ) :
    (batch.claimedItems model ids now).Pairwise fun earlier later => earlier.2 ≠ later.2 := by
  have positions : (batch.items.zipIdx.map Prod.snd).Pairwise (· ≠ ·) := by
    rw [List.zipIdx_map_snd]
    exact List.nodup_range'
  exact (List.pairwise_map.mp positions).filter _

theorem Numbered.claimed (numbered : batch.Numbered) (runnable : batch.job.phase = .runnable) :
    (batch.claimed worker model ids now leaseSeconds).Numbered := by
  refine ⟨?_, ?_, ?_⟩
  · intro validating
    change batch.job.phase = .validating at validating
    rw [runnable] at validating
    cases validating
  · intro claim member
    rw [claimed_item]
    rw [claimed_claims] at member
    rcases List.mem_append.mp member with earlier | fresh
    · rcases numbered.placed claim earlier with ⟨item, found, le⟩
      refine ⟨_, by rw [found, Option.map_some], ?_⟩
      split_ifs
      · exact le.trans (Nat.le_succ _)
      · exact le
    · rcases List.mem_map.mp fresh with ⟨entry, entryMember, rfl⟩
      rcases mem_claimedItems.mp entryMember with ⟨found, taken⟩
      refine ⟨_, by rw [found, Option.map_some, if_pos taken], ?_⟩
      exact le_rfl
  · rw [claimed_claims]
    apply List.pairwise_append.mpr
    refine ⟨numbered.ordered, ?_, ?_⟩
    · apply List.pairwise_map.mpr
      apply (claimedItems_apart batch model ids now).imp
      intro earlier later apart same
      exact absurd same apart
    · intro earlier earlierMember later laterMember same
      rcases List.mem_map.mp laterMember with ⟨entry, entryMember, rfl⟩
      rcases numbered.placed earlier earlierMember with ⟨item, found, le⟩
      rw [same, (mem_claimedItems.mp entryMember).1] at found
      cases found
      exact Nat.lt_succ_of_le le

theorem Billed.claimed {excused : ℕ → Prop} {closings : List Closing} (numbered : batch.Numbered)
    (billed : batch.Billed excused closings)
    (covered : ∀ (index : ℕ) (item : Item), batch.items[index]? = some item → excused index →
      takes model ids now index item = true) :
    (batch.claimed worker model ids now leaseSeconds).Billed (fun _ => False) closings := by
  refine ⟨?_, ?_, ?_, ?_, ?_, ?_, billed.once⟩
  · intro index later found running _
    rw [claimed_item, Option.map_eq_some_iff] at found
    rcases found with ⟨item, foundItem, rfl⟩
    rw [claimed_attempts]
    by_cases taken : takes model ids now index item = true
    · rw [if_pos taken]
      have entryMember : (item, index) ∈ batch.claimedItems model ids now :=
        mem_claimedItems.mpr ⟨foundItem, taken⟩
      exact ⟨_, List.mem_append_right _ (List.mem_map_of_mem entryMember), rfl, rfl, rfl⟩
    · rw [if_neg taken] at running ⊢
      rcases billed.running index item foundItem running
        (fun isExcused => taken (covered index item foundItem isExcused)) with
        ⟨row, member, rest⟩
      exact ⟨row, List.mem_append_left _ member, rest⟩
  · intro row member isOpen
    rw [claimed_attempts] at member
    rcases List.mem_append.mp member with earlier | fresh
    · exact billed.unbilled row earlier isOpen
    · rcases List.mem_map.mp fresh with ⟨entry, -, rfl⟩
      exact ⟨rfl, rfl⟩
  · change batch.job.costUsd = _
    rw [claimed_attempts, tally_append, tally_map, billed.cost]
    simp [tally]
  · change batch.job.unknownCostCount = _
    rw [claimed_attempts, List.countP_append, List.countP_map, billed.unknown]
    simp [Function.comp_def]
  · intro row member isOpen closing closingMember
    rw [claimed_attempts] at member
    rcases List.mem_append.mp member with earlier | fresh
    · exact billed.unclosed row earlier isOpen closing closingMember
    · rcases List.mem_map.mp fresh with ⟨entry, entryMember, rfl⟩
      rcases billed.recorded closing closingMember with ⟨old, oldMember, itsItem, itsNumber⟩
      rcases numbered.placed old.claim (List.mem_map_of_mem oldMember) with ⟨item, found, le⟩
      intro same
      have sameItem : closing.item = entry.2 := congrArg Prod.fst same
      have sameNumber : closing.attempt = entry.1.attemptSeq + 1 := congrArg Prod.snd same
      simp only [Attempt.claim] at found le
      rw [itsItem, sameItem, (mem_claimedItems.mp entryMember).1] at found
      cases found
      omega
  · intro closing closingMember
    rcases billed.recorded closing closingMember with ⟨row, member, rest⟩
    rw [claimed_attempts]
    exact ⟨row, List.mem_append_left _ member, rest⟩

end Claim

section Settle

variable {batch : StoredBatch} {now : ℚ} {status : BatchStatus} {meanwhile : List Renewal}

theorem renew_item (batch : StoredBatch) (renewal : Renewal) (index : ℕ) :
    (batch.renew renewal).items[index]? = batch.items[index]?.map fun item =>
      if renewal.items.contains index then { item with leaseExpiresAt := some renewal.expiresAt }
      else item := by
  simp only [renew, rewriteItems, List.getElem?_mapIdx, Bool.and_true]

theorem renew_quiet (batch : StoredBatch) {renewal : Renewal} {renewals : List Renewal}
    (member : renewal ∈ renewals) : Quiet (.renewing renewals) batch (batch.renew renewal) := by
  refine ⟨.of_rewritten _ id (renew_item batch renewal) ?_, rfl, rfl, rfl⟩
  intro index item
  by_cases held : renewal.items.contains index = true
  · rw [if_pos held]
    have renewed : (Scope.renewing renewals).renewed index :=
      ⟨renewal, member, List.contains_iff_mem.mp held⟩
    exact ⟨rfl, rfl, id, fun _ => Or.inr renewed, Or.inl⟩
  · rw [if_neg held]
    exact .refl _ index item

theorem foldl_renew_quiet {meanwhile renewals : List Renewal}
    (subset : ∀ renewal ∈ meanwhile, renewal ∈ renewals) (batch : StoredBatch) :
    Quiet (.renewing renewals) batch (meanwhile.foldl renew batch) := by
  induction meanwhile generalizing batch with
  | nil => exact .refl batch
  | cons renewal rest ih =>
    have here := renew_quiet batch (subset renewal (by simp))
    exact here.trans (ih (fun other member => subset other (by simp [member])) _)

theorem foldl_renew_item {index : ℕ} {later : Item}
    (found : (meanwhile.foldl renew batch).items[index]? = some later) :
    ∃ item lease, batch.items[index]? = some item ∧ later = { item with leaseExpiresAt := lease } ∧
      (lease = item.leaseExpiresAt ∨ ∃ renewal ∈ meanwhile, index ∈ renewal.items) := by
  induction meanwhile generalizing batch with
  | nil => exact ⟨later, later.leaseExpiresAt, found, rfl, Or.inl rfl⟩
  | cons renewal rest ih =>
    rcases ih found with ⟨middle, lease, foundMiddle, rfl, origin⟩
    rw [renew_item, Option.map_eq_some_iff] at foundMiddle
    rcases foundMiddle with ⟨item, foundItem, rfl⟩
    by_cases held : renewal.items.contains index = true
    · rw [if_pos held]
      refine ⟨item, lease, foundItem, rfl, Or.inr ⟨renewal, by simp, ?_⟩⟩
      exact List.contains_iff_mem.mp held
    · rw [if_neg held] at origin ⊢
      refine ⟨item, lease, foundItem, rfl, origin.imp_right ?_⟩
      rintro ⟨other, member, holds⟩
      exact ⟨other, List.mem_cons_of_mem renewal member, holds⟩

theorem settleItems_item (batch : StoredBatch) (now : ℚ) (status : ItemStatus)
    (error : Option ItemError) (index : ℕ) :
    (batch.settleItems now status error).items[index]? = batch.items[index]?.map fun item =>
      if item.settles now then
        { item with
          status := status, error := error.or item.error, nextAttemptAt := none
          leaseExpiresAt := none }
      else item := by
  simp only [settleItems, List.getElem?_map]

variable {itemStatus : ItemStatus}

theorem itemVerdict_ends {error : Option ItemError}
    (verdict : itemVerdict status = some (itemStatus, error)) :
    itemStatus ≠ .running ∧ itemStatus ≠ .queued := by
  cases status <;> simp_all [itemVerdict]
  all_goals
    rw [← verdict.1]
    decide

theorem settleItems_quiet (ended : itemStatus ≠ .running ∧ itemStatus ≠ .queued)
    (error : Option ItemError) (settled : ℕ) :
    Quiet .nothing batch { batch.settleItems now itemStatus error with
      job := countSettled (batch.settleItems now itemStatus error).job status settled } := by
  refine ⟨.of_rewritten _ ?_ (settleItems_item batch now itemStatus error) ?_, rfl, ?_, ?_⟩
  · unfold countSettled
    split_ifs <;> exact id
  · intro index item
    split_ifs
    · refine ⟨rfl, rfl, fun runs => absurd runs ended.1, fun runs => absurd runs ended.1, ?_⟩
      exact fun waits => absurd waits ended.2
    · exact .refl _ index item
  · unfold countSettled
    split_ifs <;> rfl
  · unfold countSettled
    split_ifs <;> rfl

theorem finalize_quiet (batch : StoredBatch) (final : BatchStatus) :
    Quiet .nothing batch (batch.finalize final) := by
  unfold finalize
  split_ifs
  · exact .refl batch
  · exact .of_job rfl rfl rfl rfl (fun validating => nomatch validating)
  · exact .of_job rfl rfl rfl rfl (fun validating => nomatch validating)

def staleAbandoned (batch : StoredBatch) (now : ℚ) (status : BatchStatus) : StoredBatch :=
  if batch.passesVerdict status then
    batch.abandonAttempts (batch.attemptsOf (Item.leaseRanOut now))
  else batch

theorem passVerdictAmid_quiet (runnable : batch.job.phase = .runnable) (now : ℚ)
    (status : BatchStatus) (meanwhile : List Renewal) :
    Quiet (.renewing meanwhile) (batch.staleAbandoned now status)
        (batch.passVerdictAmid now status meanwhile) ∧
      (batch.passesVerdict status = true → ∀ (index : ℕ) (later : Item),
        (batch.passVerdictAmid now status meanwhile).items[index]? = some later →
        later.status = .running →
        (meanwhile.foldl renew (batch.staleAbandoned now status)).items[index]? = some later ∧
          later.leaseRanOut now = false) := by
  unfold passVerdictAmid staleAbandoned passesVerdict
  cases verdict : itemVerdict status with
  | none =>
    refine ⟨?_, fun passes => by simp at passes⟩
    simpa using foldl_renew_quiet (fun _ member => member) batch
  | some ruling =>
    have ended := itemVerdict_ends verdict
    simp only [runnable, decide_true, Option.isSome_some, Bool.and_self, if_true, forall_const]
    refine ⟨(foldl_renew_quiet (fun _ member => member) _).trans
      ((settleItems_quiet ended _ _).widen (Scope.nothing_within _)), ?_⟩
    intro index later found running
    rw [settleItems_item, Option.map_eq_some_iff] at found
    rcases found with ⟨item, foundItem, rfl⟩
    by_cases settles : item.settles now = true
    · rw [if_pos settles] at running
      exact absurd running ended.1
    · rw [if_neg settles]
      refine ⟨foundItem, ?_⟩
      simp only [Item.settles, Bool.or_eq_true, not_or, Bool.not_eq_true] at settles
      exact settles.2

theorem finalize_items (batch : StoredBatch) (final : BatchStatus) :
    (batch.finalize final).items = batch.items := by
  unfold finalize
  split_ifs <;> rfl

theorem settleAmid_quiet (batch : StoredBatch) (now : ℚ) (status : BatchStatus)
    (meanwhile : List Renewal) :
    Quiet (.renewing meanwhile) (batch.staleAbandoned now status)
        (batch.settleAmid now status meanwhile) ∧
      (batch.passesVerdict status = true → ∀ (index : ℕ) (later : Item),
        (batch.settleAmid now status meanwhile).items[index]? = some later →
        later.status = .running →
        (meanwhile.foldl renew (batch.staleAbandoned now status)).items[index]? = some later ∧
          later.leaseRanOut now = false) := by
  by_cases runnable : batch.job.phase = .runnable
  · have passed := passVerdictAmid_quiet runnable now status meanwhile
    have finished : Quiet (.renewing meanwhile) (batch.passVerdictAmid now status meanwhile)
          (batch.settleAmid now status meanwhile) ∧
        (batch.settleAmid now status meanwhile).items =
          (batch.passVerdictAmid now status meanwhile).items := by
      unfold settleAmid
      rw [if_neg (not_not.mpr runnable)]
      cases finalStatus status with
      | none => exact ⟨.refl _, rfl⟩
      | some final =>
        dsimp only
        split_ifs
        · exact ⟨.refl _, rfl⟩
        · exact ⟨.refl _, rfl⟩
        · exact ⟨(finalize_quiet _ final).widen (Scope.nothing_within _), finalize_items _ final⟩
    refine ⟨passed.1.trans finished.1, ?_⟩
    rw [finished.2]
    exact passed.2
  · have silent : batch.passesVerdict status = false := by simp [passesVerdict, runnable]
    refine ⟨?_, fun passes => by simp [silent] at passes⟩
    rw [settleAmid, if_pos runnable, staleAbandoned, if_neg (by simp [silent])]
    exact foldl_renew_quiet (fun _ member => member) batch

theorem abandonAttempts_rests (batch : StoredBatch) (stale : List (ℕ × ℕ)) :
    Rests .nothing batch (batch.abandonAttempts stale) := by
  refine ⟨id, ?_, ?_⟩
  · intro index item found
    rcases abandonAttempts_item_of_some stale found with ⟨costStatus, foundLater⟩
    exact Or.inr ⟨_, foundLater, rfl, rfl, id, fun _ => Or.inl rfl, Or.inl⟩
  · intro index later found _
    rcases abandonAttempts_item found with ⟨item, costStatus, foundItem, rfl⟩
    exact ⟨item, foundItem, rfl, rfl, id, fun _ => Or.inl rfl, Or.inl⟩

variable {before after : StoredBatch}

theorem Rests.renew (rests : Rests .nothing before after)
    (renewal : Renewal) : Rests .nothing (before.renew renewal) (after.renew renewal) := by
  have stands {index : ℕ} {item later : Item} (stands : Stands .nothing index item later) :
      Stands .nothing index (if renewal.items.contains index then
          { item with leaseExpiresAt := some renewal.expiresAt } else item)
        (if renewal.items.contains index then
          { later with leaseExpiresAt := some renewal.expiresAt } else later) := by
    split_ifs
    · exact ⟨stands.modelId, stands.attemptSeq, stands.running, fun _ => Or.inl rfl, stands.queued⟩
    · exact stands
  refine ⟨rests.phase, ?_, ?_⟩
  · intro index item found
    rw [renew_item, Option.map_eq_some_iff] at found
    rcases found with ⟨old, foundOld, rfl⟩
    rcases rests.kept index old foundOld with ⟨cleared, -⟩ | ⟨later, foundLater, oldStands⟩
    · exact cleared.elim
    · exact Or.inr ⟨_, by rw [renew_item, foundLater, Option.map_some], stands oldStands⟩
  · intro index later found runs
    rw [renew_item, Option.map_eq_some_iff] at found
    rcases found with ⟨last, foundLast, rfl⟩
    have ran : last.status = .running := by
      split_ifs at runs <;> exact runs
    rcases rests.running index last foundLast ran with ⟨item, foundItem, oldStands⟩
    exact ⟨_, by rw [renew_item, foundItem, Option.map_some], stands oldStands⟩

theorem Rests.foldl_renew (rests : Rests .nothing before after) (meanwhile : List Renewal) :
    Rests .nothing (meanwhile.foldl StoredBatch.renew before)
      (meanwhile.foldl StoredBatch.renew after) := by
  induction meanwhile generalizing before after with
  | nil => exact rests
  | cons renewal rest ih => exact ih (rests.renew renewal)

theorem settleAmid_rests (batch : StoredBatch) (now : ℚ) (status : BatchStatus)
    (meanwhile : List Renewal) :
    Rests .nothing (meanwhile.foldl renew batch) (batch.settleAmid now status meanwhile) := by
  have passed : Rests .nothing (meanwhile.foldl renew batch)
      (batch.passVerdictAmid now status meanwhile) := by
    unfold passVerdictAmid
    cases verdict : itemVerdict status with
    | none => exact (Quiet.refl _).toRests
    | some ruling =>
      exact ((abandonAttempts_rests batch _).foldl_renew meanwhile).trans
        (settleItems_quiet (itemVerdict_ends verdict) _ _).toRests
  unfold settleAmid
  by_cases stays : batch.job.phase ≠ .runnable
  · rw [if_pos stays]
    exact (Quiet.refl _).toRests
  · rw [if_neg stays]
    cases finalStatus status with
    | none => exact passed
    | some final =>
      dsimp only
      split_ifs
      · exact passed
      · exact passed
      · exact passed.trans (finalize_quiet _ final).toRests

theorem mem_attemptsOf {chosen : Item → Bool} {index number : ℕ} :
    (index, number) ∈ batch.attemptsOf chosen ↔
      ∃ item, batch.items[index]? = some item ∧ chosen item = true ∧ item.attemptSeq = number := by
  simp only [attemptsOf, List.mem_map, List.mem_filter, List.mem_zipIdx_iff_getElem?,
    Prod.mk.injEq, Prod.exists]
  constructor
  · rintro ⟨item, position, ⟨found, isChosen⟩, rfl, rfl⟩
    exact ⟨item, found, isChosen, rfl⟩
  · rintro ⟨item, found, isChosen, rfl⟩
    exact ⟨item, index, ⟨found, isChosen⟩, rfl, rfl⟩

theorem Numbered.settleAmid (numbered : batch.Numbered) :
    (batch.settleAmid now status meanwhile).Numbered ∧
      (batch.settleAmid now status meanwhile).claims = batch.claims := by
  have quiet := (settleAmid_quiet batch now status meanwhile).1
  have abandoned : (batch.staleAbandoned now status).Numbered ∧
      (batch.staleAbandoned now status).claims = batch.claims := by
    unfold staleAbandoned
    split_ifs
    · exact ⟨numbered.abandonAttempts _, abandonAttempts_claims batch _⟩
    · exact ⟨numbered, rfl⟩
  exact ⟨quiet.numbered abandoned.1, quiet.claims.trans abandoned.2⟩

theorem Billed.settleAmid {closings : List Closing} (numbered : batch.Numbered)
    (billed : batch.Billed (fun _ => False) closings)
    (unraced : ∀ renewal ∈ meanwhile, batch.waitsFor now status renewal = false) :
    (batch.settleAmid now status meanwhile).Billed (fun _ => False)
      (closings ++ if batch.passesVerdict status then
        batch.abandonedBy (batch.attemptsOf (Item.leaseRanOut now)) else []) := by
  rcases settleAmid_quiet batch now status meanwhile with ⟨quiet, stopped⟩
  by_cases passes : batch.passesVerdict status = true
  · simp only [staleAbandoned, if_pos passes] at quiet stopped
    rw [if_pos passes]
    refine quiet.billed (billed.abandonAttempts numbered _) ?_
    rintro index later found running ⟨number, isStale⟩
    rcases mem_attemptsOf.mp isStale with ⟨item, foundItem, ranOut, -⟩
    rcases stopped passes index later found running with ⟨foundLater, stands⟩
    rcases foldl_renew_item foundLater with ⟨middle, lease, foundMiddle, rfl, origin⟩
    rcases abandonAttempts_item foundMiddle with ⟨old, costStatus, foundOld, rfl⟩
    rw [foundItem] at foundOld
    cases foundOld
    rcases origin with rfl | ⟨renewal, member, holds⟩
    · simp only [Item.leaseRanOut] at stands ranOut
      rw [ranOut] at stands
      cases stands
    · have waits := unraced renewal member
      simp only [waitsFor, passes, Bool.true_and, List.any_eq_false] at waits
      exact waits index holds (by simp [foundItem, ranOut])
  · simp only [staleAbandoned, if_neg passes] at quiet
    rw [if_neg passes, List.append_nil]
    exact quiet.billed billed fun _ _ _ _ excused => excused

end Settle

section Transactions

variable {batch : StoredBatch} {closings : List Closing}

structure Reports (rewrite : Item → Item) : Prop where
  modelId : ∀ item, (rewrite item).modelId = item.modelId
  attemptSeq : ∀ item, (rewrite item).attemptSeq = item.attemptSeq
  stops : ∀ item, (rewrite item).status ≠ .running

theorem guardedItemWrite_item {written : StoredBatch} {id attempt : ℕ} {worker : String}
    {rewrite : Item → Item}
    (guarded : batch.guardedItemWrite id worker attempt rewrite = some written) (index : ℕ) :
    written.items[index]? =
      batch.items[index]?.map fun old => if id = index then rewrite old else old := by
  rcases guardedItemWrite_cases guarded with ⟨item, found, -, -, rfl⟩
  rw [getElem?_set_of_some found]
  by_cases here : id = index
  · subst here
    simp [found]
  · simp [here]

theorem guardedItemWrite_quiet {written : StoredBatch} {id attempt : ℕ} {worker : String}
    {rewrite : Item → Item} (closedBy : ClosedBy)
    (guarded : batch.guardedItemWrite id worker attempt rewrite = some written)
    (reports : Reports rewrite) :
    Quiet (.reporting [{ item := id, attempt := attempt, closedBy := closedBy }]) batch
      written := by
  have items := guardedItemWrite_item guarded
  rcases guardedItemWrite_cases guarded with ⟨item, found, -, -, rfl⟩
  refine ⟨.of_rewritten _ (fun validating => validating) items ?_, rfl, rfl, rfl⟩
  intro index old
  by_cases here : id = index
  · rw [if_pos here]
    refine ⟨reports.modelId old, reports.attemptSeq old, fun runs => absurd runs ?_,
      fun runs => absurd runs ?_,
      fun _ => Or.inr ⟨_, List.mem_singleton_self _, here⟩⟩
    · exact reports.stops old
    · exact reports.stops old
  · rw [if_neg here]
    exact .refl _ index old

theorem itemStatus_ne_running (report : Report) : report.itemStatus ≠ .running := by
  unfold Report.itemStatus
  split_ifs <;> decide

theorem published_quiet (batch : StoredBatch) : Quiet .nothing batch batch.published :=
  .of_job rfl rfl rfl rfl (fun validating => nomatch validating)

theorem withStatus_quiet (batch : StoredBatch) (status : BatchStatus) :
    Quiet .nothing batch (batch.withStatus status) :=
  .of_job rfl rfl rfl rfl id

theorem touched_quiet (batch : StoredBatch) : Quiet .nothing batch batch.touched :=
  withStatus_quiet batch _

variable {transaction : Transaction} {handed : StoredBatch}

variable {status : BatchStatus} {now : ℚ}

/-- A handover reports nothing or the attempt that the batch still runs. -/
theorem handsOver_cases (hands : batch.handsOver transaction = some (handed, now, status)) :
    batch.reportOf transaction = [] ∧ Quiet .nothing batch handed ∨
      ∃ id attempt worker rewrite written outcome cost billing closedBy,
        batch.reportOf transaction = [{ item := id, attempt := attempt, closedBy := closedBy }] ∧
        batch.guardedItemWrite id worker attempt rewrite = some written ∧ Reports rewrite ∧
        Quiet .nothing (written.recordAttempt id attempt outcome cost billing) handed := by
  cases transaction with
  | publishValidated worker clock =>
    simp only [handsOver] at hands
    split_ifs at hands
    cases hands
    exact Or.inl ⟨rfl, published_quiet batch⟩
  | completeItem id worker attempt report clock =>
    rcases Option.map_eq_some_iff.mp hands with ⟨written, guarded, same⟩
    cases same
    have reports : Reports (Item.complete report) :=
      ⟨fun _ => rfl, fun _ => rfl, fun _ => itemStatus_ne_running report⟩
    refine Or.inr ⟨id, attempt, worker, _, written, _, _, _, .complete, ?_, guarded, reports,
      .of_job rfl rfl rfl rfl fun validating => validating⟩
    simp only [reportOf, guarded, Option.isSome_some, if_true]
  | retryItem id worker attempt report nextAttemptAt clock =>
    rcases Option.map_eq_some_iff.mp hands with ⟨written, guarded, same⟩
    cases same
    have reports : Reports (Item.retry report nextAttemptAt) :=
      ⟨fun _ => rfl, fun _ => rfl, fun _ => by simp [Item.retry]⟩
    refine Or.inr ⟨id, attempt, worker, _, written, _, _, _, .retry, ?_, guarded, reports, .refl _⟩
    simp only [reportOf, guarded, Option.isSome_some, if_true]
  | releaseItem id worker attempt nextAttemptAt dispatched clock =>
    rcases Option.map_eq_some_iff.mp hands with ⟨written, guarded, same⟩
    cases same
    have reports : Reports (Item.release nextAttemptAt dispatched) :=
      ⟨fun _ => rfl, fun _ => rfl, fun _ => by simp [Item.release]⟩
    refine Or.inr ⟨id, attempt, worker, _, written, _, _, _, .release, ?_, guarded, reports,
      .refl _⟩
    simp only [reportOf, guarded, Option.isSome_some, if_true]
  | cancelBatch clock | failBatch clock | sweepExpired clock =>
    simp only [handsOver] at hands
    split_ifs at hands
    cases hands
    exact Or.inl ⟨rfl, withStatus_quiet batch _⟩
  | sweepSettled clock =>
    cases hands
    exact Or.inl ⟨rfl, .refl batch⟩
  | stageItems _ _ _ | resetStagedItems _ | failValidation _ | claimBatchWork _ _ _ _
  | extendBatchWork _ _ _ _ | claimItems _ _ _ _ _ | heartbeat _ _ _ _ | markDispatched _ _ _
  | commitSeal _ _ | pause _ | requestDelete _ => cases hands

theorem handsOver_rests (hands : batch.handsOver transaction = some (handed, now, status)) :
    Rests (.reporting (batch.reportOf transaction)) batch handed := by
  rcases handsOver_cases hands with ⟨-, quiet⟩ |
    ⟨id, attempt, worker, rewrite, written, outcome, cost, billing, closedBy, reported, guarded,
      reports, quiet⟩
  · exact (quiet.widen (Scope.nothing_within _)).toRests
  · rw [reported]
    have recorded : Rests (.reporting [{ item := id, attempt := attempt, closedBy := closedBy }])
        written (written.recordAttempt id attempt outcome cost billing) :=
      .of_items rfl fun validating => validating
    exact ((guardedItemWrite_quiet closedBy guarded reports).toRests.trans recorded).trans
      (quiet.widen (Scope.nothing_within _)).toRests

theorem handsOver_writes (closings : List Closing)
    (numbered : batch.Numbered) (hands : batch.handsOver transaction = some (handed, now, status)) :
    (handed.Numbered ∧ handed.claims = batch.claims) ∧ (batch.Billed (fun _ => False) closings →
        handed.Billed (fun _ => False) (closings ++ batch.reportOf transaction)) := by
  rcases handsOver_cases hands with ⟨nothing, quiet⟩ |
    ⟨id, attempt, worker, rewrite, written, outcome, cost, billing, closedBy, reported, guarded,
      reports, quiet⟩
  · refine ⟨⟨quiet.numbered numbered, quiet.claims⟩, fun billed => ?_⟩
    rw [nothing, List.append_nil]
    exact quiet.billed billed fun _ _ _ _ excused => excused
  · have stopped := guardedItemWrite_quiet closedBy guarded reports
    have stillNumbered := stopped.numbered numbered
    have sameClaims := (recordAttempt_claims written id attempt outcome cost billing).trans
      stopped.claims
    refine ⟨⟨quiet.numbered stillNumbered.recordAttempt, quiet.claims.trans sameClaims⟩, ?_⟩
    intro billed
    rw [reported]
    have stillBilled := stopped.billed billed fun _ _ _ _ excused => excused
    have items := guardedItemWrite_item guarded
    rcases guardedItemWrite_cases guarded with ⟨item, found, running, current, rfl⟩
    rcases billed.running id item found running (fun excused => excused) with
      ⟨row, member, itsItem, itsNumber, isOpen⟩
    refine quiet.billed ?_ fun _ _ _ _ excused => excused
    refine stillBilled.recordAttempt stillNumbered member itsItem (itsNumber.trans current) isOpen
      ?_ closedBy
    intro later foundLater
    rw [items id, found, Option.map_some, if_pos rfl] at foundLater
    cases foundLater
    exact reports.stops item

theorem stageItems_quiet (batch : StoredBatch) (worker : String) (modelIds : List String)
    (now : ℚ) : Quiet .nothing batch (batch.stageItems worker modelIds now) := by
  unfold stageItems
  split_ifs
  · refine ⟨⟨id, ?_, ?_⟩, rfl, rfl, rfl⟩
    · intro index item found
      refine Or.inr ⟨item, ?_, .refl _ index item⟩
      rw [List.getElem?_append_left (List.getElem?_eq_some_iff.mp found).1]
      exact found
    · intro index later found running
      refine ⟨later, ?_, .refl _ index later⟩
      by_cases old : index < batch.items.length
      · rwa [List.getElem?_append_left old] at found
      · rw [List.getElem?_append_right (by omega), List.getElem?_map,
          Option.map_eq_some_iff] at found
        rcases found with ⟨modelId, -, rfl⟩
        cases running
  · exact .refl batch

theorem Quiet.of_cleared {after : StoredBatch} (validating : batch.job.phase = .validating)
    (attempts : after.attempts = batch.attempts) (items : after.items = [])
    (cost : after.job.costUsd = batch.job.costUsd)
    (unknown : after.job.unknownCostCount = batch.job.unknownCostCount) :
    Quiet .clearing batch after := by
  refine ⟨⟨fun _ => validating, fun _ _ _ => Or.inl ⟨trivial, validating⟩, ?_⟩, attempts, cost,
    unknown⟩
  intro index later found
  rw [items] at found
  cases found

theorem markDispatched_rows (batch : StoredBatch) (id : ℕ) (worker : String) (attempt : ℕ) :
    ∃ dispatches : Attempt → Bool, batch.markDispatched id worker attempt =
      { batch with attempts := batch.attempts.map fun row =>
          { row with dispatched := dispatches row } } := by
  unfold markDispatched
  split_ifs
  · refine ⟨fun row => if row.item = id ∧ row.attemptNo = attempt ∧ row.outcome = none then true
      else row.dispatched, ?_⟩
    congr 1
    apply List.map_congr_left
    intro row _
    dsimp only
    split_ifs <;> rfl
  · refine ⟨fun row => row.dispatched, ?_⟩
    rw [List.map_id']

theorem markDispatched_writes (closings : List Closing) (numbered : batch.Numbered) (id : ℕ)
    (worker : String) (attempt : ℕ) :
    ((batch.markDispatched id worker attempt).Numbered ∧
        (batch.markDispatched id worker attempt).claims = batch.claims) ∧
      (batch.Billed (fun _ => False) closings →
        (batch.markDispatched id worker attempt).Billed (fun _ => False) closings) := by
  rcases markDispatched_rows batch id worker attempt with ⟨dispatches, same⟩
  rw [same]
  have claims : StoredBatch.claims { batch with attempts := batch.attempts.map fun row =>
      { row with dispatched := dispatches row } } = batch.claims := claims_map fun _ => rfl
  refine ⟨⟨?_, claims⟩, ?_⟩
  · exact numbered.of_kept claims (fun validating => validating)
      fun _ _ item found => ⟨item, found, rfl⟩
  · intro billed
    refine ⟨?_, ?_, ?_, ?_, ?_, ?_, billed.once⟩
    · intro index item found running excused
      rcases billed.running index item found running excused with ⟨row, member, rest⟩
      exact ⟨_, List.mem_map_of_mem member, rest⟩
    · intro row member
      rcases List.mem_map.mp member with ⟨old, oldMember, rfl⟩
      exact billed.unbilled old oldMember
    · rw [tally_map]
      exact billed.cost
    · rw [List.countP_map]
      exact billed.unknown
    · intro row member
      rcases List.mem_map.mp member with ⟨old, oldMember, rfl⟩
      exact billed.unclosed old oldMember
    · intro closing member
      rcases billed.recorded closing member with ⟨row, rowMember, rest⟩
      exact ⟨_, List.mem_map_of_mem rowMember, rest⟩

theorem takes_of_takenBack {model : String} {ids : List ℕ} {index number : ℕ}
    {item : Item} (back : (index, number) ∈ batch.takenBack model ids now)
    (found : (batch.abandonAttempts (batch.takenBack model ids now)).items[index]? = some item) :
    takes model ids now index item = true := by
  rcases List.mem_map.mp back with ⟨entry, entryMember, same⟩
  cases same
  rcases mem_claimedItems.mp (List.mem_filter.mp entryMember).1 with ⟨foundEntry, taken⟩
  rcases abandonAttempts_item found with ⟨old, costStatus, foundOld, rfl⟩
  rw [foundEntry] at foundOld
  cases foundOld
  exact taken

theorem claimItems_eq {worker model : String} {ids : List ℕ} {now leaseSeconds : ℚ}
    (claimable : batch.job.claimable now = true) :
    batch.claimItems worker model ids now leaseSeconds =
      if ((batch.abandonAttempts (batch.takenBack model ids now)).claimedItems model ids
          now).isEmpty then
        batch.abandonAttempts (batch.takenBack model ids now)
      else
        ((batch.abandonAttempts (batch.takenBack model ids now)).claimed worker model ids now
          leaseSeconds).touched := by
  rw [claimItems, if_pos claimable]
  rfl

theorem claimItems_item (worker model : String) (ids : List ℕ) (now leaseSeconds : ℚ) {index : ℕ}
    {item : Item} (found : batch.items[index]? = some item) :
    ∃ costStatus, (batch.claimItems worker model ids now leaseSeconds).items[index]? =
      some (if batch.job.claimable now && takes model ids now index item then
        { item.claim worker now leaseSeconds with costStatus := costStatus }
      else { item with costStatus := costStatus }) := by
  by_cases claimable : batch.job.claimable now = true
  · rw [claimItems_eq claimable, claimable, Bool.true_and]
    rcases abandonAttempts_item_of_some (batch.takenBack model ids now) found with
      ⟨costStatus, foundAbandoned⟩
    refine ⟨costStatus, ?_⟩
    by_cases nothing : ((batch.abandonAttempts (batch.takenBack model ids now)).claimedItems
        model ids now).isEmpty = true
    · have notTaken : ¬ takes model ids now index item = true := by
        intro taken
        have member : ({ item with costStatus := costStatus }, index) ∈ (batch.abandonAttempts
            (batch.takenBack model ids now)).claimedItems model ids now :=
          mem_claimedItems.mpr ⟨foundAbandoned, taken⟩
        rw [List.isEmpty_iff.mp nothing] at member
        cases member
      rw [if_pos nothing, if_neg notTaken]
      exact foundAbandoned
    · rw [if_neg nothing]
      change ((batch.abandonAttempts (batch.takenBack model ids now)).claimed worker model ids now
        leaseSeconds).items[index]? = _
      rw [claimed_item, foundAbandoned, Option.map_some]
      rfl
  · refine ⟨item.costStatus, ?_⟩
    rw [claimItems, if_neg claimable, found, if_neg (by simp [claimable])]

theorem claimItems_length (batch : StoredBatch) (worker model : String) (ids : List ℕ)
    (now leaseSeconds : ℚ) :
    (batch.claimItems worker model ids now leaseSeconds).items.length = batch.items.length := by
  by_cases claimable : batch.job.claimable now = true
  · rw [claimItems_eq claimable]
    split_ifs
    · simp [abandonAttempts]
    · simp [touched, withStatus, claimed, openAttempts, rewriteItems, abandonAttempts]
  · rw [claimItems, if_neg claimable]

theorem claimItems_phase (batch : StoredBatch) (worker model : String) (ids : List ℕ)
    (now leaseSeconds : ℚ) :
    (batch.claimItems worker model ids now leaseSeconds).job.phase = batch.job.phase := by
  by_cases claimable : batch.job.claimable now = true
  · rw [claimItems_eq claimable]
    split_ifs <;> rfl
  · rw [claimItems, if_neg claimable]

theorem claimItems_writes (numbered : batch.Numbered) (worker model : String) (ids : List ℕ)
    (now leaseSeconds : ℚ) :
    ((batch.claimItems worker model ids now leaseSeconds).Numbered ∧
        (batch.claimItems worker model ids now leaseSeconds).claims =
          batch.claims ++ batch.claimsOf (.claimItems worker model ids now leaseSeconds)) ∧
      (batch.Billed (fun _ => False) closings →
        (batch.claimItems worker model ids now leaseSeconds).Billed (fun _ => False)
          (closings ++ batch.abandonedIn (.claimItems worker model ids now leaseSeconds))) := by
  simp only [claimsOf, abandonedIn]
  by_cases claimable : batch.job.claimable now = true
  · rw [if_pos claimable, if_pos claimable]
    have runnable : batch.job.phase = .runnable := by
      simp only [Job.claimable, Bool.and_eq_true, decide_eq_true_eq] at claimable
      exact claimable.1.1.1.1
    have abandoned := numbered.abandonAttempts (batch.takenBack model ids now)
    have sameClaims := abandonAttempts_claims batch (batch.takenBack model ids now)
    rw [claimItems_eq claimable]
    by_cases nothing : ((batch.abandonAttempts (batch.takenBack model ids now)).claimedItems
        model ids now).isEmpty = true
    · rw [if_pos nothing]
      rw [List.isEmpty_iff] at nothing
      rw [nothing, List.map_nil, List.append_nil]
      refine ⟨⟨abandoned, sameClaims⟩, fun billed => ?_⟩
      have unchanged : Quiet .nothing _ (batch.abandonAttempts (batch.takenBack model ids now)) :=
        .refl _
      refine unchanged.billed (billed.abandonAttempts numbered _) ?_
      rintro index item found - ⟨number, back⟩
      have member : (item, index) ∈ (batch.abandonAttempts
          (batch.takenBack model ids now)).claimedItems model ids now :=
        mem_claimedItems.mpr ⟨found, takes_of_takenBack back found⟩
      rw [nothing] at member
      cases member
    · rw [if_neg nothing]
      have touched := touched_quiet ((batch.abandonAttempts
        (batch.takenBack model ids now)).claimed worker model ids now leaseSeconds)
      refine ⟨⟨touched.numbered (abandoned.claimed runnable), ?_⟩, fun billed => ?_⟩
      · rw [touched.claims, claimed_claims, sameClaims]
      · refine touched.billed ?_ fun _ _ _ _ excused => excused
        refine Billed.claimed abandoned (billed.abandonAttempts numbered _) ?_
        rintro index item found ⟨number, back⟩
        exact takes_of_takenBack back found
  · rw [claimItems, if_neg claimable, if_neg claimable, if_neg claimable, List.append_nil,
      List.append_nil]
    exact ⟨⟨numbered, rfl⟩, id⟩

theorem failValidation_quiet (batch : StoredBatch) (worker : Option String) :
    Quiet .clearing batch (batch.failValidation worker) := by
  unfold failValidation
  split_ifs with owned
  · have emptied : Quiet .clearing batch batch.emptied := .of_cleared owned.1 rfl rfl rfl rfl
    exact emptied.trans ((finalize_quiet _ _).widen (Scope.nothing_within _))
  · exact .refl batch

section

variable (hands : batch.handsOver transaction = none) (notClaim : transaction.claims = false)
  (notBeat : transaction.beats = false)

include hands notClaim notBeat

theorem after_quiet (notDispatch : transaction.dispatches = false) :
    Quiet (scopeOf transaction) batch (batch.after transaction) := by
  cases transaction with
  | stageItems worker modelIds now => exact stageItems_quiet batch worker modelIds now
  | resetStagedItems worker =>
    simp only [after, resetStagedItems]
    split_ifs with owned
    · exact .of_cleared owned.2 rfl rfl rfl rfl
    · exact .refl batch
  | publishValidated worker now =>
    simp only [after, publishValidated]
    simp only [handsOver, ite_eq_right_iff, reduceCtorEq, imp_false, not_and] at hands
    split_ifs with owned stillOpen
    · exact published_quiet batch
    · exact absurd (by simpa using stillOpen) (hands owned)
    · exact .refl batch
  | failValidation worker => exact failValidation_quiet batch worker
  | claimBatchWork phase worker now leaseSeconds =>
    simp only [after, claimBatchWork]
    split_ifs
    · exact .of_job rfl rfl rfl rfl id
    · exact .of_job rfl rfl rfl rfl id
    · exact .refl batch
  | extendBatchWork phase worker now leaseSeconds =>
    simp only [after, extendBatchWork]
    split_ifs
    · exact .of_job rfl rfl rfl rfl id
    · exact .refl batch
  | claimItems worker model ids now leaseSeconds => cases notClaim
  | heartbeat worker ids now leaseSeconds => cases notBeat
  | markDispatched id worker attempt => cases notDispatch
  | completeItem id worker attempt report now =>
    simp only [handsOver, Option.map_eq_none_iff] at hands
    simp only [after, completeItem, hands]
    exact .refl batch
  | retryItem id worker attempt report nextAttemptAt now =>
    simp only [handsOver, Option.map_eq_none_iff] at hands
    simp only [after, retryItem, hands]
    exact .refl batch
  | releaseItem id worker attempt nextAttemptAt dispatched now =>
    simp only [handsOver, Option.map_eq_none_iff] at hands
    simp only [after, releaseItem, hands]
    exact .refl batch
  | cancelBatch now =>
    simp only [handsOver, ite_eq_right_iff, reduceCtorEq, imp_false] at hands
    simp only [after, cancelBatch, if_neg hands]
    exact .refl batch
  | failBatch now =>
    simp only [handsOver, ite_eq_right_iff, reduceCtorEq, imp_false] at hands
    simp only [after, failBatch, if_neg hands]
    exact .refl batch
  | sweepExpired now =>
    simp only [handsOver, ite_eq_right_iff, reduceCtorEq, imp_false] at hands
    simp only [after, sweepExpired, if_neg hands]
    exact .refl batch
  | sweepSettled now => cases hands
  | commitSeal worker generation =>
    simp only [after, commitSeal]
    split_ifs
    · exact .of_job rfl rfl rfl rfl (fun validating => nomatch validating)
    · exact .refl batch
  | pause resumeAt =>
    simp only [after, pause]
    split_ifs
    · exact .of_job rfl rfl rfl rfl id
    · exact .refl batch
  | requestDelete now =>
    simp only [after, requestDelete]
    split_ifs
    · exact .refl batch
    · exact .of_job rfl rfl rfl rfl id

theorem after_rests : Rests (scopeOf transaction) batch (batch.after transaction) := by
  by_cases dispatches : transaction.dispatches = true
  · cases transaction with
    | markDispatched id worker attempt =>
      rcases markDispatched_rows batch id worker attempt with ⟨marks, same⟩
      rw [after, same]
      exact .of_items rfl fun validating => validating
    | _ => cases dispatches
  · rw [Bool.not_eq_true] at dispatches
    exact (after_quiet hands notClaim notBeat dispatches).toRests

end

theorem claimsOf_eq_nil
    (notClaim : transaction.claims = false) : batch.claimsOf transaction = [] := by
  cases transaction <;> first | rfl | cases notClaim

theorem abandonedIn_eq_nil
    (notClaim : transaction.claims = false) (hands : batch.handsOver transaction = none) :
    batch.abandonedIn transaction = [] := by
  cases transaction <;> first | cases notClaim; done | simp only [abandonedIn, hands]

theorem after_writes (closings : List Closing)
    (numbered : batch.Numbered) (hands : batch.handsOver transaction = none)
    (notBeat : transaction.beats = false) :
    ((batch.after transaction).Numbered ∧
        (batch.after transaction).claims = batch.claims ++ batch.claimsOf transaction) ∧
      (batch.Billed (fun _ => False) closings → (batch.after transaction).Billed (fun _ => False)
          (closings ++ batch.abandonedIn transaction)) := by
  by_cases claims : transaction.claims = true
  · cases transaction with
    | claimItems worker model ids now leaseSeconds =>
      exact claimItems_writes numbered worker model ids now leaseSeconds
    | _ => cases claims
  · rw [Bool.not_eq_true] at claims
    rw [claimsOf_eq_nil claims, abandonedIn_eq_nil claims hands, List.append_nil, List.append_nil]
    by_cases dispatches : transaction.dispatches = true
    · cases transaction with
      | markDispatched id worker attempt =>
        exact markDispatched_writes closings numbered id worker attempt
      | _ => cases dispatches
    · rw [Bool.not_eq_true] at dispatches
      have quiet := after_quiet hands claims notBeat dispatches
      refine ⟨⟨quiet.numbered numbered, quiet.claims⟩, fun billed => ?_⟩
      exact quiet.billed billed fun _ _ _ _ excused => excused

end Transactions

theorem abandonedIn_of_handsOver {batch handed : StoredBatch} {transaction : Transaction} {now : ℚ}
    {status : BatchStatus} (hands : batch.handsOver transaction = some (handed, now, status)) :
    batch.abandonedIn transaction = if handed.passesVerdict status then
      handed.abandonedBy (handed.attemptsOf (Item.leaseRanOut now)) else [] := by
  cases transaction <;> first | cases hands; done | simp only [abandonedIn, hands]

theorem inserted_billed (surface : Surface) (phase : Phase) (status : BatchStatus)
    (expiresAt : Option ℚ) (requests : List NewItem) :
    (inserted surface phase status expiresAt requests).Numbered ∧
      (inserted surface phase status expiresAt requests).Billed (fun _ => False) [] := by
  refine ⟨⟨fun _ => rfl, by simp [claims, inserted], List.Pairwise.nil⟩,
    ⟨?_, by simp [inserted], rfl, rfl, by simp [inserted], by simp, List.Pairwise.nil⟩⟩
  intro index item found running
  have member := List.mem_of_getElem? found
  simp only [inserted, List.mem_append, List.mem_map] at member
  rcases member with ⟨request, -, rfl⟩ | ⟨request, -, rfl⟩ <;> cases running

theorem settleAmid_nil (batch : StoredBatch) (now : ℚ) (status : BatchStatus) :
    batch.settleAmid now status [] = batch.settle now status := rfl

theorem created_billed {batch : StoredBatch} (created : batch.Created) :
    batch.Numbered ∧ batch.claims = [] ∧ batch.Billed (fun _ => False) [] := by
  rcases created with ⟨surface, expiresAt, requests, now, rfl⟩ | ⟨surface, expiresAt, now, rfl⟩
  · have stored := inserted_billed surface .runnable .validating expiresAt requests
    unfold create insertBatch
    split_ifs
    · rw [← settleAmid_nil]
      have settled : ((inserted surface .runnable .validating expiresAt requests).settleAmid now
          .validating []).Billed (fun _ => False) [] := stored.2.settleAmid stored.1 (by simp)
      exact ⟨stored.1.settleAmid.1, stored.1.settleAmid.2, settled⟩
    · exact ⟨stored.1, rfl, stored.2⟩
  · have stored := inserted_billed surface .validating .validating expiresAt []
    exact ⟨stored.1, rfl, stored.2⟩

end StoredBatch

namespace FencedBatch

variable {fenced next : FencedBatch} {event : FencedEvent}

def races (fenced : FencedBatch) : FencedEvent → Bool
  | .transact transaction _ =>
    (fenced.batch.handsOver transaction).any fun (handed, now, status) =>
      fenced.renewals.any (handed.waitsFor now status)
  | _ => false

def Claimed (fenced : FencedBatch) : Prop :=
  fenced.batch.Numbered ∧ fenced.claims = fenced.batch.claims

def Balanced (fenced : FencedBatch) : Prop :=
  fenced.batch.Billed (fun _ => False) fenced.closings

variable {transaction : Transaction}

theorem beats_of_not_waits (starts : ¬ fenced.waits transaction = true) :
    transaction.beats = false := by
  cases transaction <;> first | rfl | exact absurd rfl starts

theorem transact_writes {meanwhile : List ℕ}
    (claimed : fenced.Claimed) (stepped : fenced.transact transaction meanwhile = some next) :
    next.Claimed ∧ (fenced.races (.transact transaction meanwhile) = false →
      fenced.Balanced → next.Balanced) := by
  rcases claimed with ⟨numbered, logged⟩
  unfold transact at stepped
  by_cases waits : fenced.waits transaction = true
  · rw [if_pos waits] at stepped
    cases stepped
  · rw [if_neg waits] at stepped
    cases hands : fenced.batch.handsOver transaction with
    | none =>
      simp only [hands] at stepped
      split_ifs at stepped
      cases stepped
      have writes := StoredBatch.after_writes fenced.closings numbered hands
        (beats_of_not_waits waits)
      refine ⟨⟨writes.1.1, ?_⟩, fun _ balanced => writes.2 balanced⟩
      rw [writes.1.2, logged]
    | some settlement =>
      rcases settlement with ⟨handed, now, status⟩
      simp only [hands] at stepped
      split_ifs at stepped
      cases stepped
      have writes := StoredBatch.handsOver_writes fenced.closings numbered hands
      refine ⟨⟨writes.1.1.settleAmid.1, ?_⟩, ?_⟩
      · rw [writes.1.1.settleAmid.2, writes.1.2, logged]
      · intro unraced balanced
        simp only [races, hands, Option.any_some, List.any_eq_false] at unraced
        unfold Balanced
        rw [StoredBatch.abandonedIn_of_handsOver hands]
        refine (writes.2 balanced).settleAmid writes.1.1 ?_
        intro renewal member
        have held := unraced renewal (List.mem_of_mem_filter member)
        simpa using held

/-- A step writes for current attempts only, and without a race it keeps the sums. -/
theorem step_writes (claimed : fenced.Claimed)
    (stepped : fencedMachine.step fenced event = some next) :
    next.Claimed ∧ (fenced.races event = false → fenced.Balanced → next.Balanced) := by
  cases event with
  | checkLeases id worker ids now leaseSeconds =>
    simp only [fencedMachine, step] at stepped
    split_ifs at stepped
    cases stepped
    exact ⟨claimed, fun _ balanced => balanced⟩
  | commitHeartbeat id =>
    cases stepped
    have quiet := StoredBatch.foldl_renew_quiet
      (fun (renewal : Renewal) (member : renewal ∈ fenced.committing [id]) => member)
      fenced.batch
    refine ⟨⟨quiet.numbered claimed.1, claimed.2.trans quiet.claims.symm⟩, ?_⟩
    intro _ balanced
    exact quiet.billed balanced fun _ _ _ _ excused => excused
  | rollBackHeartbeat id =>
    cases stepped
    exact ⟨claimed, fun _ balanced => balanced⟩
  | transact transaction meanwhile => exact transact_writes claimed stepped

/-- The attempts of an item are numbered upwards, each claimed by one worker; where no verdict falls
amid a heartbeat, each is closed at most once and the bill adds up. -/
theorem attempts_fenced {batch : StoredBatch} {events : List FencedEvent} {fenced : FencedBatch}
    (created : batch.Created) (ran : fencedMachine.run { batch := batch } events = some fenced) :
    (fenced.claims.Pairwise fun earlier later =>
        earlier.item = later.item → earlier.attempt < later.attempt) ∧
      (fencedMachine.Along (fun fenced event => fenced.races event = false) { batch := batch }
          events →
        (fenced.closings.Pairwise fun earlier later =>
            (earlier.item, earlier.attempt) ≠ (later.item, later.attempt)) ∧
          fenced.batch.job.costUsd =
            tally (fun attempt => attempt.costUsd.getD 0) fenced.batch.attempts ∧
          fenced.batch.job.unknownCostCount = fenced.batch.attempts.countP fun attempt =>
            attempt.costStatus = some .unknown) := by
  rcases StoredBatch.created_billed created with ⟨numbered, noClaims, billed⟩
  have initial : Claimed { batch := batch } := ⟨numbered, noClaims.symm⟩
  refine ⟨?_, ?_⟩
  · have preserved (before : FencedBatch) (event : FencedEvent) (after : FencedBatch)
        (claimed : before.Claimed) (stepped : fencedMachine.step before event = some after) :
        after.Claimed := (step_writes claimed stepped).1
    have claimed := Machine.run_invariant preserved initial ran
    rw [claimed.2]
    exact claimed.1.ordered
  · intro unraced
    have preserved (before : FencedBatch) (event : FencedEvent) (after : FencedBatch)
        (holds : before.Claimed ∧ before.Balanced) (apart : before.races event = false)
        (stepped : fencedMachine.step before event = some after) :
        after.Claimed ∧ after.Balanced := by
      rcases step_writes holds.1 stepped with ⟨claimed, balanced⟩
      exact ⟨claimed, balanced apart holds.2⟩
    have balanced := (Machine.run_invariant_along _ preserved ⟨initial, billed⟩ unraced ran).2
    exact ⟨balanced.once, balanced.cost, balanced.unknown⟩

def cancelledWhileRunning : List FencedEvent :=
  [.transact (.claimItems "worker" "model" [0] 0 30) [],
    .transact (.markDispatched 0 "worker" 1) [],
    .transact (.cancelBatch 10) [],
    .checkLeases 0 "worker" [0] 29 30]

def oneRequest : StoredBatch :=
  .create .openaiInline none [{ modelId := "model", error := none }] 0

theorem oneRequest_created : oneRequest.Created :=
  Or.inl ⟨_, _, _, _, rfl⟩

/-- The heartbeat commits before the sweep reads the leases. -/
theorem attempts_fenced_heartbeat_first : ∃ fenced, fencedMachine.run { batch := oneRequest }
        (cancelledWhileRunning ++ [.commitHeartbeat 0, .transact (.sweepSettled 31) [],
          .transact (.completeItem 0 "worker" 1 { costUsd := some 1 } 40) []]) = some fenced ∧
      fenced.closings = [{ item := 0, attempt := 1, closedBy := .complete }] ∧
      fenced.batch.job.costUsd = 1 ∧
      1 = tally (fun attempt => attempt.costUsd.getD 0) fenced.batch.attempts := by
  have ran := (Option.some_get (show (fencedMachine.run { batch := oneRequest }
    (cancelledWhileRunning ++ [.commitHeartbeat 0, .transact (.sweepSettled 31) [],
      .transact (.completeItem 0 "worker" 1 { costUsd := some 1 } 40) []])).isSome = true by
        decide +kernel)).symm
  have balanced := (attempts_fenced oneRequest_created ran).2 (by decide +kernel)
  have billed := balanced.2.1
  refine ⟨_, ran, by decide +kernel, by decide +kernel, ?_⟩
  decide +kernel

/-- The sweep reads the leases before the heartbeat commits: it abandons an
attempt that goes on to report a cost. -/
theorem attempt_abandoned_and_completed :
    ¬ ∀ (batch : StoredBatch) (events : List FencedEvent) (fenced : FencedBatch),
      batch.Created → fencedMachine.run { batch := batch } events = some fenced →
        (fenced.closings.Pairwise fun earlier later =>
            (earlier.item, earlier.attempt) ≠ (later.item, later.attempt)) ∧
          fenced.batch.job.costUsd =
            tally (fun attempt => attempt.costUsd.getD 0) fenced.batch.attempts ∧
          fenced.batch.job.unknownCostCount = fenced.batch.attempts.countP fun attempt =>
            attempt.costStatus = some .unknown := by
  intro fences
  have ran := (Option.some_get (show (fencedMachine.run { batch := oneRequest }
    (cancelledWhileRunning ++ [.transact (.sweepSettled 31) [0],
      .transact (.completeItem 0 "worker" 1 { costUsd := some 1 } 40) []])).isSome = true by
        decide +kernel)).symm
  have cost := (fences _ _ _ oneRequest_created ran).2.1
  revert cost
  decide +kernel

end FencedBatch

end HybridInference.Batch
