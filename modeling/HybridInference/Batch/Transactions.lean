import HybridInference.Batch.Store

/-!
# The transactions on a batch

The workers', the validator's, the sealer's, the owner's and the sweep's
transactions of `BatchStore` as steps of one batch. A transaction whose guard
does not match changes nothing, and its caller is told so; every transaction is
therefore enabled in every state, and a run is any list of them.
-/

namespace HybridInference.Batch

open Library

/-- What a worker reports of a finished attempt. The response counts by the size
of its stored form, and a cost that is not finite has been dropped. -/
structure Report where
  responseBytes : Option ℕ := none
  error : Option ItemError := none
  costUsd : Option ℚ := none
  costStatus : Option CostStatus := none
  maxResultBytes : Option ℕ := none

namespace Report

/-- The `cost_status` that `complete_item` derives. -/
def billing (report : Report) : CostStatus :=
  report.costStatus.getD (if report.costUsd.isSome then .billed
    else if report.error.isNone then .unknown
    else .notBilled)

/-- The `cost_status` that `retry_item` derives. -/
def retryBilling (report : Report) : CostStatus :=
  report.costStatus.getD (if report.costUsd.isSome then .billed else .notBilled)

def cost (report : Report) (billing : CostStatus) : Option ℚ :=
  if billing = .unknown then none else report.costUsd

def storedError (report : Report) : Option ItemError :=
  match report.maxResultBytes, report.responseBytes with
  | some limit, some bytes =>
    if limit < bytes then
      some
        { code := "result_too_large"
          message :=
            "The response exceeds the batch result limit of " ++ toString limit ++ " bytes."
          status := some 500 }
    else report.error
  | _, _ => report.error

def itemStatus (report : Report) : ItemStatus :=
  if report.storedError.isNone then .completed else .failed

end Report

def Item.guarded (worker : String) (attempt : ℕ) (item : Item) : Bool :=
  item.status = .running && item.claimedBy = some worker && item.attemptSeq = attempt

def Item.costAfter (item : Item) (cost : Option ℚ) : Option ℚ :=
  match cost with
  | none => item.costUsd
  | some amount => some (item.costUsd.getD 0 + amount)

def Item.complete (report : Report) (item : Item) : Item :=
  { item with
    status := report.itemStatus
    error := report.storedError
    costUsd := item.costAfter (report.cost report.billing)
    costStatus :=
      if report.billing = .unknown ∨ item.costStatus = some .unknown then some .unknown
      else some .known
    leaseExpiresAt := none
    nextAttemptAt := none }

def Item.retry (report : Report) (nextAttemptAt : ℚ) (item : Item) : Item :=
  { item with
    status := .queued
    nextAttemptAt := some nextAttemptAt
    error := report.error
    costUsd := item.costAfter (report.cost report.retryBilling)
    costStatus := if report.retryBilling = .unknown then some .unknown else item.costStatus
    claimedBy := none
    leaseExpiresAt := none }

/-- `_RELEASE_ITEM_SQL`. -/
def Item.release (nextAttemptAt : Option ℚ) (dispatched : Bool) (item : Item) : Item :=
  { item with
    status := .queued
    attempts := item.attempts - 1
    nextAttemptAt := nextAttemptAt
    costStatus := if dispatched then some .unknown else item.costStatus
    claimedBy := none
    leaseExpiresAt := none }

/-- `_CLAIM_ITEMS_SQL` on an item it picks. -/
def Item.claim (worker : String) (now leaseSeconds : ℚ) (item : Item) : Item :=
  { item with
    status := .running
    attempts := item.attempts + 1
    attemptSeq := item.attemptSeq + 1
    claimedBy := some worker
    leaseExpiresAt := some (now + leaseSeconds)
    nextAttemptAt := none }

def Item.beats (worker : String) (now : ℚ) (item : Item) : Bool :=
  item.status = .running && item.claimedBy = some worker && item.leaseExpiresAt.any (now < ·)

def Job.claimable (now : ℚ) (job : Job) : Bool :=
  job.phase = .runnable && (job.status = .validating || job.status = .inProgress) &&
    job.pausedUntil.all (· ≤ now) && job.expiresAt.all (now < ·) && !job.deleteRequested

def Job.stoppable (job : Job) : Bool :=
  (job.status = .validating || job.status = .inProgress) &&
    (job.phase = .validating || job.phase = .runnable)

namespace StoredBatch

def withStatus (batch : StoredBatch) (status : BatchStatus) : StoredBatch :=
  { batch with job := { batch.job with status := status } }

/-- `stage_items`, for the models of the chunk's items. -/
def stageItems (batch : StoredBatch) (worker : String) (modelIds : List String) (now : ℚ) :
    StoredBatch :=
  if batch.job.workOwner = some worker ∧ batch.job.phase = .validating ∧
      batch.job.status = .validating ∧ !batch.job.deleteRequested then
    { batch with
      job := { batch.job with
        requestCount := batch.job.requestCount + modelIds.length
        workExpiresAt := some ((batch.job.workExpiresAt.map (max · (now + 60))).getD (now + 60)) }
      items := batch.items ++ modelIds.map fun modelId => { modelId := modelId } }
  else batch

def resetStagedItems (batch : StoredBatch) (worker : String) : StoredBatch :=
  if batch.job.workOwner = some worker ∧ batch.job.phase = .validating then
    { batch with job := { batch.job with requestCount := 0 }, items := [] }
  else batch

def published (batch : StoredBatch) : StoredBatch :=
  { batch with
    job := { batch.job with
      phase := .runnable, status := .inProgress, workOwner := none, workExpiresAt := none } }

def publishValidated (batch : StoredBatch) (worker : String) (now : ℚ) : StoredBatch :=
  if batch.job.workOwner = some worker ∧ batch.job.phase = .validating ∧
      batch.job.status = .validating ∧ !batch.job.deleteRequested then
    if batch.published.hasOpenItems then batch.published
    else batch.published.settle now .inProgress
  else batch

def failedValidationStatus : BatchStatus → BatchStatus
  | .cancelling => .cancelled
  | .expired => .expired
  | .validating | .inProgress | .completed | .failed | .cancelled => .failed

def emptied (batch : StoredBatch) : StoredBatch :=
  { batch with
    job := { batch.job with
      requestCount := 0
      completedCount := 0
      failedCount := 0
      cancelledCount := 0
      expiredCount := 0
      phase := .runnable
      workOwner := none
      workExpiresAt := none }
    items := [] }

/-- `fail_validation`; without a worker any lease is taken over. -/
def failValidation (batch : StoredBatch) (worker : Option String) : StoredBatch :=
  if batch.job.phase = .validating ∧ (worker = none ∨ batch.job.workOwner = worker) then
    batch.emptied.finalize (failedValidationStatus batch.job.status)
  else batch

/-- `claim_batch_work` on this batch. -/
def claimBatchWork (batch : StoredBatch) (phase : Phase) (worker : String)
    (now leaseSeconds : ℚ) : StoredBatch :=
  if batch.job.phase = phase ∧
      (phase = .validating ∧ batch.job.status = .validating ∨ phase = .sealing) ∧
      !batch.job.deleteRequested ∧ batch.job.workExpiresAt.all (· ≤ now) then
    { batch with
      job := { batch.job with
        workOwner := some worker
        workExpiresAt := some (now + leaseSeconds)
        sealGeneration := batch.job.sealGeneration + if phase = .sealing then 1 else 0 } }
  else batch

def extendBatchWork (batch : StoredBatch) (phase : Phase) (worker : String)
    (now leaseSeconds : ℚ) : StoredBatch :=
  if batch.job.workOwner = some worker ∧ batch.job.phase = phase ∧ !batch.job.deleteRequested then
    { batch with job := { batch.job with workExpiresAt := some (now + leaseSeconds) } }
  else batch

def rewriteItems (batch : StoredBatch) (ids : List ℕ) (chosen : Item → Bool)
    (rewrite : Item → Item) : StoredBatch :=
  { batch with
    items := batch.items.mapIdx fun index item =>
      if ids.contains index && chosen item then rewrite item else item }

def claimedItems (batch : StoredBatch) (model : String) (ids : List ℕ) (now : ℚ) :
    List (Item × ℕ) :=
  batch.items.zipIdx.filter fun entry =>
    ids.contains entry.2 && (entry.1.modelId = model && entry.1.claimable now)

/-- The part of `_CLAIM_TOUCH_BATCHES_SQL` that moves the status. -/
def touched (batch : StoredBatch) : StoredBatch :=
  batch.withStatus (if batch.job.status = .validating then .inProgress else batch.job.status)

/-- `_OPEN_ATTEMPTS_SQL`, for items whose attempt number the claim has raised. -/
def openAttempts (batch : StoredBatch) (worker : String) (claimed : List (Item × ℕ)) :
    StoredBatch :=
  { batch with
    attempts := batch.attempts ++ claimed.map fun entry =>
      { item := entry.2, attemptNo := entry.1.attemptSeq + 1, worker := worker } }

/-- `claim_items` as far as it takes items of this batch. `ids` is what the
candidate query chose of them, under the caps and the turns of all users and
batches. -/
def claimItems (batch : StoredBatch) (worker model : String) (ids : List ℕ)
    (now leaseSeconds : ℚ) : StoredBatch :=
  if batch.job.claimable now then
    let stale := (batch.claimedItems model ids now).filter fun entry => entry.1.leaseRanOut now
    let abandoned := batch.abandonAttempts (stale.map fun entry => (entry.2, entry.1.attemptSeq))
    let claimed := abandoned.claimedItems model ids now
    if claimed.isEmpty then abandoned
    else
      ((abandoned.rewriteItems ids (fun item => item.modelId = model && item.claimable now)
        (Item.claim worker now leaseSeconds)).openAttempts worker claimed).touched
  else batch

/-- `heartbeat` on the items of this batch that it does not skip as locked. -/
def heartbeat (batch : StoredBatch) (worker : String) (ids : List ℕ) (now leaseSeconds : ℚ) :
    StoredBatch :=
  batch.rewriteItems ids (Item.beats worker now) fun item =>
    { item with leaseExpiresAt := some (now + leaseSeconds) }

def markDispatched (batch : StoredBatch) (id : ℕ) (worker : String) (attempt : ℕ) :
    StoredBatch :=
  if batch.items[id]?.any (Item.guarded worker attempt) then
    { batch with
      attempts := batch.attempts.map fun row =>
        if row.item = id ∧ row.attemptNo = attempt ∧ row.outcome = none then
          { row with dispatched := true }
        else row }
  else batch

def closeAttempt (batch : StoredBatch) (id attempt : ℕ) (outcome : AttemptOutcome)
    (cost : Option ℚ) (billing : CostStatus) : StoredBatch :=
  { batch with
    attempts := batch.attempts.map fun row =>
      if row.item = id ∧ row.attemptNo = attempt ∧ row.outcome = none then
        { row with outcome := some outcome, costUsd := cost, costStatus := some billing }
      else row }

def bill (job : Job) (cost : Option ℚ) (billing : CostStatus) : Job :=
  { job with
    costUsd := job.costUsd + cost.getD 0
    unknownCostCount := job.unknownCostCount + if billing = .unknown then 1 else 0 }

/-- `_guarded_item_write`: the item rewritten, when the worker's claim still
holds. -/
def guardedItemWrite (batch : StoredBatch) (id : ℕ) (worker : String) (attempt : ℕ)
    (rewrite : Item → Item) : Option StoredBatch :=
  match batch.items[id]? with
  | none => none
  | some item =>
    if item.guarded worker attempt then
      some { batch with items := batch.items.set id (rewrite item) }
    else none

def countReport (job : Job) (report : Report) : Job :=
  { job with
    completedCount := job.completedCount + if report.storedError.isNone then 1 else 0
    failedCount := job.failedCount + if report.storedError.isNone then 0 else 1 }

def recordAttempt (batch : StoredBatch) (id attempt : ℕ) (outcome : AttemptOutcome)
    (cost : Option ℚ) (billing : CostStatus) : StoredBatch :=
  let closed := batch.closeAttempt id attempt outcome cost billing
  { closed with job := bill closed.job cost billing }

def recordReport (batch : StoredBatch) (id attempt : ℕ) (report : Report) : StoredBatch :=
  let recorded := batch.recordAttempt id attempt
    (if report.storedError.isNone then .succeeded else .failed)
    (report.cost report.billing) report.billing
  { recorded with job := countReport recorded.job report }

def completeItem (batch : StoredBatch) (id : ℕ) (worker : String) (attempt : ℕ)
    (report : Report) (now : ℚ) : StoredBatch :=
  match batch.guardedItemWrite id worker attempt (Item.complete report) with
  | none => batch
  | some written => (written.recordReport id attempt report).settle now batch.job.status

def retryItem (batch : StoredBatch) (id : ℕ) (worker : String) (attempt : ℕ)
    (report : Report) (nextAttemptAt now : ℚ) : StoredBatch :=
  match batch.guardedItemWrite id worker attempt (Item.retry report nextAttemptAt) with
  | none => batch
  | some written =>
    (written.recordAttempt id attempt .retry (report.cost report.retryBilling)
      report.retryBilling).settle now batch.job.status

def releaseItem (batch : StoredBatch) (id : ℕ) (worker : String) (attempt : ℕ)
    (nextAttemptAt : Option ℚ) (dispatched : Bool) (now : ℚ) : StoredBatch :=
  match batch.guardedItemWrite id worker attempt (Item.release nextAttemptAt dispatched) with
  | none => batch
  | some written =>
    (written.recordAttempt id attempt (if dispatched then .abandoned else .released) none
      (if dispatched then .unknown else .notBilled)).settle now batch.job.status

def stop (batch : StoredBatch) (now : ℚ) (status : BatchStatus) : StoredBatch :=
  (batch.withStatus status).settle now status

def cancelBatch (batch : StoredBatch) (now : ℚ) : StoredBatch :=
  if !batch.job.deleteRequested && batch.job.stoppable then batch.stop now .cancelling else batch

def failBatch (batch : StoredBatch) (now : ℚ) : StoredBatch :=
  if batch.job.stoppable then batch.stop now .failed else batch

/-- The first part of `sweep`. -/
def sweepExpired (batch : StoredBatch) (now : ℚ) : StoredBatch :=
  if batch.job.stoppable && batch.job.expiresAt.any (· ≤ now) then batch.stop now .expired
  else batch

/-- The second part of `sweep`. Its candidates were read before the lock, so it
may find the batch in any state. -/
def sweepSettled (batch : StoredBatch) (now : ℚ) : StoredBatch :=
  batch.settle now batch.job.status

def commitSeal (batch : StoredBatch) (worker : String) (generation : ℕ) : StoredBatch :=
  if batch.job.phase = .sealing ∧ batch.job.workOwner = some worker ∧
      batch.job.sealGeneration = generation ∧ !batch.job.deleteRequested then
    { batch with
      job := { batch.job with
        phase := .sealed
        status := batch.job.pendingTerminalStatus.getD .completed
        workOwner := none
        workExpiresAt := none } }
  else batch

/-- `pause_user_batches` on this batch. -/
def pause (batch : StoredBatch) (resumeAt : ℚ) : StoredBatch :=
  if batch.job.status = .validating ∨ batch.job.status = .inProgress then
    { batch with job := { batch.job with pausedUntil := some resumeAt } }
  else batch

/-- `delete_batch` of a batch that is being read, whose rows stay; it is refused
while an item has a live lease. -/
def requestDelete (batch : StoredBatch) (now : ℚ) : StoredBatch :=
  if batch.items.any fun item => item.status = .running && item.leaseExpiresAt.any (now < ·) then
    batch
  else { batch with job := { batch.job with deleteRequested := true } }

end StoredBatch

inductive Transaction where
  | stageItems (worker : String) (modelIds : List String) (now : ℚ)
  | resetStagedItems (worker : String)
  | publishValidated (worker : String) (now : ℚ)
  | failValidation (worker : Option String)
  | claimBatchWork (phase : Phase) (worker : String) (now leaseSeconds : ℚ)
  | extendBatchWork (phase : Phase) (worker : String) (now leaseSeconds : ℚ)
  | claimItems (worker model : String) (ids : List ℕ) (now leaseSeconds : ℚ)
  | heartbeat (worker : String) (ids : List ℕ) (now leaseSeconds : ℚ)
  | markDispatched (id : ℕ) (worker : String) (attempt : ℕ)
  | completeItem (id : ℕ) (worker : String) (attempt : ℕ) (report : Report) (now : ℚ)
  | retryItem (id : ℕ) (worker : String) (attempt : ℕ) (report : Report) (nextAttemptAt now : ℚ)
  | releaseItem (id : ℕ) (worker : String) (attempt : ℕ) (nextAttemptAt : Option ℚ)
      (dispatched : Bool) (now : ℚ)
  | cancelBatch (now : ℚ)
  | failBatch (now : ℚ)
  | sweepExpired (now : ℚ)
  | sweepSettled (now : ℚ)
  | commitSeal (worker : String) (generation : ℕ)
  | pause (resumeAt : ℚ)
  | requestDelete (now : ℚ)

def StoredBatch.after (batch : StoredBatch) : Transaction → StoredBatch
  | .stageItems worker modelIds now => batch.stageItems worker modelIds now
  | .resetStagedItems worker => batch.resetStagedItems worker
  | .publishValidated worker now => batch.publishValidated worker now
  | .failValidation worker => batch.failValidation worker
  | .claimBatchWork phase worker now leaseSeconds =>
    batch.claimBatchWork phase worker now leaseSeconds
  | .extendBatchWork phase worker now leaseSeconds =>
    batch.extendBatchWork phase worker now leaseSeconds
  | .claimItems worker model ids now leaseSeconds =>
    batch.claimItems worker model ids now leaseSeconds
  | .heartbeat worker ids now leaseSeconds => batch.heartbeat worker ids now leaseSeconds
  | .markDispatched id worker attempt => batch.markDispatched id worker attempt
  | .completeItem id worker attempt report now => batch.completeItem id worker attempt report now
  | .retryItem id worker attempt report nextAttemptAt now =>
    batch.retryItem id worker attempt report nextAttemptAt now
  | .releaseItem id worker attempt nextAttemptAt dispatched now =>
    batch.releaseItem id worker attempt nextAttemptAt dispatched now
  | .cancelBatch now => batch.cancelBatch now
  | .failBatch now => batch.failBatch now
  | .sweepExpired now => batch.sweepExpired now
  | .sweepSettled now => batch.sweepSettled now
  | .commitSeal worker generation => batch.commitSeal worker generation
  | .pause resumeAt => batch.pause resumeAt
  | .requestDelete now => batch.requestDelete now

def batchMachine : Machine StoredBatch Transaction where
  step batch transaction := some (batch.after transaction)

end HybridInference.Batch
