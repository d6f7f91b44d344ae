import HybridInference.Library.Machine
import Mathlib.Algebra.Order.Field.Rat

/-!
# The batch store

The transactions of `serving.storage.batch_store` on one batch: its row of
`batch_jobs`, its `batch_items` and their `batch_attempts`. Every transaction
that moves a status or a counter first locks the batch's row, so each is one
step here; only `heartbeat` and `mark_dispatched` do not, and they touch leases
and attempts alone. `now()` is an argument, free in every step.

An item is named by its position in the batch. Items are removed only while the
batch is validated, when none of them was ever claimed. The columns that no
transaction reads (payloads, token counts, timestamps of the row) are left out.
-/

namespace HybridInference.Batch

open Library

inductive ItemStatus where
  | queued
  | running
  | completed
  | failed
  | cancelled
  | expired
  deriving DecidableEq

inductive BatchStatus where
  | validating
  | inProgress
  | cancelling
  | completed
  | failed
  | expired
  | cancelled
  deriving DecidableEq

inductive Phase where
  | validating
  | runnable
  | sealing
  | sealed
  deriving DecidableEq

inductive Surface where
  | openaiInline
  | openaiFile
  | anthropic
  deriving DecidableEq

inductive CostStatus where
  | billed
  | notBilled
  | unknown
  deriving DecidableEq

inductive AttemptOutcome where
  | succeeded
  | failed
  | retry
  | released
  | abandoned
  deriving DecidableEq

inductive ItemCostStatus where
  | known
  | unknown
  deriving DecidableEq

structure ItemError where
  code : String
  message : String
  status : Option ℕ := none
  deriving DecidableEq

/-- A row of `batch_items`. -/
structure Item where
  modelId : String
  status : ItemStatus := .queued
  attempts : ℕ := 0
  attemptSeq : ℕ := 0
  claimedBy : Option String := none
  leaseExpiresAt : Option ℚ := none
  nextAttemptAt : Option ℚ := none
  error : Option ItemError := none
  costUsd : Option ℚ := none
  costStatus : Option ItemCostStatus := none
  deriving DecidableEq

/-- A row of `batch_attempts`. -/
structure Attempt where
  item : ℕ
  attemptNo : ℕ
  worker : String
  dispatched : Bool := false
  outcome : Option AttemptOutcome := none
  costUsd : Option ℚ := none
  costStatus : Option CostStatus := none
  deriving DecidableEq

/-- A row of `batch_jobs`. -/
structure Job where
  apiSurface : Surface
  schemaVersion : ℕ := 2
  phase : Phase
  status : BatchStatus := .validating
  pendingTerminalStatus : Option BatchStatus := none
  requestCount : ℕ := 0
  completedCount : ℕ := 0
  failedCount : ℕ := 0
  cancelledCount : ℕ := 0
  expiredCount : ℕ := 0
  costUsd : ℚ := 0
  unknownCostCount : ℕ := 0
  workOwner : Option String := none
  workExpiresAt : Option ℚ := none
  sealGeneration : ℕ := 0
  expiresAt : Option ℚ := none
  pausedUntil : Option ℚ := none
  deleteRequested : Bool := false
  deriving DecidableEq

structure StoredBatch where
  job : Job
  items : List Item := []
  attempts : List Attempt := []
  deriving DecidableEq

def ItemStatus.isOpen (status : ItemStatus) : Bool :=
  status = .queued || status = .running

def Item.isOpen (item : Item) : Bool :=
  item.status.isOpen

/-- `lease_expires_at <= now()` of a running item. -/
def Item.leaseRanOut (now : ℚ) (item : Item) : Bool :=
  item.status = .running && item.leaseExpiresAt.any (· ≤ now)

/-- The items `_SETTLE_ITEMS_SQL` picks. -/
def Item.settles (now : ℚ) (item : Item) : Bool :=
  item.status = .queued || item.leaseRanOut now

/-- The condition of `_CLAIM_ITEMS_SQL` on an item. -/
def Item.claimable (now : ℚ) (item : Item) : Bool :=
  (item.status = .queued && item.nextAttemptAt.all (· ≤ now)) || item.leaseRanOut now

/-- `_ITEM_VERDICTS`. -/
def itemVerdict : BatchStatus → Option (ItemStatus × Option ItemError)
  | .cancelling => some (.cancelled, none)
  | .failed =>
    some (.failed,
      some { code := "batch_failed", message := "The batch failed before this request ran." })
  | .expired =>
    some (.expired,
      some
        { code := "batch_expired"
          message := "The batch's completion window ended before this request ran." })
  | .validating | .inProgress | .completed | .cancelled => none

def finalStatus : BatchStatus → Option BatchStatus
  | .validating | .inProgress => some .completed
  | .cancelling => some .cancelled
  | .failed => some .failed
  | .expired => some .expired
  | .completed | .cancelled => none

namespace StoredBatch

def hasOpenItems (batch : StoredBatch) : Bool :=
  batch.items.any Item.isOpen

/-- An attempt as `_abandon_attempts` closes it. -/
def abandonAttempt (attempt : Attempt) : Attempt :=
  { attempt with
    outcome := some .abandoned
    costStatus := some (if attempt.dispatched then .unknown else .notBilled) }

/-- `_abandon_attempts`, for the (item, attempt) pairs given. -/
def abandonAttempts (batch : StoredBatch) (stale : List (ℕ × ℕ)) : StoredBatch :=
  let closes (attempt : Attempt) : Bool :=
    attempt.outcome = none && stale.contains (attempt.item, attempt.attemptNo)
  let unknown := (batch.attempts.filter fun attempt => closes attempt && attempt.dispatched).map
    Attempt.item
  { job := { batch.job with unknownCostCount := batch.job.unknownCostCount + unknown.length }
    items := batch.items.mapIdx fun index item =>
      if unknown.contains index then { item with costStatus := some .unknown } else item
    attempts := batch.attempts.map fun attempt =>
      if closes attempt then abandonAttempt attempt else attempt }

/-- The items that `chosen` picks, with their current attempts. -/
def attemptsOf (batch : StoredBatch) (chosen : Item → Bool) : List (ℕ × ℕ) :=
  (batch.items.zipIdx.filter fun entry => chosen entry.1).map fun entry =>
    (entry.2, entry.1.attemptSeq)

def settleItems (batch : StoredBatch) (now : ℚ) (status : ItemStatus) (error : Option ItemError) :
    StoredBatch :=
  { batch with
    items := batch.items.map fun item =>
      if item.settles now then
        { item with
          status := status
          error := error.or item.error
          nextAttemptAt := none
          leaseExpiresAt := none }
      else item }

/-- The counters a settlement of `settled` items moves. -/
def countSettled (job : Job) (status : BatchStatus) (settled : ℕ) : Job :=
  if status = .cancelling then { job with cancelledCount := job.cancelledCount + settled }
  else
    { job with
      failedCount := job.failedCount + settled
      expiredCount := job.expiredCount + if status = .expired then settled else 0 }

def finalize (batch : StoredBatch) (final : BatchStatus) : StoredBatch :=
  if batch.job.phase = .sealing || batch.job.phase = .sealed then batch
  else if batch.job.apiSurface = .openaiFile then
    { batch with
      job := { batch.job with
        phase := .sealing
        pendingTerminalStatus := some final
        workOwner := none
        workExpiresAt := none } }
  else
    { batch with
      job := { batch.job with
        status := final, phase := .sealed, pendingTerminalStatus := some final } }

def passVerdict (batch : StoredBatch) (now : ℚ) (status : BatchStatus) : StoredBatch :=
  match itemVerdict status with
  | none => batch
  | some (itemStatus, error) =>
    let abandoned := batch.abandonAttempts (batch.attemptsOf (Item.leaseRanOut now))
    let settled := abandoned.items.countP (Item.settles now)
    let settledBatch := abandoned.settleItems now itemStatus error
    { settledBatch with job := countSettled settledBatch.job status settled }

def settle (batch : StoredBatch) (now : ℚ) (status : BatchStatus) : StoredBatch :=
  if batch.job.phase ≠ .runnable then batch
  else
    let settled := batch.passVerdict now status
    match finalStatus status with
    | none => settled
    | some final =>
      if settled.hasOpenItems then settled
      else if (status = .failed || status = .expired) && batch.job.schemaVersion < 2 then settled
      else settled.finalize final

structure NewItem where
  modelId : String
  error : Option ItemError

def admitted (requests : List NewItem) : List NewItem :=
  requests.filter fun request => request.error.isNone

def refused (requests : List NewItem) : List NewItem :=
  requests.filter fun request => request.error.isSome

/-- The rows `_insert_batch` writes: the queued items, then those that failed
admission. -/
def inserted (surface : Surface) (phase : Phase) (status : BatchStatus)
    (expiresAt : Option ℚ) (requests : List NewItem) : StoredBatch where
  job :=
    { apiSurface := surface
      phase := phase
      status := status
      expiresAt := expiresAt
      requestCount := requests.length
      failedCount := (refused requests).length }
  items :=
    (admitted requests).map (fun request => { modelId := request.modelId }) ++
      (refused requests).map fun request =>
        { modelId := request.modelId, status := .failed, error := request.error }

/-- `_insert_batch`, which settles the batch at once when no item may ever report
back. -/
def insertBatch (surface : Surface) (phase : Phase) (status : BatchStatus)
    (expiresAt : Option ℚ) (requests : List NewItem) (now : ℚ) : StoredBatch :=
  if phase = .runnable ∧ (refused requests ≠ [] ∨ admitted requests = []) then
    (inserted surface phase status expiresAt requests).settle now status
  else inserted surface phase status expiresAt requests

/-- `create_batch` of a batch whose requests are known. -/
def create (surface : Surface) (expiresAt : Option ℚ) (requests : List NewItem) (now : ℚ) :
    StoredBatch :=
  insertBatch surface .runnable .validating expiresAt requests now

/-- `create_batch` and `create_console_batch` of a batch over an input file, whose
items its validator adds. -/
def createForValidation (surface : Surface) (expiresAt : Option ℚ) (now : ℚ) : StoredBatch :=
  insertBatch surface .validating .validating expiresAt [] now

end StoredBatch

end HybridInference.Batch
