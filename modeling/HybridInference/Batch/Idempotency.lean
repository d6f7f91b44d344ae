import HybridInference.Batch.Caps
import HybridInference.Batch.Refinement
import HybridInference.Library.Dict

/-!
# Idempotent creation of batches

The record of one owner, surface and `Idempotency-Key`, and the batches created under
it: `create_batch` and `create_console_batch` statement by statement, every transaction
on the batches, `delete_batch`, the purge, and what `sweep` does to the record. `now()`
is fixed when a transaction begins, so it may lie behind the clock.

The history of what was committed is kept besides the tables; the code reads none of it.
-/

namespace HybridInference.Batch

open Library

def idempotencyRetention : ℚ := 24 * 3600

/-- A row of `batch_idempotency`. -/
structure IdempotencyRecord where
  requestDigest : String
  batchId : String
  deletedAt : Option ℚ := none
  expiresAt : Option ℚ := none
  deriving DecidableEq

/-- A row of `batch_jobs`, with the columns that say when the batch ended. No batch has
two of the timestamps of the final statuses. -/
structure KeyedBatch where
  batch : StoredBatch
  requestDigest : String
  console : Bool
  retentionSeconds : Option ℚ
  createdAt : ℚ
  sealedAt : Option ℚ := none
  finalAt : Option ℚ := none

namespace KeyedBatch

def endedAt (row : KeyedBatch) : Option ℚ :=
  row.sealedAt.or row.finalAt

def isOver (row : KeyedBatch) : Bool :=
  row.batch.job.status.terminal &&
    (row.batch.job.phase = .runnable || row.batch.job.phase = .sealed)

def recordExpiry (row : KeyedBatch) : Option ℚ :=
  if row.isOver then row.endedAt.map (· + idempotencyRetention) else none

def write (row : KeyedBatch) (batch : StoredBatch) (now : ℚ) : KeyedBatch :=
  { row with
    batch := batch
    sealedAt :=
      if batch.job.phase = .sealed && row.batch.job.phase ≠ .sealed then some now else row.sealedAt
    finalAt :=
      if batch.job.status.terminal && !row.batch.job.status.terminal then some now
      else row.finalAt }

def isDraining (row : KeyedBatch) : Bool :=
  row.batch.job.apiSurface = .openaiFile && row.batch.job.phase = .runnable &&
    row.batch.job.status.terminal

end KeyedBatch

inductive KeyEntry where
  | created (id requestDigest : String)
  /-- A file batch was sealed, or another one was given its final status or sealed. -/
  | ended (id : String) (moment : ℚ)
  | deleted (id : String) (moment clock : ℚ)
  | purged (id : String)
  deriving DecidableEq

def KeyEntry.id : KeyEntry → String
  | .created id _ => id
  | .ended id _ => id
  | .deleted id _ _ => id
  | .purged id => id

structure KeyedCreate where
  batchId : String
  requestDigest : String
  creation : Creation
  console : Bool
  retentionSeconds : Option ℚ
  now : ℚ

inductive CreateOutcome where
  | created
  | replayed (id : String)
  | conflict (id : String)
  | tombstoned (id : String)
  | limitExceeded
  | refused
  deriving DecidableEq

inductive CreateStage where
  | waiting
  | locked
  | unrecorded
  | unanswered
  | admitted
  | ended (outcome : CreateOutcome)
  deriving DecidableEq

def CreateStage.isLocked : CreateStage → Bool
  | .locked | .unrecorded | .unanswered | .admitted => true
  | .waiting | .ended _ => false

def CreateStage.isPast : CreateStage → Bool
  | .unrecorded | .unanswered | .admitted => true
  | .waiting | .locked | .ended _ => false

structure KeyStore where
  clock : ℚ := 0
  record : Option IdempotencyRecord := none
  batches : Dict String KeyedBatch := ∅
  creates : List (KeyedCreate × CreateStage) := []
  history : List KeyEntry := []

inductive KeyEvent where
  | tick (clock : ℚ)
  | beginCreate (create : KeyedCreate)
  | lock (place : ℕ)
  | lookup (place : ℕ)
  | lookupConsole (place : ℕ)
  | checkCaps (place : ℕ) (full : Bool)
  | commit (place : ℕ)
  | rollback (place : ℕ)
  | transact (id : String) (transaction : Transaction) (now : ℚ)
  | deleteBatch (id : String) (now : ℚ) (reading : Bool)
  | purge (id : String) (now retention : ℚ)
  /-- The three statements of `sweep` on the records. -/
  | freeze
  | vanish (now : ℚ)
  | drop (now : ℚ)

def Transaction.clock : Transaction → Option ℚ
  | .stageItems _ _ now => some now
  | .publishValidated _ now => some now
  | .claimBatchWork _ _ now _ => some now
  | .extendBatchWork _ _ now _ => some now
  | .claimItems _ _ _ now _ => some now
  | .heartbeat _ _ now _ => some now
  | .completeItem _ _ _ _ now => some now
  | .retryItem _ _ _ _ _ now => some now
  | .releaseItem _ _ _ _ _ now => some now
  | .cancelBatch now => some now
  | .failBatch now => some now
  | .sweepExpired now => some now
  | .sweepSettled now => some now
  | .requestDelete now => some now
  | .resetStagedItems _ | .failValidation _ | .markDispatched _ _ _ | .commitSeal _ _
  | .pause _ => none

def Transaction.isRequestDelete : Transaction → Bool
  | .requestDelete _ => true
  | _ => false

def endsOf (surface : Surface) (id : String) (before after : Job) (now : ℚ) : List KeyEntry :=
  (if after.phase = .sealed && before.phase ≠ .sealed then [.ended id now] else []) ++
    if surface ≠ .openaiFile && after.status.terminal && !before.status.terminal then
      [.ended id now]
    else []

namespace KeyStore

variable (surface : Surface)

def setCreate (store : KeyStore) (place : ℕ) (create : KeyedCreate) (stage : CreateStage) :
    KeyStore :=
  { store with creates := store.creates.set place (create, stage) }

/-- `_IDEMPOTENCY_LIVE`. -/
def isLive (store : KeyStore) (record : IdempotencyRecord) (now : ℚ) : Bool :=
  (record.expiresAt.or ((store.batches.find record.batchId).bind KeyedBatch.recordExpiry)).all
    (now < ·)

def isStored (store : KeyStore) (id : String) : Bool :=
  (store.batches.find id).any fun row => !row.batch.job.deleteRequested

/-- `_idempotent_replay`; without a record that counts, what is left of one is deleted. -/
def replay (store : KeyStore) (create : KeyedCreate) : Option CreateOutcome :=
  match store.record with
  | some record =>
    if store.isLive record create.now then
      if record.requestDigest ≠ create.requestDigest then some (.conflict record.batchId)
      else if record.deletedAt.isSome || !store.isStored record.batchId then
        some (.tombstoned record.batchId)
      else some (.replayed record.batchId)
    else none
  | none => none

def consoleRow (store : KeyStore) : Option (String × KeyedBatch) :=
  ((store.batches.keysWhere fun row => row.console && !row.batch.job.deleteRequested).filterMap
    fun id => (store.batches.find id).map fun row => (id, row)).foldl (fun newest row =>
        match newest with
        | some other => if row.2.createdAt ≤ other.2.createdAt then newest else some row
        | none => some row) none

def consoleRowReplay (store : KeyStore) (create : KeyedCreate) : Option CreateOutcome :=
  store.consoleRow.map fun (id, row) =>
    if row.requestDigest ≠ create.requestDigest then .conflict id else .replayed id

def newRow (create : KeyedCreate) : KeyedBatch :=
  let batch := create.creation.stored create.now
  { batch := batch
    requestDigest := create.requestDigest
    console := create.console
    retentionSeconds := create.retentionSeconds
    createdAt := create.now
    sealedAt := if batch.job.phase = .sealed then some create.now else none
    finalAt := if batch.job.status.terminal then some create.now else none }

def isProper (create : KeyedCreate) : Bool :=
  create.creation.surface = surface &&
    (create.creation.requests.isNone == decide (surface = .openaiFile)) &&
    (!create.console || surface = .openaiFile)

def isFresh (store : KeyStore) (id : String) : Bool :=
  store.creates.all (fun entry => entry.1.batchId ≠ id) &&
    (store.batches.find id).isNone && store.history.all fun entry => entry.id ≠ id

def hasLiveItem (row : KeyedBatch) (moment : ℚ) : Bool :=
  row.batch.items.any fun item => item.status = .running && item.leaseExpiresAt.any (moment < ·)

/-- `delete_batch`: the record, then the batch, which stays while it is read. -/
def deleteBatch (store : KeyStore) (id : String) (now : ℚ) (reading : Bool) : KeyStore :=
  match store.batches.find id with
  | some row =>
    if row.batch.job.deleteRequested || hasLiveItem row store.clock then store
    else
      { store with
        record := store.record.map fun record =>
          if record.batchId = id then
            { record with
              deletedAt := some now
              expiresAt := some (max (record.expiresAt.getD now) (now + idempotencyRetention)) }
          else record
        batches :=
          if reading then
            store.batches.insert id { row with batch := row.batch.requestDelete store.clock }
          else store.batches.erase id
        history := store.history ++ [.deleted id now store.clock] }
  | none => store

/-- `_PURGEABLE`, but for the leases of readers. -/
def isPurgeable (row : KeyedBatch) (now retention : ℚ) : Bool :=
  ((row.isOver &&
        row.endedAt.any fun moment => moment < now - row.retentionSeconds.getD retention) ||
      row.batch.job.deleteRequested) &&
    !hasLiveItem row now

/-- `_PURGE_ONE_SQL`. -/
def purge (store : KeyStore) (id : String) (now retention : ℚ) : KeyStore :=
  match store.batches.find id with
  | some row =>
    if isPurgeable row now retention then
      { store with
        record := store.record.map fun record =>
          if record.batchId = id then
            { record with
              deletedAt := record.deletedAt.or (some now)
              expiresAt := (record.expiresAt.or (row.endedAt.map (· + idempotencyRetention))).or
                  (some (now + idempotencyRetention)) }
          else record
        batches := store.batches.erase id
        history := store.history ++ [.purged id] }
    else store
  | none => store

def freeze (store : KeyStore) : KeyStore :=
  { store with
    record := store.record.map fun record =>
      { record with
        expiresAt := record.expiresAt.or
          ((store.batches.find record.batchId).bind KeyedBatch.recordExpiry) } }

def vanish (store : KeyStore) (now : ℚ) : KeyStore :=
  { store with
    record := store.record.map fun record =>
      if record.expiresAt.isNone && (store.batches.find record.batchId).isNone then
        { record with expiresAt := some now }
      else record }

def drop (store : KeyStore) (now : ℚ) : KeyStore :=
  { store with record := store.record.filter fun record => !record.expiresAt.any (· ≤ now) }

def step (store : KeyStore) : KeyEvent → Option KeyStore
  | .tick clock => if store.clock ≤ clock then some { store with clock } else none
  | .beginCreate create =>
    if create.now = store.clock && isProper surface create && store.isFresh create.batchId then
      some { store with creates := store.creates ++ [(create, .waiting)] }
    else none
  | .lock place =>
    match store.creates[place]? with
    | some (create, .waiting) =>
      if store.creates.any fun entry => entry.2.isLocked then none
      else some (store.setCreate place create .locked)
    | _ => none
  | .lookup place =>
    match store.creates[place]? with
    | some (create, .locked) =>
      match store.replay create with
      | some outcome => some (store.setCreate place create (.ended outcome))
      | none => some (store.setCreate place create .unrecorded)
    | _ => none
  | .lookupConsole place =>
    match store.creates[place]? with
    | some (create, .unrecorded) =>
      if create.console then
        match store.consoleRowReplay create with
        | some (.replayed id) =>
          some { store.setCreate place create (.ended (.replayed id)) with record := none }
        | some outcome => some (store.setCreate place create (.ended outcome))
        | none => some (store.setCreate place create .unanswered)
      else some (store.setCreate place create .unanswered)
    | _ => none
  | .checkCaps place full =>
    match store.creates[place]? with
    | some (create, .unanswered) =>
      if full then some (store.setCreate place create (.ended .limitExceeded))
      else some (store.setCreate place create .admitted)
    | _ => none
  | .commit place =>
    match store.creates[place]? with
    | some (create, .admitted) =>
      let row := newRow create
      some { store.setCreate place create (.ended .created) with
        record := some { requestDigest := create.requestDigest, batchId := create.batchId }
        batches := store.batches.insert create.batchId row
        history := store.history ++ .created create.batchId create.requestDigest ::
          ((if row.sealedAt.isSome then [.ended create.batchId create.now] else []) ++
            if surface ≠ .openaiFile && row.finalAt.isSome then
              [.ended create.batchId create.now]
            else []) }
    | _ => none
  | .rollback place =>
    match store.creates[place]? with
    | some (_, .ended _) => none
    | some (create, _) => some (store.setCreate place create (.ended .refused))
    | none => none
  | .transact id transaction now =>
    if transaction.isRequestDelete || !transaction.clock.all (· = now) || store.clock < now then
      none
    else
      match store.batches.find id with
      | some row =>
        let batch := row.batch.after transaction
        some { store with
          batches := store.batches.insert id (row.write batch now)
          history := store.history ++ endsOf surface id row.batch.job batch.job now }
      | none => none
  | .deleteBatch id now reading =>
    if store.clock < now then none else some (store.deleteBatch id now reading)
  | .purge id now retention =>
    if store.clock < now then none else some (store.purge id now retention)
  | .freeze => some store.freeze
  | .vanish now => if store.clock < now then none else some (store.vanish now)
  | .drop now => if store.clock < now then none else some (store.drop now)

def machine : Machine KeyStore KeyEvent where
  step := step surface

def isDraining (store : KeyStore) (record : IdempotencyRecord) : Bool :=
  record.expiresAt.isNone && (store.batches.find record.batchId).any KeyedBatch.isDraining

def premature (store : KeyStore) : KeyEvent → Bool
  | .lookup place =>
    store.record.any fun record => store.isDraining record &&
      store.creates[place]?.any fun entry => !store.isLive record entry.1.now
  | .purge id _ _ => store.record.any fun record => record.batchId = id && store.isDraining record
  | .freeze => store.record.any store.isDraining
  | _ => false

end KeyStore

/-- The moment a batch's record protects it until, as far as the history goes: a day after it ended
or was last deleted. -/
def extendProtection (id : String) (bound : Option ℚ) : KeyEntry → Option ℚ
  | .created _ _ | .purged _ => bound
  | .ended other moment =>
    if other = id then
      some ((bound.map (min · (moment + idempotencyRetention))).getD
        (moment + idempotencyRetention))
    else bound
  | .deleted other moment clock =>
    if other = id && bound.all (clock < ·) then some (moment + idempotencyRetention) else bound

def protection (history : List KeyEntry) (id : String) : Option ℚ :=
  history.foldl (extendProtection id) none

def Protected (history : List KeyEntry) (id : String) (clock : ℚ) : Prop :=
  (∃ requestDigest, KeyEntry.created id requestDigest ∈ history) ∧
    ∀ bound, protection history id = some bound → clock < bound

def Gone (history : List KeyEntry) (id : String) : Prop :=
  (∃ moment clock, KeyEntry.deleted id moment clock ∈ history) ∨ KeyEntry.purged id ∈ history

def EndsAt (history : List KeyEntry) (id : String) (moment : ℚ) : Prop :=
  KeyEntry.ended id moment ∈ history ∨ ∃ clock, KeyEntry.deleted id moment clock ∈ history

end HybridInference.Batch
