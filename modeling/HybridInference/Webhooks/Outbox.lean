import HybridInference.Library.ListUpdate
import HybridInference.Library.Machine
import Mathlib.Algebra.Order.Ring.Rat

/-!
# The webhook outbox

The tables `batch_jobs`, `batch_webhooks` and `batch_webhook_events` as the transactions
of the store leave them, with the row locks that are held. A table is a function from its
key; a statement that began is kept with the table it read. A transaction that writes a
single row is one step, at its commit: the row is locked from the write on, and nobody
sees it before.
-/

namespace HybridInference.Webhooks

open Library

inductive Phase where
  | running
  | sealing
  | sealed
  deriving DecidableEq

structure BatchJob where
  userId : String
  /-- The surface is the file one, so the batch is handed to a sealer. -/
  isFile : Bool
  phase : Phase

/-- A row of `batch_webhooks`; one that is created again is another row. -/
structure Webhook where
  version : ℕ
  enabled : Bool

inductive EventStatus where
  | pending
  | delivered
  | failed
  deriving DecidableEq

inductive Entry where
  | claimed (attempt : ℕ) (worker : String) (moment until_ : ℚ)
  | delivered (attempt : ℕ)
  | failed (attempt : ℕ) (retry : Option ℚ)
  | givenUp
  deriving DecidableEq

/-- A row of `batch_webhook_events`, with its history. -/
structure WebhookEvent where
  userId : String
  batchId : String
  status : EventStatus := .pending
  attempts : ℕ := 0
  nextAttemptAt : ℚ
  leaseOwner : Option String := none
  leaseExpiresAt : Option ℚ := none
  history : List Entry := []
  deriving DecidableEq

namespace WebhookEvent

def leaseIsFree (event : WebhookEvent) (now : ℚ) : Bool :=
  match event.leaseExpiresAt with
  | none => true
  | some expires => expires ≤ now

/-- The conditions of `claim_due_events`. -/
def isDue (event : WebhookEvent) (maxAttempts : ℕ) (now : ℚ) : Bool :=
  event.status = .pending && event.nextAttemptAt ≤ now && event.attempts < maxAttempts &&
    event.leaseIsFree now

def claim (event : WebhookEvent) (worker : String) (now leaseSeconds : ℚ) : WebhookEvent :=
  { event with
    leaseOwner := some worker
    leaseExpiresAt := some (now + leaseSeconds)
    attempts := event.attempts + 1
    history := event.history ++ [.claimed (event.attempts + 1) worker now (now + leaseSeconds)] }

/-- The conditions of the first statement of `fail_exhausted`. -/
def isExhausted (event : WebhookEvent) (maxAttempts : ℕ) (now : ℚ) : Bool :=
  event.status = .pending && maxAttempts ≤ event.attempts && event.leaseIsFree now

def failExhausted (event : WebhookEvent) : WebhookEvent :=
  { event with status := .failed, history := event.history ++ [.givenUp] }

def failOrphaned (event : WebhookEvent) : WebhookEvent :=
  { event with
    status := .failed
    leaseOwner := none
    leaseExpiresAt := none
    history := event.history ++ [.givenUp] }

def isHeld (event : WebhookEvent) (worker : String) (attempt : ℕ) : Bool :=
  event.leaseOwner = some worker && event.attempts = attempt && event.status = .pending

def markDelivered (event : WebhookEvent) (worker : String) (attempt : ℕ) : WebhookEvent :=
  if event.isHeld worker attempt then
    { event with
      status := .delivered
      leaseOwner := none
      leaseExpiresAt := none
      history := event.history ++ [.delivered attempt] }
  else event

def markFailed (event : WebhookEvent) (worker : String) (attempt : ℕ)
    (nextAttemptAt : Option ℚ) : WebhookEvent :=
  if event.isHeld worker attempt then
    { event with
      status := if nextAttemptAt = none then .failed else .pending
      nextAttemptAt := nextAttemptAt.getD event.nextAttemptAt
      leaseOwner := none
      leaseExpiresAt := none
      history := event.history ++ [.failed attempt nextAttemptAt] }
  else event

end WebhookEvent

abbrev Batches := String → Option BatchJob

abbrev Hooks := String → Option Webhook

abbrev Events := ℕ → Option WebhookEvent

/-- A transaction that ends a batch: `_finalize` or `commit_seal`. -/
inductive SealStage where
  /-- The row of the batch is locked and moved on. -/
  | moved (enqueues : Bool)
  /-- `_enqueue_event` has begun to read the webhook, and saw this row. -/
  | looking (seen : Option ℕ)
  /-- The row of the webhook is locked `FOR KEY SHARE`, when it is there. -/
  | ready (held : Option ℕ) (enqueues : Bool)
  | ended
  deriving DecidableEq

structure Seal where
  batchId : String
  userId : String
  target : Phase
  /-- `now()`, of a transaction that may have waited for the row. -/
  moment : ℚ
  stage : SealStage

/-- A transaction of `delete_webhook`. -/
inductive RemovalStage where
  | looking (seen : Option ℕ)
  /-- The first statement has ended; `took` when it deleted the webhook. -/
  | hookDone (took : Bool)
  /-- The second statement, and the events it has not come to yet. -/
  | removing (took : Bool) (left : List ℕ)
  | ended
  deriving DecidableEq

structure Removal where
  userId : String
  stage : RemovalStage

inductive SweepKind where
  | claim (worker : String) (leaseSeconds : ℚ) (limit : ℕ)
  | exhausted
  | orphaned

inductive SweepStage where
  | begun
  | running (hooks : Hooks) (events : Events) (taken : ℕ)
  | ended

structure Sweep where
  kind : SweepKind
  /-- `now()`. -/
  moment : ℚ
  stage : SweepStage

inductive Holder where
  | removal (place : ℕ)
  | sweep (place : ℕ)
  deriving DecidableEq

namespace SweepKind

def applies (kind : SweepKind) (maxAttempts : ℕ) (now : ℚ) (hooks : Hooks)
    (event : WebhookEvent) : Bool :=
  match kind with
  | .claim _ _ _ => event.isDue maxAttempts now && (hooks event.userId).isSome
  | .exhausted => event.isExhausted maxAttempts now
  | .orphaned => event.status = .pending && (hooks event.userId).isNone

def hasRoom (kind : SweepKind) (taken : ℕ) : Bool :=
  match kind with
  | .claim _ _ limit => taken < limit
  | .exhausted | .orphaned => true

def update (kind : SweepKind) (now : ℚ) (event : WebhookEvent) : WebhookEvent :=
  match kind with
  | .claim worker leaseSeconds _ => event.claim worker now leaseSeconds
  | .exhausted => event.failExhausted
  | .orphaned => event.failOrphaned

end SweepKind

structure OutboxStore where
  clock : ℚ
  batches : Batches
  hooks : Hooks
  events : Events
  issued : ℕ
  versions : ℕ
  seals : List Seal
  removals : List Removal
  sweeps : List Sweep
  batchLocks : String → Option ℕ
  hookLocks : String → Option ℕ
  rowLocks : ℕ → Option Holder

inductive OutboxEvent where
  | advance (later : ℚ)
  | finalize (batchId : String) (moment : ℚ)
  | commitSeal (batchId : String) (withEvent : Bool) (moment : ℚ)
  | readHook (place : ℕ)
  | lockHook (place : ℕ)
  | endSeal (place : ℕ) (commits : Bool)
  | setWebhook (userId : String) (hasSecret enabled : Bool)
  | deleteWebhook (userId : String)
  | deleteHook (place : ℕ)
  | readEvents (place : ℕ)
  | removeEvent (place id : ℕ)
  | endRemoval (place : ℕ) (commits : Bool)
  | beginSweep (kind : SweepKind)
  | readSweep (place : ℕ)
  | takeEvent (place id : ℕ)
  | endSweep (place : ℕ) (commits : Bool)
  | markDelivered (id : ℕ) (worker : String) (attempt : ℕ)
  | markFailed (id : ℕ) (worker : String) (attempt : ℕ) (nextAttemptAt : Option ℚ)

namespace OutboxStore

def initial (batches : Batches) (hooks : Hooks) (versions : ℕ) (clock : ℚ) : OutboxStore where
  clock := clock
  batches := batches
  hooks := hooks
  events := fun _ => none
  issued := 0
  versions := versions
  seals := []
  removals := []
  sweeps := []
  batchLocks := fun _ => none
  hookLocks := fun _ => none
  rowLocks := fun _ => none

/-- A sealing transaction holds the row of the webhook `FOR KEY SHARE`. -/
def isKeyShared (store : OutboxStore) (userId : String) : Bool :=
  store.seals.any fun record =>
    record.userId = userId && match record.stage with
      | .ready (some _) _ => true
      | _ => false

def pendingOf (store : OutboxStore) (userId : String) : List ℕ :=
  (List.range store.issued).filter fun id =>
    match store.events id with
    | some event => event.userId = userId && event.status = .pending
    | none => false

def beginSeal (store : OutboxStore) (batchId : String) (job : BatchJob) (target : Phase)
    (moment : ℚ) (enqueues : Bool) : OutboxStore :=
  { store with
    seals := store.seals ++ [⟨batchId, job.userId, target, moment, .moved enqueues⟩]
    batchLocks := Function.update store.batchLocks batchId (some store.seals.length) }

def setSeal (store : OutboxStore) (place : ℕ) (record : Seal) (stage : SealStage) : OutboxStore :=
  { store with seals := store.seals.set place { record with stage := stage } }

def setRemoval (store : OutboxStore) (place : ℕ) (record : Removal) (stage : RemovalStage) :
    OutboxStore :=
  { store with removals := store.removals.set place { record with stage := stage } }

def setSweep (store : OutboxStore) (place : ℕ) (record : Sweep) (stage : SweepStage) :
    OutboxStore :=
  { store with sweeps := store.sweeps.set place { record with stage := stage } }

def sealed (store : OutboxStore) (record : Seal) (enqueues : Bool) : OutboxStore :=
  let moved := { store with
    batches := Function.update store.batches record.batchId
      ((store.batches record.batchId).map fun job => { job with phase := record.target }) }
  if enqueues then
    { moved with
      events := Function.update store.events store.issued
        (some { userId := record.userId, batchId := record.batchId,
                nextAttemptAt := record.moment })
      issued := store.issued + 1 }
  else moved

def unlockRows (store : OutboxStore) (holder : Holder) : OutboxStore :=
  { store with
    rowLocks := fun id => if store.rowLocks id = some holder then none else store.rowLocks id }

variable (maxAttempts : ℕ)

def step (store : OutboxStore) : OutboxEvent → Option OutboxStore
  | .advance later => if store.clock ≤ later then some { store with clock := later } else none
  | .finalize batchId moment =>
    match store.batches batchId with
    | some job =>
      if store.clock < moment ∨ store.batchLocks batchId ≠ none then none
      else if job.phase ≠ .running then some store
      else if job.isFile then some (store.beginSeal batchId job .sealing moment false)
      else some (store.beginSeal batchId job .sealed moment true)
    | none => some store
  | .commitSeal batchId withEvent moment =>
    match store.batches batchId with
    | some job =>
      if store.clock < moment ∨ store.batchLocks batchId ≠ none then none
      else if job.phase ≠ .sealing then some store
      else some (store.beginSeal batchId job .sealed moment withEvent)
    | none => some store
  | .readHook place =>
    match store.seals[place]? with
    | some record =>
      if record.stage = .moved true then
        some (store.setSeal place record
          (.looking ((store.hooks record.userId).map Webhook.version)))
      else none
    | none => none
  | .lockHook place =>
    match store.seals[place]? with
    | some record =>
      match record.stage with
      | .looking none => some (store.setSeal place record (.ready none false))
      | .looking (some version) =>
        match store.hooks record.userId with
        | some hook =>
          if hook.version ≠ version then
            some (store.setSeal place record (.ready none false))
          else if store.hookLocks record.userId ≠ none then none
          else some (store.setSeal place record (.ready (some version) hook.enabled))
        | none => some (store.setSeal place record (.ready none false))
      | _ => none
    | none => none
  | .endSeal place commits =>
    match store.seals[place]? with
    | some record =>
      if record.stage = .ended then none
      else
        let free := { store.setSeal place record .ended with
          batchLocks := Function.update store.batchLocks record.batchId none }
        if commits then
          match record.stage with
          | .moved false => some (free.sealed record false)
          | .ready _ enqueues => some (free.sealed record enqueues)
          | _ => none
        else some free
    | none => none
  | .setWebhook userId hasSecret enabled =>
    if store.hookLocks userId ≠ none then none
    else
      match store.hooks userId with
      | some hook =>
        some { store with
          hooks := Function.update store.hooks userId (some { hook with enabled := enabled }) }
      | none =>
        if hasSecret then
          some { store with
            hooks := Function.update store.hooks userId (some ⟨store.versions, enabled⟩)
            versions := store.versions + 1 }
        else some store
  | .deleteWebhook userId =>
    some { store with
      removals := store.removals ++
        [⟨userId, .looking ((store.hooks userId).map Webhook.version)⟩] }
  | .deleteHook place =>
    match store.removals[place]? with
    | some record =>
      match record.stage with
      | .looking none => some (store.setRemoval place record (.hookDone false))
      | .looking (some version) =>
        match store.hooks record.userId with
        | some hook =>
          if hook.version ≠ version then
            some (store.setRemoval place record (.hookDone false))
          else if store.hookLocks record.userId ≠ none ||
              store.isKeyShared record.userId then none
          else
            some { store.setRemoval place record (.hookDone true) with
              hookLocks := Function.update store.hookLocks record.userId (some place) }
        | none => some (store.setRemoval place record (.hookDone false))
      | _ => none
    | none => none
  | .readEvents place =>
    match store.removals[place]? with
    | some record =>
      match record.stage with
      | .hookDone took =>
        some (store.setRemoval place record (.removing took (store.pendingOf record.userId)))
      | _ => none
    | none => none
  | .removeEvent place id =>
    match store.removals[place]? with
    | some record =>
      match record.stage with
      | .removing took left =>
        if id ∉ left ∨ store.rowLocks id ≠ none then none
        else
          let next := store.setRemoval place record
            (.removing took (left.filter fun other => other ≠ id))
          if (store.events id).any fun event => event.status = .pending then
            some { next with
              rowLocks := Function.update store.rowLocks id (some (.removal place)) }
          else some next
      | _ => none
    | none => none
  | .endRemoval place commits =>
    match store.removals[place]? with
    | some record =>
      if record.stage = .ended then none
      else
        let free := (store.setRemoval place record .ended).unlockRows (.removal place)
        let free := { free with
          hookLocks := fun userId =>
            if store.hookLocks userId = some place then none else store.hookLocks userId }
        if commits then
          match record.stage with
          | .removing took [] =>
            some { free with
              hooks := if took then Function.update store.hooks record.userId none
                else store.hooks
              events := fun id =>
                if store.rowLocks id = some (.removal place) then none
                else store.events id }
          | _ => none
        else some free
    | none => none
  | .beginSweep kind =>
    some { store with sweeps := store.sweeps ++ [⟨kind, store.clock, .begun⟩] }
  | .readSweep place =>
    match store.sweeps[place]? with
    | some ⟨kind, moment, .begun⟩ =>
      some (store.setSweep place ⟨kind, moment, .begun⟩ (.running store.hooks store.events 0))
    | _ => none
  | .takeEvent place id =>
    match store.sweeps[place]? with
    | some ⟨kind, moment, .running hooks events taken⟩ =>
      if store.rowLocks id = none &&
          kind.hasRoom taken &&
          (events id).any (kind.applies maxAttempts moment hooks) &&
          (store.events id).any (kind.applies maxAttempts moment hooks) then
        some { store.setSweep place ⟨kind, moment, .begun⟩
            (.running hooks events (taken + 1)) with
          rowLocks := Function.update store.rowLocks id (some (.sweep place)) }
      else none
    | _ => none
  | .endSweep place commits =>
    match store.sweeps[place]? with
    | some ⟨_, _, .ended⟩ => none
    | some ⟨kind, moment, stage⟩ =>
      let free := (store.setSweep place ⟨kind, moment, stage⟩ .ended).unlockRows (.sweep place)
      if commits then
        some { free with
          events := fun id =>
            if store.rowLocks id = some (.sweep place) then
              (store.events id).map (kind.update moment)
            else store.events id }
      else some free
    | none => none
  | .markDelivered id worker attempt =>
    if store.rowLocks id ≠ none then none
    else
      some { store with
        events := Function.update store.events id
          ((store.events id).map fun event => event.markDelivered worker attempt) }
  | .markFailed id worker attempt nextAttemptAt =>
    if store.rowLocks id ≠ none then none
    else
      some { store with
        events := Function.update store.events id
          ((store.events id).map fun event => event.markFailed worker attempt nextAttemptAt) }

def machine : Machine OutboxStore OutboxEvent where
  step := step maxAttempts

end OutboxStore

end HybridInference.Webhooks
