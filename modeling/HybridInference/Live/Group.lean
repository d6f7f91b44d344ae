import HybridInference.Library.ListUpdate
import HybridInference.Library.Machine
import Mathlib.Algebra.Order.Field.Rat

/-!
# A live configuration group

`LiveGroup` of `serving.config.live`: the published state, the applier between its awaits,
the prepares it started, and the states that wait for their release. A view is an object;
two views may compare equal, and then two records of the release queue may, since a record
is compared by its fields. The tasks that sweep the queue are one lock holder at a time,
whichever task that is.
-/

namespace HybridInference.Live

open Library

structure SourceVersion where
  epoch : ℕ
  revision : ℕ
  deriving DecidableEq

structure GroupContract where
  active : Bool
  schemaVersion : ℕ
  keys : List String

structure SourceSnapshot (S : Type*) where
  version : Option SourceVersion
  contract : Option GroupContract
  settings : S

structure Component (S D V : Type*) where
  project : SourceSnapshot S → Option D
  same : D → D → Bool
  sameMirror : D → D → Bool
  /-- `==` of two views. -/
  equalViews : V → V → Bool
  schemaVersions : List ℕ
  keys : List String
  maxRetained : ℕ := 4
  backoffInitial : ℚ := 1
  backoffMax : ℚ := 60

structure Published (D V : Type*) where
  view : V
  desired : D
  generation : ℕ
  version : Option SourceVersion
  managed : Bool

inductive ReleaseKind where
  | retire
  | discard
  deriving DecidableEq

inductive ReleaseTask where
  | running
  | done (ok : Bool)
  deriving DecidableEq

structure Retiring (V : Type*) where
  view : V
  kind : ReleaseKind
  attempts : ℕ := 0
  retryAt : ℚ := 0
  task : Option ReleaseTask := none
  deriving DecidableEq

inductive PrepareTask (V : Type*) where
  | running
  | returned (view : V)
  | failed
  | taken
  deriving DecidableEq

inductive Next (D : Type*) where
  | superseded
  | finished
  | timedOut (desired : D)
  | cancelled

inductive Stage (S D : Type*) where
  | idle
  | preparing (serial : ℕ) (snapshot : SourceSnapshot S) (desired : D) (task : ℕ)
  | abandoning (desired : D) (task : ℕ) (timedOut : Bool)
  /-- In `_discard`, waiting for the cleanup lock or holding it. -/
  | discarding (record : ℕ) (next : Next D)
  | ended

inductive Session where
  /-- `_release_due`, with the records it has not come to. -/
  | sweep (rest : List ℕ) (everything : Bool)
  /-- `_discard` of one record. -/
  | discard

structure Group (S D V : Type*) where
  published : Published D V
  /-- The newest snapshot, and how many were submitted before it. -/
  latest : Option (ℕ × SourceSnapshot S) := none
  submitted : ℕ := 0
  stage : Stage S D := .idle
  stopping : Bool := false
  prepares : List (PrepareTask V) := []
  abandoned : List ℕ := []
  /-- Every record that was made; the queue names those that wait. -/
  records : List (Retiring V) := []
  retiring : List ℕ := []
  /-- The holder of the lock, and the record whose release it waits for. -/
  session : Option (Session × Option ℕ) := none
  failures : ℕ := 0
  retryAt : ℚ := 0
  failedDesired : Option D := none
  /-- Every view there has been: the baseline, and those that the prepares returned. -/
  views : List V
  /-- The views whose release was taken off the queue. -/
  released : List V := []
  /-- The views whose release call has returned with success. -/
  succeeded : List V := []

inductive LiveEvent (S V : Type*) where
  | submit (snapshot : SourceSnapshot S)
  | pass (now : ℚ)
  | prepareReturns (task : ℕ) (view : V)
  | prepareFails (task : ℕ)
  | resume (now jitter : ℚ)
  | prepareTimeout
  | abandonResume (now jitter : ℚ)
  | abandonTimeout (now jitter : ℚ)
  | finishAbandoned (task : ℕ)
  | stop
  | beginDiscard (now jitter : ℚ)
  | beginSweep (everything : Bool)
  | nextRecord (now : ℚ)
  | endAttempt (now jitter : ℚ)
  | abortSweep
  | releaseReturns (record : ℕ) (ok : Bool)

section Definitions

variable {S D V : Type*} [DecidableEq V] (component : Component S D V)

/-- `_refusal`. -/
def Component.refuses (contract : GroupContract) : Bool :=
  contract.schemaVersion ∉ component.schemaVersions ||
    !(contract.keys.all fun key => key ∈ component.keys) ||
    !(component.keys.all fun key => key ∈ contract.keys)

/-- `_contract`: the snapshot activates this group, in a version it supports. -/
def Component.activates (snapshot : SourceSnapshot S) : Bool :=
  match snapshot.contract with
  | none => false
  | some contract => contract.active && !component.refuses contract

def SourceSnapshot.epoch (snapshot : SourceSnapshot S) : Option ℕ :=
  snapshot.version.map SourceVersion.epoch

def Component.retryDelay (attempts : ℕ) : ℚ :=
  min component.backoffMax (component.backoffInitial * 2 ^ min (attempts - 1) 32)

/-- `==` of two records: the same one, or one with equal fields. -/
def Component.equalRecords (first second : ℕ × Retiring V) : Bool :=
  first.1 = second.1 ||
    ((first.2.view = second.2.view || component.equalViews first.2.view second.2.view) &&
      first.2.attempts = second.2.attempts && first.2.retryAt = second.2.retryAt &&
      first.2.kind = second.2.kind && first.2.task = none && second.2.task = none)

namespace Group

def isEqualTo (group : Group S D V) (record other : ℕ) : Bool :=
  match group.records[record]?, group.records[other]? with
  | some first, some second => component.equalRecords (other, second) (record, first)
  | _, _ => false

/-- `record in self._retiring`. -/
def isQueued (group : Group S D V) (record : ℕ) : Bool :=
  group.retiring.any (group.isEqualTo component record)

/-- `self._retiring.remove(record)`: the first one that is equal to it. -/
def dequeue (group : Group S D V) (record : ℕ) : List ℕ :=
  group.retiring.eraseP (group.isEqualTo component record)

def retained (group : Group S D V) : ℕ := group.retiring.length + group.abandoned.length

def clearBackoff (group : Group S D V) : Group S D V :=
  { group with
    failures := 0
    retryAt := 0
    failedDesired := none }

def backoff (group : Group S D V) (desired : D) (now jitter : ℚ) : Group S D V :=
  { group with
    failures := group.failures + 1
    failedDesired := some desired
    retryAt := now + component.retryDelay (group.failures + 1) * jitter }

def publish (group : Group S D V) (view : V) (desired : D) (version : Option SourceVersion) :
    Group S D V :=
  { group with
    published :=
      { view := view
        desired := desired
        generation := group.published.generation + 1
        version := version
        managed := true } }

def adopt (group : Group S D V) (desired : D) (version : Option SourceVersion) : Group S D V :=
  if group.published.managed && component.sameMirror desired group.published.desired then group
  else
    { group with
      published := { group.published with
        desired := desired
        managed := true
        version := version } }

def queue (group : Group S D V) (view : V) (kind : ReleaseKind) : Group S D V :=
  { group with
    records := group.records ++ [{ view := view, kind := kind }]
    retiring := group.retiring ++ [group.records.length] }

def take (group : Group S D V) (task : ℕ) : Group S D V :=
  { group with prepares := group.prepares.set task .taken }

def goTo (group : Group S D V) (stage : Stage S D) : Group S D V := { group with stage := stage }

/-- `_discard`, up to its first await. -/
def discard (group : Group S D V) (view : V) (next : Next D) : Group S D V :=
  (group.queue view .discard).goTo (.discarding group.records.length next)

def startPrepare (group : Group S D V) (serial : ℕ) (snapshot : SourceSnapshot S) (desired : D) :
    Group S D V :=
  { group with
    prepares := group.prepares ++ [.running]
    stage := .preparing serial snapshot desired group.prepares.length }

/-- `_reconcile_one`, up to the prepare. -/
def reconcileOne (group : Group S D V) (serial : ℕ) (snapshot : SourceSnapshot S) (now : ℚ) :
    Group S D V :=
  let group := group.goTo .idle
  if !component.activates snapshot then group
  else
    match component.project snapshot with
    | none => group
    | some desired =>
      if component.same desired group.published.desired then
        (group.adopt component desired snapshot.version).clearBackoff
      else if group.failedDesired.any (component.same desired) then
        if now < group.retryAt then group
        else if component.maxRetained ≤ group.retained then group
        else group.startPrepare serial snapshot desired
      else if component.maxRetained ≤ group.retained then group.clearBackoff
      else group.clearBackoff.startPrepare serial snapshot desired

def reconcileLatest (group : Group S D V) (now : ℚ) : Group S D V :=
  match group.latest with
  | none => group.goTo .idle
  | some (serial, snapshot) => group.reconcileOne component serial snapshot now

def targetNow (group : Group S D V) (serial : ℕ) (snapshot : SourceSnapshot S) (desired : D) :
    Option (SourceSnapshot S × D) :=
  match group.latest with
  | none => some (snapshot, desired)
  | some (newest, latest) =>
    if newest = serial then some (snapshot, desired)
    else if latest.epoch ≠ snapshot.epoch then none
    else if !component.activates latest then none
    else
      match component.project latest with
      | none => none
      | some newer => if component.same newer desired then some (latest, newer) else none

/-- `_reconcile_one`, from the candidate on. -/
def afterPrepare (group : Group S D V) (serial : ℕ) (snapshot : SourceSnapshot S) (desired : D)
    (candidate : V) : Group S D V :=
  match group.targetNow component serial snapshot desired with
  | none => group.discard candidate .superseded
  | some (snapshot, desired) =>
    if group.stopping then group.discard candidate .finished
    else
      ((group.publish candidate desired snapshot.version).clearBackoff.queue
        group.published.view .retire).goTo .idle

def continueWith (group : Group S D V) (next : Next D) (now jitter : ℚ) : Group S D V :=
  match next with
  | .superseded => group.reconcileLatest component now
  | .finished => group.goTo .idle
  | .timedOut desired => (group.backoff component desired now jitter).goTo .idle
  | .cancelled => group.goTo .ended

/-- The end of `_abandon` without a candidate. -/
def afterAbandon (desired : D) (timedOut : Bool) : Next D :=
  if timedOut then .timedOut desired else .cancelled

def setRecord (group : Group S D V) (record : ℕ) (changed : Retiring V) : Group S D V :=
  { group with records := group.records.set record changed }

/-- `_try_retire`, up to its wait. -/
def tryRetire (group : Group S D V) (record : ℕ) (session : Session) : Option (Group S D V) :=
  (group.records[record]?).map fun entry =>
    { group.setRecord record { entry with task := some (entry.task.getD .running) } with
      session := some (session, some record) }

/-- `_try_retire`, from its wait on: the release is over, failed or still running. -/
def settle (group : Group S D V) (record : ℕ) (entry : Retiring V) (now : ℚ) : Group S D V :=
  match entry.task with
  | some (.done true) =>
    let finished := group.setRecord record { entry with task := none }
    { finished with
      retiring := finished.dequeue component record
      released := group.released ++ [entry.view] }
  | task =>
    group.setRecord record { entry with
      task := if task = some .running then some .running else none
      attempts := entry.attempts + 1
      retryAt := now + component.retryDelay (entry.attempts + 1) }

def afterAttempt (group : Group S D V) (session : Session) (now jitter : ℚ) : Group S D V :=
  match session with
  | .sweep rest everything => { group with session := some (.sweep rest everything, none) }
  | .discard =>
    let group := { group with session := none }
    match group.stage with
    | .discarding _ next => group.continueWith component next now jitter
    | _ => group

def isDiscarding (session : Option (Session × Option ℕ)) : Bool :=
  match session with
  | some (.discard, _) => true
  | _ => false

/-- `stop` cancels the applier where it waits. -/
def cancel (group : Group S D V) : Group S D V :=
  match group.stage with
  | .idle | .ended => group.goTo .ended
  | .preparing _ _ desired task => group.goTo (.abandoning desired task false)
  | .abandoning _ task true =>
    match group.prepares[task]? with
    | some (.returned view) => (group.take task).discard view .cancelled
    | some .running => { group.goTo .ended with abandoned := group.abandoned ++ [task] }
    | _ => group.goTo .ended
  | .abandoning desired task false => group.goTo (.abandoning desired task false)
  | .discarding _ _ =>
    { group.goTo .ended with
      session := if isDiscarding group.session then none else group.session }

def step (group : Group S D V) : LiveEvent S V → Option (Group S D V)
  | .submit snapshot =>
    some { group with
      latest := some (group.submitted, snapshot)
      submitted := group.submitted + 1 }
  | .pass now =>
    match group.stage, group.latest with
    | .idle, some (serial, snapshot) =>
      if group.stopping then none else some (group.reconcileOne component serial snapshot now)
    | _, _ => none
  | .prepareReturns task view =>
    match group.prepares[task]? with
    | some .running =>
      if view ∈ group.views then none
      else
        some { group with
          prepares := group.prepares.set task (.returned view)
          views := group.views ++ [view] }
    | _ => none
  | .prepareFails task =>
    match group.prepares[task]? with
    | some .running => some { group with prepares := group.prepares.set task .failed }
    | _ => none
  | .resume now jitter =>
    match group.stage with
    | .preparing serial snapshot desired task =>
      match group.prepares[task]? with
      | some (.returned candidate) =>
        some ((group.take task).afterPrepare component serial snapshot desired candidate)
      | some .failed => some ((group.backoff component desired now jitter).goTo .idle)
      | _ => none
    | _ => none
  | .prepareTimeout =>
    match group.stage with
    | .preparing _ _ desired task =>
      match group.prepares[task]? with
      | some .running => some (group.goTo (.abandoning desired task true))
      | _ => none
    | _ => none
  | .abandonResume now jitter =>
    match group.stage with
    | .abandoning desired task timedOut =>
      match group.prepares[task]? with
      | some (.returned candidate) =>
        some ((group.take task).discard candidate (afterAbandon desired timedOut))
      | some .failed =>
        some (group.continueWith component (afterAbandon desired timedOut) now jitter)
      | _ => none
    | _ => none
  | .abandonTimeout now jitter =>
    match group.stage with
    | .abandoning desired task timedOut =>
      some ({ group with abandoned := group.abandoned ++ [task] }.continueWith component
        (afterAbandon desired timedOut) now jitter)
    | _ => none
  | .finishAbandoned task =>
    if task ∉ group.abandoned then none
    else
      let group : Group S D V :=
        { group with abandoned := group.abandoned.filter fun other => other ≠ task }
      match group.prepares[task]? with
      | some (.returned view) => some ((group.take task).queue view .discard)
      | some .failed => some group
      | _ => none
  | .stop => if group.stopping then none else some { group with stopping := true }.cancel
  | .beginDiscard now jitter =>
    match group.stage, group.session with
    | .discarding record next, none =>
      if group.isQueued component record then group.tryRetire record .discard
      else some (group.continueWith component next now jitter)
    | _, _ => none
  | .beginSweep everything =>
    if group.session.isSome then none
    else some { group with session := some (.sweep group.retiring everything, none) }
  | .nextRecord now =>
    match group.session with
    | some (.sweep [] _, none) => some { group with session := none }
    | some (.sweep (record :: rest) everything, none) =>
      match group.records[record]? with
      | some entry =>
        if !group.isQueued component record || (!everything && now < entry.retryAt) then
          some { group with session := some (.sweep rest everything, none) }
        else group.tryRetire record (.sweep rest everything)
      | none => none
    | _ => none
  | .endAttempt now jitter =>
    match group.session with
    | some (session, some record) =>
      (group.records[record]?).map fun entry =>
        (group.settle component record entry now).afterAttempt component session now jitter
    | _ => none
  | .abortSweep =>
    match group.session with
    | some (.sweep _ _, _) => some { group with session := none }
    | _ => none
  | .releaseReturns record ok =>
    match group.records[record]? with
    | some entry =>
      if entry.task = some .running then
        some { group.setRecord record { entry with
            task := some (.done ok)
            retryAt := if group.isQueued component record then 0 else entry.retryAt } with
          succeeded := if ok then group.succeeded ++ [entry.view] else group.succeeded }
      else none
    | none => none

def machine : Machine (Group S D V) (LiveEvent S V) where
  step := step component

def initial (view : V) (desired : D) : Group S D V where
  published :=
    { view := view
      desired := desired
      generation := 0
      version := none
      managed := false }
  views := [view]

end Group

end Definitions

end HybridInference.Live
