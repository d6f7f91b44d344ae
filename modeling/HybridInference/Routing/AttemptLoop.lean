import HybridInference.Routing.FallbackOrder
import HybridInference.Routing.RouteTable

/-!
# The attempts of one request

`FixedRouter.chat_completion` and `stream_chat_completion` of `routing.routers`
try the primary and then walk a `FallbackOrder`. The two loops differ in which
deadlines cut an attempt short and in that a stream which has sent a chunk is
committed to its route. What each attempt comes to is the environment's choice,
so a request is a function of that assignment. Recording a failed attempt may
itself raise, in the loop's `except` block: that ends the request at once.
-/

namespace HybridInference.Routing

open Health

/-- What the router reads of an adapter. Two adapters are the same object when
they are equal, `identity` included. -/
structure Adapter where
  identity : ℕ
  routeId : String
  endpointId : String
  contextLength : Option ℤ
  deriving DecidableEq

/-- An exception of an attempt, and whether its body or its text matches
`_CONTEXT_WINDOW_REFUSAL_RE`. -/
structure AttemptError extends UpstreamException where
  namesContextWindow : Bool

structure RouteAttempt where
  error : AttemptError
  offload : Option OffloadReason
  route : Adapter

def requestDescribingStatuses : List ℤ := [400, 404, 413, 422]

def describesRequest (exc : AttemptError) : Bool :=
  (httpStatusOf exc.toUpstreamException).any requestDescribingStatuses.contains

def exceedsContextWindow (exc : AttemptError) : Bool :=
  describesRequest exc && exc.namesContextWindow

def countsAsRequestRefusal (exc : AttemptError) : Bool :=
  describesRequest exc && !exceedsContextWindow exc

def requestRefusalLimit : ℕ := 2

def refusals (attempts : List RouteAttempt) : ℕ :=
  attempts.countP fun attempt => countsAsRequestRefusal attempt.error

def stopsAfterRequestRefusals (attempts : List RouteAttempt) : Bool :=
  requestRefusalLimit ≤ refusals attempts

def configuredContextWindow (adapter : Adapter) : Option ℤ :=
  adapter.contextLength.filter fun window => 0 < window

def widestRefusedWindow (refusedWindow : Option ℤ) (adapter : Adapter) (exc : AttemptError) :
    Option ℤ :=
  if !exceedsContextWindow exc then refusedWindow
  else
    match configuredContextWindow adapter, refusedWindow with
    | none, _ => refusedWindow
    | some window, none => some window
    | some window, some refused => some (max refused window)

def windowCannotFit (adapter : Adapter) (refusedWindow : Option ℤ) : Bool :=
  match refusedWindow, configuredContextWindow adapter with
  | some refused, some window => window ≤ refused
  | _, _ => false

/-- `select_surfaced_error`: the primary's error unless it says nothing about
the request and a later one does. -/
def selectSurfacedError (primary : RouteAttempt) (later : List RouteAttempt) : RouteAttempt :=
  if describesRequest primary.error then primary
  else (later.find? fun attempt => describesRequest attempt.error).getD primary

/-- `_reported_attempts`, on at most `count` attempts: each one that was cut
short is replaced by its retry. -/
def reportedAttempts : ℕ → List RouteAttempt → List RouteAttempt
  | 0, _ => []
  | _, [] => []
  | count + 1, attempt :: later =>
    match abandonedForOffload attempt.error.toUpstreamException,
        later.findIdx? fun retry => retry.route = attempt.route with
    | true, some position =>
      later.getD position attempt :: reportedAttempts count (later.eraseIdx position)
    | _, _ => attempt :: reportedAttempts count later

/-- The error `_raise_surfaced_error` raises. -/
def surfacedError (attempts : List RouteAttempt) : Option AttemptError :=
  match reportedAttempts attempts.length attempts with
  | [] => none
  | primary :: later => some (selectSurfacedError primary later).error

structure RouteTable where
  candidates : Option (List (Adapter × ℚ))
  policy : Option OffloadPolicy

structure RouterRequest where
  pinProvider : Option String
  allowFallback : Bool
  prefillTokens : ℤ
  atSelection : RouteTable
  atFallback : RouteTable

def requestOffloadTarget (request : RouterRequest) : Option (Adapter × OffloadPolicy) :=
  if request.pinProvider.isSome then none
  else
    let target := request.atSelection.candidates.bind
      (offloadTarget Adapter.routeId request.atSelection.policy)
    target.filter fun target => target.2.takesInput request.prefillTokens

def fallbackOrder (request : RouterRequest) (primary : Adapter) :
    FallbackOrder Adapter × Option OffloadPolicy :=
  match request.atFallback.candidates with
  | none => (.init [] none, none)
  | some candidates =>
    let ordinary (candidates : List (Adapter × ℚ)) : List Adapter :=
      (candidates.filter fun entry => entry.1 ≠ primary && 0 < entry.2).map Prod.fst
    match offloadTarget Adapter.routeId request.atFallback.policy candidates with
    | none => (.init (ordinary candidates) none, none)
    | some (offload, policy) =>
      if !policy.takesInput request.prefillTokens then
        (.init (ordinary (candidates.filter fun entry => entry.1 ≠ offload)) none, none)
      else if offload = primary then (.init (ordinary candidates) none, some policy)
      else (.init (ordinary candidates) (some offload), some policy)

inductive Mode where
  | chat
  | stream
  deriving DecidableEq

/-- What an attempt comes to; `broke` ends the request, whatever routes are left. -/
inductive AttemptOutcome where
  | served
  | failed (error : AttemptError)
  | broke (error : AttemptError)

inductive WaitDeadline where
  | queueWait
  | engineWait
  deriving DecidableEq

def WaitDeadline.error (deadline : WaitDeadline) : AttemptError :=
  { kind := match deadline with
      | .queueWait => .upstreamQueueWaitExpired
      | .engineWait => .engineWaitExpired
    status := none
    statusCode := none
    code := none
    response := none
    operatorSafeError := none
    namesContextWindow := false }

/-- The `OverflowError` of `detect_usage_limit`. -/
def overflowError : AttemptError :=
  { kind := .other
    status := none
    statusCode := none
    code := none
    response := none
    operatorSafeError := none
    namesContextWindow := false }

/-- What a failure of an attempt is recorded with: the registry's settings, its record of the
endpoint, and the context of the report. -/
structure Recording where
  alpha : ℚ
  config : BreakerConfig
  policy : CircuitOpenPolicy
  scan : ResetScan
  endpoint : Endpoint
  report : FailureReport

/-- `_on_failure` raises on the error. -/
def Recording.raises (recording : Recording) (error : AttemptError) : Bool :=
  recording.endpoint.recordFailureRaises recording.alpha recording.config recording.policy
    recording.scan
    { recording.report with
      detail := error.operatorSafeError
      exc := some error.toUpstreamException }

/-- Everything outside the router at each attempt: admitting circuits, keys for the caller,
deadlines, what an attempt that runs comes to, and what its failure is recorded with. -/
structure Surroundings where
  admits : ℕ → Adapter → Bool
  servesCaller : ℕ → Adapter → Bool
  overruns : ℕ → Adapter → Option WaitDeadline
  answer : ℕ → Adapter → AttemptOutcome
  recording : ℕ → Adapter → Recording

/-- Whether `_queue_deadline` arms a deadline. -/
def queueDeadline (around : Surroundings) (attempt : ℕ) (offload : Option Adapter)
    (policy : Option OffloadPolicy) (refusedWindow : Option ℤ) : Bool :=
  match offload, policy with
  | some offload, some _ =>
    if windowCannotFit offload refusedWindow then false
    else if !around.servesCaller attempt offload then false
    else around.admits attempt offload
  | _, _ => false

structure PrimaryOffload where
  reason : Option OffloadReason
  deadline : Bool

def primaryOffload (around : Surroundings) (request : RouterRequest) (primary : Adapter) :
    PrimaryOffload :=
  match requestOffloadTarget request with
  | none => { reason := none, deadline := false }
  | some (offload, policy) =>
    if offload = primary then { reason := some .lastResort, deadline := false }
    else if !request.allowFallback then { reason := none, deadline := false }
    else
      { reason := none
        deadline := queueDeadline around 0 (some offload) (some policy) none }

def cutBy (mode : Mode) (around : Surroundings) (attempt : ℕ) (adapter : Adapter)
    (deadline : Bool) : Option WaitDeadline :=
  if deadline then
    (around.overruns attempt adapter).filter fun wait => mode = .stream || wait = .queueWait
  else none

/-- What an outcome is to the loop once its failure is recorded. Only a stream that has sent a
chunk is committed to its route. -/
def settled (mode : Mode) (recording : Recording) : AttemptOutcome → AttemptOutcome
  | .served => .served
  | .failed error => if recording.raises error then .broke overflowError else .failed error
  | .broke error =>
    if recording.raises error then .broke overflowError
    else if mode = .stream then .broke error else .failed error

def attemptOutcome (mode : Mode) (around : Surroundings) (attempt : ℕ) (adapter : Adapter)
    (deadline : Bool) : AttemptOutcome :=
  settled mode (around.recording attempt adapter)
    (match cutBy mode around attempt adapter deadline with
      | some wait => .failed wait.error
      | none => around.answer attempt adapter)

structure Walk where
  order : FallbackOrder Adapter
  attempts : List RouteAttempt
  refusedWindow : Option ℤ

def Walk.afterPrimary (order : FallbackOrder Adapter) (primary : Adapter)
    (offload : Option OffloadReason) (error : AttemptError) : Walk :=
  { order := order.recordFailure error.toUpstreamException (some primary)
    attempts := [{ error := error, offload := offload, route := primary }]
    refusedWindow := widestRefusedWindow none primary error }

def Walk.fail (walk : Walk) (adapter : Adapter) (offload : Option OffloadReason)
    (error : AttemptError) : Walk :=
  { order := walk.order.recordFailure error.toUpstreamException (some adapter)
    attempts := walk.attempts ++ [{ error := error, offload := offload, route := adapter }]
    refusedWindow := widestRefusedWindow walk.refusedWindow adapter error }

inductive CallResult where
  | served (route : Adapter)
  | raised (error : Option AttemptError)

/-- The `while` loop, with at most `fuel` candidates considered; `attempt` counts
the attempts made. -/
def fallbackLoop (mode : Mode) (around : Surroundings) (policy : Option OffloadPolicy) :
    ℕ → ℕ → Walk → Option CallResult
  | 0, _, _ => none
  | fuel + 1, attempt, walk =>
    match walk.order.next with
    | (none, _) => some (.raised (surfacedError walk.attempts))
    | (some (adapter, offloadReason), order) =>
      let walk := { walk with order := order }
      if windowCannotFit adapter walk.refusedWindow then
        fallbackLoop mode around policy fuel attempt walk
      else if !around.admits attempt adapter then
        fallbackLoop mode around policy fuel attempt walk
      else
        let deadline := offloadReason.isNone &&
          queueDeadline around attempt order.offloadPending policy walk.refusedWindow
        match attemptOutcome mode around attempt adapter deadline with
        | .served => some (.served adapter)
        | .broke error => some (.raised (some error))
        | .failed error =>
          let walk := walk.fail adapter offloadReason error
          if stopsAfterRequestRefusals walk.attempts then
            some (.raised (surfacedError walk.attempts))
          else fallbackLoop mode around policy fuel (attempt + 1) walk

def FallbackOrder.potential (order : FallbackOrder Adapter) : ℕ :=
  2 * order.ordinary.length + 2 * order.offload.toList.length + order.retries.length + 1

/-- A request whose selection chose `primary`. -/
def routerCall (mode : Mode) (around : Surroundings) (request : RouterRequest)
    (primary : Adapter) : Option CallResult :=
  let plan := primaryOffload around request primary
  match attemptOutcome mode around 0 primary plan.deadline with
  | .served => some (.served primary)
  | .broke error => some (.raised (some error))
  | .failed error =>
    if request.pinProvider.isSome || !request.allowFallback then some (.raised (some error))
    else
      let (order, policy) := fallbackOrder request primary
      let walk := Walk.afterPrimary order primary plan.reason error
      fallbackLoop mode around policy walk.order.potential 1 walk

def chatCompletion := routerCall .chat

def streamChatCompletion := routerCall .stream

/-- What the adapters answer in turn, none of them under a deadline. -/
def answers (mode : Mode) (around : Surroundings) : ℕ → List Adapter → List AttemptOutcome
  | _, [] => []
  | attempt, adapter :: rest =>
    settled mode (around.recording attempt adapter) (around.answer attempt adapter) ::
      answers mode around (attempt + 1) rest

namespace AttemptOutcome

def unserved : AttemptOutcome → Bool
  | .served => false
  | .failed _ | .broke _ => true

def refuses : AttemptOutcome → Bool
  | .served => false
  | .failed error | .broke error => countsAsRequestRefusal error

def breaksOff : AttemptOutcome → Bool
  | .broke _ => true
  | .served | .failed _ => false

def exceedsWindow : AttemptOutcome → Bool
  | .served => false
  | .failed error | .broke error => exceedsContextWindow error

end AttemptOutcome

/-- Fewer than two refusals come before the first success, `refused` earlier ones included, and
nothing ends the request before it. -/
def NotRefusedTwice (refused : ℕ) (outcomes : List AttemptOutcome) : Prop :=
  refused + (outcomes.takeWhile AttemptOutcome.unserved).countP AttemptOutcome.refuses < 2 ∧
    ∀ outcome ∈ outcomes.takeWhile AttemptOutcome.unserved, outcome.breaksOff = false

section Retry

variable {mode : Mode} {refused : ℕ} {error : AttemptError} {outcomes : List AttemptOutcome}

theorem notRefusedTwice_nil : NotRefusedTwice refused [] ↔ refused < 2 := by
  simp [NotRefusedTwice]

theorem notRefusedTwice_served : NotRefusedTwice refused (.served :: outcomes) ↔ refused < 2 := by
  simp [NotRefusedTwice, AttemptOutcome.unserved]

theorem notRefusedTwice_failed : NotRefusedTwice refused (.failed error :: outcomes) ↔
      NotRefusedTwice (refused + if countsAsRequestRefusal error then 1 else 0) outcomes := by
  have tried : (AttemptOutcome.failed error :: outcomes).takeWhile AttemptOutcome.unserved =
      .failed error :: outcomes.takeWhile AttemptOutcome.unserved := rfl
  have refuses : (AttemptOutcome.failed error).refuses = countsAsRequestRefusal error := rfl
  unfold NotRefusedTwice
  rw [tried, List.countP_cons, refuses, List.forall_mem_cons]
  constructor
  · rintro ⟨few, -, whole⟩
    exact ⟨by omega, whole⟩
  · rintro ⟨few, whole⟩
    exact ⟨by omega, rfl, whole⟩

theorem not_notRefusedTwice_broke : ¬NotRefusedTwice refused (.broke error :: outcomes) := by
  rintro ⟨-, whole⟩
  have first : AttemptOutcome.broke error ∈
      (.broke error :: outcomes).takeWhile AttemptOutcome.unserved := by
    exact List.mem_cons_self
  cases whole _ first

theorem NotRefusedTwice.refused_lt (holds : NotRefusedTwice refused outcomes) : refused < 2 := by
  have := holds.1
  omega

/-- The order hands out `others` and then `last`, with no deadline for any of
them. -/
def FallbackOrder.Holds (order : FallbackOrder Adapter) (others : List Adapter)
    (last : Adapter) : Prop :=
  (order.offload = none ∧ order.ordinary = others ∨
    ∃ adapter reason, order.offload = some adapter ∧ order.offloadNext = some reason ∧
      others = adapter :: order.ordinary) ∧
    order.retries.head? = some last

namespace FallbackOrder.Holds

variable {order : FallbackOrder Adapter} {others : List Adapter} {adapter last : Adapter}

theorem next_cons (holds : order.Holds (adapter :: others) last) :
    ∃ reason rest, order.next = (some (adapter, reason), rest) ∧ rest.offload = none ∧
      rest.Holds others last := by
  rcases holds with ⟨⟨gone, front⟩ | ⟨offload, reason, pending, due, front⟩, retry⟩
  · refine ⟨none, { order with ordinary := others }, ?_, gone, Or.inl ⟨gone, rfl⟩, retry⟩
    simp [FallbackOrder.next, FallbackOrder.nextInOrder, gone, front]
  · cases front
    refine ⟨some reason, { order with offload := none, offloadNext := none }, ?_, rfl,
      Or.inl ⟨rfl, rfl⟩, retry⟩
    simp [FallbackOrder.next, pending, due]

theorem next_nil (holds : order.Holds [] last) :
    ∃ rest, order.next = (some (last, none), rest) ∧ rest.offload = none := by
  rcases holds with ⟨⟨gone, front⟩ | ⟨offload, reason, -, -, front⟩, retry⟩
  · cases queued : order.retries with
    | nil => simp [queued] at retry
    | cons first rest =>
      rw [queued, List.head?_cons, Option.some.injEq] at retry
      subst retry
      refine ⟨{ order with retries := rest }, ?_, gone⟩
      simp [FallbackOrder.next, FallbackOrder.nextInOrder, gone, front, queued]
  · cases front

theorem recordFailure (holds : order.Holds others last) (gone : order.offload = none)
    (exc : UpstreamException) (route : Option Adapter) :
    (order.recordFailure exc route).Holds others last := by
  rcases order.recordFailure_frame exc route with ⟨ordinaryEq, offloadEq, retriesEq, -⟩
  rcases order.queueRetry_spec exc route with ⟨queued, -, queuedRetries, -⟩
  rcases holds with ⟨⟨-, front⟩ | ⟨offload, reason, pending, -⟩, retry⟩
  · refine ⟨Or.inl ⟨offloadEq.trans gone, ordinaryEq.trans front⟩, ?_⟩
    rw [retriesEq, queuedRetries, List.head?_append, retry]
    rfl
  · rw [gone] at pending
    cases pending

end FallbackOrder.Holds

variable {around : Surroundings}

theorem attemptOutcome_eq_settled (attempt : ℕ) (adapter : Adapter) :
    attemptOutcome mode around attempt adapter false =
      settled mode (around.recording attempt adapter) (around.answer attempt adapter) := rfl

/-- Recording a failure turns no error into a context-window refusal. -/
theorem exceedsWindow_settled (mode : Mode) (recording : Recording) {outcome : AttemptOutcome}
    (fits : outcome.exceedsWindow = false) :
    (settled mode recording outcome).exceedsWindow = false := by
  cases outcome with
  | served => rfl
  | failed error =>
    simp only [settled]
    split_ifs
    · rfl
    · exact fits
  | broke error =>
    simp only [settled]
    split_ifs
    · rfl
    · exact fits
    · exact fits

theorem queueDeadline_none (attempt : ℕ) (policy : Option OffloadPolicy) (window : Option ℤ) :
    queueDeadline around attempt none policy window = false := rfl

theorem widestRefusedWindow_of_fits (adapter : Adapter)
    (fits : exceedsContextWindow error = false) :
    widestRefusedWindow none adapter error = none := by
  simp [widestRefusedWindow, fits]

section Round

variable (policy : Option OffloadPolicy) {fuel attempt : ℕ} {walk : Walk} {adapter : Adapter}
  {reason : Option OffloadReason} {rest : FallbackOrder Adapter}
  (admits : ∀ attempt adapter, around.admits attempt adapter = true)
  (unrefused : walk.refusedWindow = none)
  (handed : walk.order.next = (some (adapter, reason), rest)) (gone : rest.offload = none)

include gone in
theorem no_deadline : (reason.isNone &&
    queueDeadline around attempt rest.offloadPending policy none) = false := by
  rw [FallbackOrder.offloadPending, gone, queueDeadline_none, Bool.and_false]

include admits unrefused handed gone

theorem fallbackLoop_served (served : settled mode (around.recording attempt adapter)
      (around.answer attempt adapter) = .served) :
    fallbackLoop mode around policy (fuel + 1) attempt walk = some (.served adapter) := by
  rw [fallbackLoop, handed]
  simp only [unrefused, windowCannotFit, admits, no_deadline policy gone,
    attemptOutcome_eq_settled, served, Bool.false_eq_true, if_false, Bool.not_true]

theorem fallbackLoop_broke (broke : settled mode (around.recording attempt adapter)
      (around.answer attempt adapter) = .broke error) :
    fallbackLoop mode around policy (fuel + 1) attempt walk = some (.raised (some error)) := by
  rw [fallbackLoop, handed]
  simp only [unrefused, windowCannotFit, admits, no_deadline policy gone,
    attemptOutcome_eq_settled, broke, Bool.false_eq_true, if_false, Bool.not_true]

theorem fallbackLoop_failed (failed : settled mode (around.recording attempt adapter)
      (around.answer attempt adapter) = .failed error) :
    fallbackLoop mode around policy (fuel + 1) attempt walk =
      if stopsAfterRequestRefusals ({ walk with order := rest }.fail adapter reason error).attempts
      then some (.raised
        (surfacedError ({ walk with order := rest }.fail adapter reason error).attempts))
      else fallbackLoop mode around policy fuel (attempt + 1)
        ({ walk with order := rest }.fail adapter reason error) := by
  rw [fallbackLoop, handed]
  simp only [unrefused, windowCannotFit, admits, no_deadline policy gone,
    attemptOutcome_eq_settled, failed, Bool.false_eq_true, if_false, Bool.not_true]

end Round

theorem fallbackLoop_served_iff (policy : Option OffloadPolicy)
    (admits : ∀ attempt adapter, around.admits attempt adapter = true)
    (fits : ∀ attempt adapter, (around.answer attempt adapter).exceedsWindow = false)
    {fuel attempt : ℕ} {walk : Walk} {others : List Adapter} {last : Adapter}
    (holds : walk.order.Holds others last) (unrefused : walk.refusedWindow = none)
    (enough : others.length < fuel)
    (counted : refusals walk.attempts = refused) (few : refused < 2)
    (serves : around.answer (attempt + others.length) last = .served) :
    (∃ route, fallbackLoop mode around policy fuel attempt walk = some (.served route)) ↔
      NotRefusedTwice refused (answers mode around attempt others) := by
  induction others generalizing fuel attempt walk refused with
  | nil =>
    rcases fuel with _ | fuel
    · simp at enough
    rcases holds.next_nil with ⟨rest, handed, gone⟩
    have served : settled mode (around.recording attempt last) (around.answer attempt last) =
        .served := by
      rw [List.length_nil, Nat.add_zero] at serves
      rw [serves]
      rfl
    rw [fallbackLoop_served policy admits unrefused handed gone served]
    simpa [answers, notRefusedTwice_nil] using few
  | cons adapter others ih =>
    rcases fuel with _ | fuel
    · simp at enough
    rcases holds.next_cons with ⟨reason, rest, handed, gone, restHolds⟩
    have enoughRest : others.length < fuel := by
      simp only [List.length_cons] at enough
      omega
    have servesRest : around.answer (attempt + 1 + others.length) last = .served := by
      rw [← serves, List.length_cons]
      congr 1
      omega
    have fitsHere := exceedsWindow_settled mode (around.recording attempt adapter)
      (fits attempt adapter)
    rw [answers]
    cases outcome : settled mode (around.recording attempt adapter)
      (around.answer attempt adapter) with
    | served =>
      rw [notRefusedTwice_served, fallbackLoop_served policy admits unrefused handed gone outcome]
      simpa using few
    | broke error =>
      rw [fallbackLoop_broke policy admits unrefused handed gone outcome]
      simpa using not_notRefusedTwice_broke
    | failed error =>
      rw [outcome] at fitsHere
      have countedAfter :
          refusals ({ walk with order := rest }.fail adapter reason error).attempts =
            refused + if countsAsRequestRefusal error then 1 else 0 := by
        rw [← counted]
        simp only [refusals, Walk.fail, List.countP_append, List.countP_singleton]
      rw [notRefusedTwice_failed, fallbackLoop_failed policy admits unrefused handed gone outcome]
      by_cases stops : stopsAfterRequestRefusals
          ({ walk with order := rest }.fail adapter reason error).attempts = true
      · rw [if_pos stops]
        simp only [stopsAfterRequestRefusals, countedAfter, requestRefusalLimit,
          decide_eq_true_eq] at stops
        constructor
        · rintro ⟨route, raised⟩
          cases raised
        · intro notTwice
          exact absurd notTwice.refused_lt (by omega)
      · rw [if_neg stops]
        simp only [stopsAfterRequestRefusals, countedAfter, requestRefusalLimit,
          decide_eq_true_eq, not_le] at stops
        refine ih ?_ ?_ enoughRest countedAfter stops servesRest
        · exact restHolds.recordFailure gone _ _
        · simp only [Walk.fail, unrefused]
          exact widestRefusedWindow_of_fits adapter fitsHere

def otherCandidates (request : RouterRequest) (primary : Adapter) : List Adapter :=
  (fallbackOrder request primary).1.offload.toList ++ (fallbackOrder request primary).1.ordinary

section CutShort

variable {request : RouterRequest} {primary : Adapter}

theorem fallbackOrder_eq_init (request : RouterRequest) (primary : Adapter) :
    ∃ ordinary offload policy,
      fallbackOrder request primary = (.init ordinary offload, policy) := by
  unfold fallbackOrder
  split
  · exact ⟨_, _, _, rfl⟩
  · split
    · exact ⟨_, _, _, rfl⟩
    · split_ifs
      · exact ⟨_, _, _, rfl⟩
      · exact ⟨_, _, _, rfl⟩
      · exact ⟨_, _, _, rfl⟩

theorem may_fall_back_of_deadline
    (deadline : (primaryOffload around request primary).deadline = true) :
    (request.pinProvider.isSome || !request.allowFallback) = false := by
  unfold primaryOffload at deadline
  split at deadline
  · cases deadline
  · next offload policy target =>
    have unpinned : request.pinProvider.isSome = false := by
      by_contra pinned
      simp [requestOffloadTarget, pinned] at target
    split_ifs at deadline with isPrimary owned
    simpa [unpinned] using owned

/-- Neither wait is charged to the endpoint, so recording it cannot raise. -/
theorem WaitDeadline.not_raises (wait : WaitDeadline) (recording : Recording) :
    recording.raises wait.error = false := by
  apply recordFailureRaises_of_uncharged
  refine FailureReport.uncharged_of rfl (Or.inl ?_)
  cases wait <;> decide

theorem WaitDeadline.error_abandoned (wait : WaitDeadline) :
    abandonedForOffload wait.error.toUpstreamException = true ∧
      (offloadReasonFor wait.error.toUpstreamException).isSome ∧
      countsAsRequestRefusal wait.error = false ∧ exceedsContextWindow wait.error = false := by
  cases wait <;> decide

theorem recordFailure_holds (wait : WaitDeadline) :
    ((fallbackOrder request primary).1.recordFailure wait.error.toUpstreamException
      (some primary)).Holds (otherCandidates request primary) primary := by
  rcases fallbackOrder_eq_init request primary with ⟨ordinary, offload, policy, built⟩
  rcases wait.error_abandoned with ⟨abandoned, waited, -, -⟩
  rcases Option.isSome_iff_exists.mp waited with ⟨reason, isReason⟩
  unfold otherCandidates
  rw [built]
  dsimp only
  rcases (FallbackOrder.init ordinary offload).recordFailure_frame
    wait.error.toUpstreamException (some primary) with ⟨ordinaryEq, offloadEq, retriesEq, -⟩
  refine ⟨?_, ?_⟩
  · cases isOffload : offload with
    | none =>
      left
      rw [← isOffload, offloadEq, ordinaryEq, isOffload]
      exact ⟨rfl, rfl⟩
    | some adapter =>
      right
      refine ⟨adapter, reason, ?_, ?_, ?_⟩
      · rw [← isOffload, offloadEq, isOffload]
        rfl
      · have pending : (FallbackOrder.init ordinary offload).offload ≠ none := by
          simp [FallbackOrder.init, isOffload]
        rw [← isOffload, FallbackOrder.recordFailure_offloadNext _ _ _ pending, isReason]
        rfl
      · rw [← isOffload, ordinaryEq, isOffload]
        rfl
  · rw [retriesEq]
    simp [FallbackOrder.queueRetry, FallbackOrder.init, abandoned]

/-- A request whose primary was cut short for the offload route, and would serve it without a
deadline, is served exactly when the others do not refuse it twice before, no stream of theirs
breaks off, and recording their failures raises nothing. -/
theorem cut_short_request_served_iff
    (admits : ∀ attempt adapter, around.admits attempt adapter = true)
    (fits : ∀ attempt adapter, (around.answer attempt adapter).exceedsWindow = false)
    (cut : (cutBy mode around 0 primary (primaryOffload around request primary).deadline).isSome)
    (serves : around.answer ((otherCandidates request primary).length + 1) primary = .served) :
    (∃ route, routerCall mode around request primary = some (.served route)) ↔
      NotRefusedTwice 0 (answers mode around 1 (otherCandidates request primary)) := by
  rcases Option.isSome_iff_exists.mp cut with ⟨wait, isWait⟩
  rcases wait.error_abandoned with ⟨-, -, unrefused, fitted⟩
  have deadline : (primaryOffload around request primary).deadline = true := by
    by_contra unarmed
    simp [cutBy, unarmed] at isWait
  have failed : attemptOutcome mode around 0 primary
      (primaryOffload around request primary).deadline = .failed wait.error := by
    unfold attemptOutcome
    rw [isWait]
    exact if_neg (by simp [wait.not_raises])
  have called : routerCall mode around request primary =
      fallbackLoop mode around (fallbackOrder request primary).2
        ((fallbackOrder request primary).1.recordFailure wait.error.toUpstreamException
          (some primary)).potential 1
        (.afterPrimary (fallbackOrder request primary).1 primary
          (primaryOffload around request primary).reason wait.error) := by
    unfold routerCall
    dsimp only
    rw [failed]
    dsimp only
    rw [may_fall_back_of_deadline deadline]
    rfl
  have holds : ((fallbackOrder request primary).1.recordFailure wait.error.toUpstreamException
      (some primary)).Holds (otherCandidates request primary) primary := recordFailure_holds wait
  have enough : (otherCandidates request primary).length <
      ((fallbackOrder request primary).1.recordFailure wait.error.toUpstreamException
        (some primary)).potential := by
    rcases (fallbackOrder request primary).1.recordFailure_frame
      wait.error.toUpstreamException (some primary) with ⟨ordinaryEq, offloadEq, -, -⟩
    rw [FallbackOrder.potential, ordinaryEq, offloadEq, otherCandidates, List.length_append]
    omega
  rw [called]
  refine fallbackLoop_served_iff _ admits fits holds ?_ enough ?_ (by omega) ?_
  · exact widestRefusedWindow_of_fits primary fitted
  · simp [refusals, Walk.afterPrimary, unrefused]
  · rw [← serves, Nat.add_comm]

def malformed : AttemptError :=
  { kind := .other
    status := some 400
    statusCode := none
    code := none
    response := none
    operatorSafeError := none
    namesContextWindow := false }

def threeRoutes : RouteTable :=
  { candidates := some [(⟨0, "primary", "a", none⟩, 1), (⟨1, "fallback", "b", none⟩, 1),
      (⟨2, "offload", "c", none⟩, 1)]
    policy := some { routeId := "offload", maxInputTokens := none } }

def calmRecording : Recording :=
  { alpha := 1 / 10
    config := {}
    policy := {}
    scan := .silent
    endpoint := .fresh 0 0
    report := { clocks := ⟨0, 0, 0⟩, reportedAt := 0, scheduled := true } }

def busyPrimary (fallback offload : AttemptOutcome) : Surroundings :=
  { admits := fun _ _ => true
    servesCaller := fun _ _ => true
    overruns := fun _ _ => some .queueWait
    answer := fun _ adapter =>
      match adapter.identity with
      | 0 => .served
      | 1 => fallback
      | _ => offload
    recording := fun _ _ => calmRecording }

theorem busyPrimary_fits {fallback offload : AttemptOutcome}
    (fallbackFits : fallback.exceedsWindow = false) (offloadFits : offload.exceedsWindow = false)
    (attempt : ℕ) (adapter : Adapter) :
    ((busyPrimary fallback offload).answer attempt adapter).exceedsWindow = false := by
  unfold busyPrimary
  dsimp only
  split
  · rfl
  · exact fallbackFits
  · exact offloadFits

/-- The offload route refuses the request and the fallback serves it. -/
theorem cut_short_request_served_iff_one_refusal :
    ∃ route, routerCall .stream (busyPrimary .served (.failed malformed))
        ⟨none, true, 1000, threeRoutes, threeRoutes⟩ ⟨0, "primary", "a", none⟩ =
      some (.served route) :=
  (cut_short_request_served_iff (fun _ _ => rfl) (busyPrimary_fits rfl rfl) (by decide +kernel)
    rfl).mpr ⟨by decide +kernel, by decide +kernel⟩

/-- The primary would have served the request that two other routes refused. -/
theorem cut_short_request_fails :
    ¬ ∀ (mode : Mode) (around : Surroundings) (request : RouterRequest) (primary : Adapter),
      (∀ attempt adapter, around.admits attempt adapter = true) →
      (∀ attempt adapter, (around.answer attempt adapter).exceedsWindow = false) →
      (cutBy mode around 0 primary (primaryOffload around request primary).deadline).isSome →
      (∀ attempt, 0 < attempt → around.answer attempt primary = .served) →
      ∃ route, routerCall mode around request primary = some (.served route) := by
  intro claim
  rcases claim .chat (busyPrimary (.failed malformed) (.failed malformed))
    ⟨none, true, 1000, threeRoutes, threeRoutes⟩ ⟨0, "primary", "a", none⟩ (fun _ _ => rfl)
    (busyPrimary_fits rfl rfl) (by decide +kernel) (fun _ _ => rfl) with ⟨route, served⟩
  cases served

end CutShort

end Retry

end HybridInference.Routing
