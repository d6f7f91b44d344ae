import HybridInference.Health.Breaker

/-!
# One endpoint of the health registry

`EndpointHealthRegistry` of `routing.endpoint_health` keeps, for each endpoint,
a passive availability estimate and a circuit breaker, and decides which
failures are charged to the endpoint at all. An endpoint the registry has not
seen reads as the values that `ensure` stores for it.
-/

namespace HybridInference.Health

open Library

/-- The exception classes `_uncharged_failure_event` tells apart. -/
inductive ExceptionClass where
  | keyPoolRoleRestricted
  | keyPoolExhausted
  | upstreamSaturated
  | upstreamQueueWaitExpired
  | engineWaitExpired
  | upstreamModelQueued
  | other
  deriving DecidableEq

/-- `isinstance`, for the classes above. -/
def ExceptionClass.isInstance : ExceptionClass → ExceptionClass → Bool
  | .keyPoolRoleRestricted, .keyPoolExhausted => true
  | .upstreamQueueWaitExpired, .upstreamSaturated => true
  | kind, parent => kind = parent

structure ExceptionResponse where
  statusCode : Option ℤ
  status : Option ℤ

/-- What the registry reads of an exception: its class, the integer attributes
that may hold a status, and the text `operator_safe_error` makes of it. -/
structure UpstreamException where
  kind : ExceptionClass
  status : Option ℤ
  statusCode : Option ℤ
  code : Option ℤ
  response : Option ExceptionResponse
  operatorSafeError : Option String

def firstStatus (attributes : List (Option ℤ)) : Option ℤ :=
  (attributes.filterMap id).find? fun value => 100 ≤ value && value ≤ 599

def httpStatusOf (exc : UpstreamException) : Option ℤ :=
  match firstStatus [exc.status, exc.statusCode, exc.code] with
  | some status => some status
  | none => exc.response.bind fun response => firstStatus [response.statusCode, response.status]

def authMisconfigStatuses : List ℤ := [401, 407]

def isAuthMisconfig : Option ℤ → Bool
  | none => false
  | some status => authMisconfigStatuses.contains status

def isClientErrorStatus : Option ℤ → Bool
  | none => false
  | some status =>
    if !(400 ≤ status && status < 500) then false
    else if status = 408 || status = 429 then false
    else !isAuthMisconfig (some status)

def isClientError (exc : UpstreamException) : Bool :=
  isClientErrorStatus (httpStatusOf exc)

def unchargedFailureEvent (exc : UpstreamException) : Option String :=
  if exc.kind.isInstance .keyPoolRoleRestricted then some "role_restricted_skip_breaker"
  else if exc.kind.isInstance .keyPoolExhausted then some "key_pool_exhausted_skip_breaker"
  else if exc.kind.isInstance .upstreamSaturated then some "gateway_throttle_skip_breaker"
  else if exc.kind.isInstance .engineWaitExpired then some "engine_wait_skip_breaker"
  else if exc.kind.isInstance .upstreamModelQueued then some "model_queued_skip_breaker"
  else none

/-- `" ".join(s.split())`. -/
def joinWords (text : List Char) : List Char :=
  List.intercalate [' '] ((text.splitOnP isSpace).filter (· ≠ []))

/-- `_detail_str`, with its default limit. -/
def detailStr (detail : Option String) : Option String :=
  match detail with
  | none => none
  | some text =>
    let cleaned := joinWords (text.toList.take (500 * 2))
    if cleaned = [] then none
    else if cleaned.length ≤ 500 then some (String.ofList cleaned)
    else some (String.ofList (cleaned.take (500 - 1) ++ ['…']))

def reasonStr (reason : String) : String :=
  if reason ≠ "" && reason.length < 64 then reason else "error"

/-- `_caller_str`, on the two fields of the request context it reads. -/
def callerStr (userId userName : Option String) : Option String :=
  let named (value : Option String) := value.filter (· ≠ "")
  let userName := named ((named userName).map fun name => String.ofList (joinWords name.toList))
  match named userId, userName with
  | some userId, some userName => some (userName ++ " (" ++ userId ++ ")")
  | some userId, none => some userId
  | none, userName => userName

structure ProviderHealth where
  ewmaSuccess : ℚ := 1
  ewmaTotal : ℚ := 1
  lastErrorStatus : Option ℤ := none
  consecutiveAuthRejections : ℕ := 0
  deriving DecidableEq

namespace ProviderHealth

/-- `record`: the new counters, and whether the outcome ended a run of
credential rejections. -/
def record (alpha : ℚ) (health : ProviderHealth) (success : Bool) : ProviderHealth × Bool :=
  let counted := { health with
    ewmaSuccess := (1 - alpha) * health.ewmaSuccess + alpha * (if success then 1 else 0)
    ewmaTotal := (1 - alpha) * health.ewmaTotal + alpha }
  if success && health.consecutiveAuthRejections ≠ 0 then
    ({ counted with consecutiveAuthRejections := 0 }, true)
  else (counted, false)

def noteFailure (health : ProviderHealth) (status : Option ℤ) (authMisconfig : Bool) :
    ProviderHealth :=
  { health with
    lastErrorStatus := status.or health.lastErrorStatus
    consecutiveAuthRejections :=
      health.consecutiveAuthRejections + (if authMisconfig then 1 else 0) }

def availability (health : ProviderHealth) : ℚ :=
  if health.ewmaTotal ≤ 0 then 1
  else max 0 (min 1 (health.ewmaSuccess / health.ewmaTotal))

end ProviderHealth

/-- One `record_failure` call: its arguments, the request context, the clocks it
reads (the last reading by `_report_auth_misconfig`) and whether a running loop
accepts a page. -/
structure FailureReport where
  reason : String := "error"
  detail : Option String := none
  exc : Option UpstreamException := none
  userId : Option String := none
  userName : Option String := none
  clocks : Clocks
  reportedAt : ℚ
  scheduled : Bool

/-- `record_failure` does not return before it counts the failure. -/
def chargesFailure (exc : UpstreamException) : Bool :=
  (unchargedFailureEvent exc).isNone && !(!isAuthMisconfig (httpStatusOf exc) && isClientError exc)

def FailureReport.charged (report : FailureReport) : Bool :=
  match report.exc with
  | none => true
  | some exc => chargesFailure exc

def FailureReport.status (report : FailureReport) : Option ℤ :=
  report.exc.bind httpStatusOf

def FailureReport.safeDetail (report : FailureReport) : Option String :=
  detailStr (match report.detail with
    | some detail => some detail
    | none => report.exc.bind UpstreamException.operatorSafeError)

structure Endpoint where
  health : ProviderHealth
  world : BreakerWorld
  authAlertAt : Option ℚ
  deriving DecidableEq

def Endpoint.breaker (endpoint : Endpoint) : CircuitBreaker := endpoint.world.breaker

def Endpoint.fresh (perf mono : ℚ) : Endpoint :=
  { health := {}, world := .fresh perf mono, authAlertAt := none }

/-- The registry's operations on one endpoint, and its pages finishing. A claim
carries the probe token it was issued, if any. -/
inductive EndpointEvent where
  | recordSuccess
  | recordFailure (report : FailureReport)
  | beginDispatch (perf : ℚ)
  | endDispatch (claim : Option (Option ℕ))
  | finishPage (index : ℕ) (delivery : Delivery) (mono : ℚ)

def authAlertScheduleInterval : ℚ := 5

/-- The throttle of `_report_auth_misconfig`: when a page was last scheduled. -/
def reportAuthMisconfig (authAlertAt : Option ℚ) (now : ℚ) : Option ℚ :=
  match authAlertAt with
  | none => some now
  | some lastScheduled =>
    if now - lastScheduled < authAlertScheduleInterval then some lastScheduled else some now

section Operations

variable (alpha : ℚ) (config : BreakerConfig) (policy : CircuitOpenPolicy) (scan : ResetScan)

def Endpoint.stepBreaker (endpoint : Endpoint) (event : BreakerEvent) : Option Endpoint :=
  ((breakerMachine config policy scan).step endpoint.world event).map fun world =>
    { endpoint with world := world }

def Endpoint.recordSuccess (endpoint : Endpoint) : Option Endpoint :=
  let recorded := endpoint.health.record alpha true
  { endpoint with
    health := recorded.1
    authAlertAt := if recorded.2 then none else endpoint.authAlertAt }.stepBreaker config policy
      scan .onSuccess

def Endpoint.failedHealth (endpoint : Endpoint) (report : FailureReport) : ProviderHealth :=
  (endpoint.health.record alpha false).1.noteFailure report.status (isAuthMisconfig report.status)

/-- What `record_failure` hands the circuit. -/
def Endpoint.failure (endpoint : Endpoint) (report : FailureReport) : Failure where
  clocks := report.clocks
  availability := some (endpoint.failedHealth alpha report).availability
  reason := reasonStr report.reason
  detail := report.safeDetail
  caller := callerStr report.userId report.userName
  scheduled := report.scheduled

/-- `record_failure` raises: nothing catches what `on_failure` raises. -/
def Endpoint.recordFailureRaises (endpoint : Endpoint) (report : FailureReport) : Bool :=
  report.charged &&
    (endpoint.breaker.onFailure config policy scan (endpoint.failure alpha report)).2 = .raised

/-- A failure that raises is counted, and its auth rejection is not reported. -/
def Endpoint.recordFailure (endpoint : Endpoint) (report : FailureReport) : Option Endpoint :=
  if !report.charged then some endpoint
  else
    let reported := isAuthMisconfig report.status &&
      !endpoint.recordFailureRaises alpha config policy scan report
    if reported && report.reportedAt < report.clocks.mono then none
    else
      { health := endpoint.failedHealth alpha report
        world := endpoint.world
        authAlertAt :=
          if reported then reportAuthMisconfig endpoint.authAlertAt report.reportedAt
          else endpoint.authAlertAt : Endpoint }.stepBreaker config policy scan
        (.onFailure (endpoint.failure alpha report))

def Endpoint.step (endpoint : Endpoint) : EndpointEvent → Option Endpoint
  | .recordSuccess => endpoint.recordSuccess alpha config policy scan
  | .recordFailure report => endpoint.recordFailure alpha config policy scan report
  | .beginDispatch perf => endpoint.stepBreaker config policy scan (.beginDispatch perf)
  | .endDispatch (some (some token)) =>
    endpoint.stepBreaker config policy scan (.endDispatch token)
  | .endDispatch _ => some endpoint
  | .finishPage index delivery mono =>
    endpoint.stepBreaker config policy scan (.finishPage index delivery mono)

def endpointMachine : Machine Endpoint EndpointEvent where
  step := Endpoint.step alpha config policy scan

end Operations

namespace ProviderHealth

def Weighted (health : ProviderHealth) : Prop :=
  health.ewmaTotal = 1 ∧ 0 ≤ health.ewmaSuccess ∧ health.ewmaSuccess ≤ 1

variable {alpha : ℚ} {health : ProviderHealth}

theorem Weighted.availability_eq (weighted : health.Weighted) :
    health.availability = health.ewmaSuccess := by
  rcases weighted with ⟨total, nonneg, atMost⟩
  simp [availability, total, nonneg, atMost]

@[simp]
theorem record_ewmaSuccess (success : Bool) : (health.record alpha success).1.ewmaSuccess =
      (1 - alpha) * health.ewmaSuccess + alpha * (if success then 1 else 0) := by
  unfold record
  split_ifs <;> rfl

@[simp]
theorem record_ewmaTotal (success : Bool) :
    (health.record alpha success).1.ewmaTotal = (1 - alpha) * health.ewmaTotal + alpha := by
  unfold record
  split_ifs <;> rfl

theorem Weighted.record (weighted : health.Weighted) (positive : 0 < alpha) (atMostOne : alpha ≤ 1)
    (success : Bool) : (health.record alpha success).1.Weighted := by
  rcases weighted with ⟨total, nonneg, atMost⟩
  have kept : 0 ≤ (1 - alpha) * health.ewmaSuccess := mul_nonneg (by linarith) nonneg
  have lowered : (1 - alpha) * health.ewmaSuccess ≤ 1 - alpha :=
    mul_le_of_le_one_right (by linarith) atMost
  refine ⟨?_, ?_, ?_⟩
  · rw [record_ewmaTotal, total]
    linarith
  · cases success <;> simp <;> linarith
  · cases success <;> simp <;> linarith

theorem Weighted.noteFailure (weighted : health.Weighted) (status : Option ℤ)
    (authMisconfig : Bool) : (health.noteFailure status authMisconfig).Weighted :=
  weighted

theorem Weighted.record_failure_le (weighted : health.Weighted) (positive : 0 < alpha)
    (atMostOne : alpha ≤ 1) :
    (health.record alpha false).1.availability ≤ health.availability := by
  rw [(weighted.record positive atMostOne false).availability_eq, weighted.availability_eq,
    record_ewmaSuccess]
  have := mul_nonneg positive.le weighted.2.1
  simp only [Bool.false_eq_true, if_false, mul_zero, add_zero]
  linarith

end ProviderHealth

def StaysTripped (config : BreakerConfig) (breaker : CircuitBreaker) (availability : ℚ) : Prop :=
  breaker.state ≠ .closed → config.failureThreshold ≤ (breaker.consecutiveFailures : ℤ) ∨
      availability < config.minAvailability

section Breaker

variable {config : BreakerConfig} {policy : CircuitOpenPolicy} {scan : ResetScan}
  {breaker : CircuitBreaker} {availability : ℚ}

theorem StaysTripped.congr {other : CircuitBreaker}
    (tripped : StaysTripped config breaker availability)
    (state : other.state = .closed ↔ breaker.state = .closed)
    (streak : other.consecutiveFailures = breaker.consecutiveFailures) :
    StaysTripped config other availability := by
  intro notClosed
  rw [streak]
  exact tripped fun closed => notClosed (state.mpr closed)

theorem StaysTripped.reopens {failure : Failure} {lowered : ℚ}
    (tripped : StaysTripped config breaker availability) (notClosed : breaker.state ≠ .closed)
    (given : failure.availability = some lowered) (lower : lowered ≤ availability) :
    (breaker.onFailure config policy scan failure).1.state = .opened ∧
      (breaker.onFailure config policy scan failure).1.lastOpened = some failure.clocks.perf := by
  have reached : ((breaker.countFailure failure.caller).byStreak config ||
      CircuitBreaker.byAvailability config failure.availability) = true := by
    rw [Bool.or_eq_true]
    rcases tripped notClosed with streak | unavailable
    · left
      simp only [CircuitBreaker.byStreak, CircuitBreaker.countFailure, Nat.cast_add, Nat.cast_one,
        decide_eq_true_eq]
      linarith
    · right
      simp only [CircuitBreaker.byAvailability, given, decide_eq_true_eq]
      exact lower.trans_lt unavailable
  rcases CircuitBreaker.onFailure_reached config policy scan reached with ⟨_, _, _, framed⟩
  simp [framed]

theorem StaysTripped.onFailure {failure : Failure} {lowered : ℚ}
    (tripped : StaysTripped config breaker availability)
    (given : failure.availability = some lowered) (lower : lowered ≤ availability) :
    StaysTripped config (breaker.onFailure config policy scan failure).1 lowered := by
  cases reached : (breaker.countFailure failure.caller).byStreak config ||
      CircuitBreaker.byAvailability config failure.availability with
  | false =>
    rw [CircuitBreaker.onFailure_below config policy scan reached]
    intro notClosed
    rcases tripped notClosed with streak | unavailable
    · left
      simp only [CircuitBreaker.countFailure, Nat.cast_add, Nat.cast_one]
      linarith
    · exact Or.inr (lower.trans_lt unavailable)
  | true =>
    rcases CircuitBreaker.onFailure_reached config policy scan reached with ⟨_, _, _, framed⟩
    intro _
    rw [framed]
    simpa [CircuitBreaker.byStreak, CircuitBreaker.byAvailability, given] using reached

theorem CircuitBreaker.beginDispatch_frame (config : BreakerConfig) (breaker : CircuitBreaker)
    (now : ℚ) :
    ((breaker.beginDispatch config now).1.state = .closed ↔ breaker.state = .closed) ∧
      (breaker.beginDispatch config now).1.consecutiveFailures = breaker.consecutiveFailures := by
  rcases breaker.beginDispatch_unchanged_or_token config now with unchanged | ⟨token, issued⟩
  · rw [unchanged]
    exact ⟨Iff.rfl, rfl⟩
  · rcases CircuitBreaker.beginDispatch_token issued with ⟨-, claimed, claim⟩
    rw [claimed]
    refine ⟨?_, rfl⟩
    rcases claim with ⟨_, state, -, -⟩ | ⟨state, -⟩ <;> simp [CircuitBreaker.claimProbe, state]

theorem CircuitBreaker.endDispatch_frame (breaker : CircuitBreaker) (token : ℕ) :
    (breaker.endDispatch token).state = breaker.state ∧
      (breaker.endDispatch token).consecutiveFailures = breaker.consecutiveFailures := by
  unfold CircuitBreaker.endDispatch CircuitBreaker.releaseProbe
  split_ifs <;> exact ⟨rfl, rfl⟩

end Breaker

section Steps

variable {alpha : ℚ} {config : BreakerConfig} {policy : CircuitOpenPolicy} {scan : ResetScan}
  {endpoint next : Endpoint}

theorem stepBreaker_eq_some {event : BreakerEvent} :
    endpoint.stepBreaker config policy scan event = some next ↔
      ∃ world, (breakerMachine config policy scan).step endpoint.world event = some world ∧
        next = { endpoint with world := world } := by
  simp [Endpoint.stepBreaker, eq_comm]

theorem step_recordSuccess
    (stepped : (endpointMachine alpha config policy scan).step endpoint .recordSuccess =
      some next) :
    next.health = (endpoint.health.record alpha true).1 ∧
      next.breaker = endpoint.breaker.onSuccess := by
  simp only [endpointMachine, Endpoint.step, Endpoint.recordSuccess] at stepped
  rcases stepBreaker_eq_some.mp stepped with ⟨world, breakerStepped, rfl⟩
  rcases step_onSuccess.mp breakerStepped with rfl
  exact ⟨rfl, rfl⟩

variable {report : FailureReport}

theorem step_recordFailure_uncharged (uncharged : report.charged = false) :
    (endpointMachine alpha config policy scan).step endpoint (.recordFailure report) =
      some endpoint := by
  simp [endpointMachine, Endpoint.step, Endpoint.recordFailure, uncharged]

/-- What is not counted cannot raise. -/
theorem recordFailureRaises_of_uncharged (uncharged : report.charged = false) :
    endpoint.recordFailureRaises alpha config policy scan report = false := by
  simp [Endpoint.recordFailureRaises, uncharged]

theorem step_recordFailure_charged (charged : report.charged = true)
    (stepped : (endpointMachine alpha config policy scan).step endpoint (.recordFailure report) =
      some next) :
    ∃ failure : Failure, failure.clocks = report.clocks ∧
      failure.availability = some next.health.availability ∧
      next.health = endpoint.failedHealth alpha report ∧
      next.breaker = (endpoint.breaker.onFailure config policy scan failure).1 := by
  simp only [endpointMachine, Endpoint.step, Endpoint.recordFailure, charged, Bool.not_true,
    Bool.false_eq_true, if_false] at stepped
  split_ifs at stepped
  all_goals
    rcases stepBreaker_eq_some.mp stepped with ⟨world, breakerStepped, rfl⟩
    rcases step_onFailure.mp breakerStepped with ⟨-, -, rfl⟩
    exact ⟨_, rfl, rfl, rfl, rfl⟩

theorem step_of_no_outcome {event : EndpointEvent} (notSuccess : event ≠ .recordSuccess)
    (notFailure : ∀ report, event ≠ .recordFailure report)
    (stepped : (endpointMachine alpha config policy scan).step endpoint event = some next) :
    next.health = endpoint.health ∧
      (next.breaker.state = .closed ↔ endpoint.breaker.state = .closed) ∧
      next.breaker.consecutiveFailures = endpoint.breaker.consecutiveFailures := by
  cases event with
  | recordSuccess => exact absurd rfl notSuccess
  | recordFailure report => exact absurd rfl (notFailure report)
  | beginDispatch now =>
    rcases stepBreaker_eq_some.mp stepped with ⟨world, breakerStepped, rfl⟩
    rcases step_beginDispatch.mp breakerStepped with ⟨-, rfl⟩
    exact ⟨rfl, endpoint.breaker.beginDispatch_frame config now⟩
  | endDispatch claim =>
    rcases claim with _ | _ | token
    · cases stepped
      exact ⟨rfl, Iff.rfl, rfl⟩
    · cases stepped
      exact ⟨rfl, Iff.rfl, rfl⟩
    · simp only [endpointMachine, Endpoint.step] at stepped
      rcases stepBreaker_eq_some.mp stepped with ⟨world, breakerStepped, rfl⟩
      rcases step_endDispatch.mp breakerStepped with rfl
      rcases endpoint.breaker.endDispatch_frame token with ⟨state, streak⟩
      exact ⟨rfl, by rw [← state]; rfl, streak⟩
  | finishPage index delivery mono =>
    rcases stepBreaker_eq_some.mp stepped with ⟨world, breakerStepped, rfl⟩
    rcases step_finishPage.mp breakerStepped with ⟨scheduled, -, -, -, rfl⟩
    rcases endpoint.world.breaker.finishPage_frame scheduled.page delivery mono with
      ⟨_, _, _, framed⟩
    simp only [Endpoint.breaker, framed]
    exact ⟨trivial, trivial, trivial⟩

structure EndpointInvariant (config : BreakerConfig) (endpoint : Endpoint) : Prop where
  weighted : endpoint.health.Weighted
  tripped : StaysTripped config endpoint.breaker endpoint.health.availability

theorem EndpointInvariant.fresh (perf mono : ℚ) : EndpointInvariant config (.fresh perf mono) where
  weighted := by
    unfold ProviderHealth.Weighted Endpoint.fresh
    norm_num
  tripped := fun notClosed => absurd rfl notClosed

theorem EndpointInvariant.failedHealth (holds : EndpointInvariant config endpoint)
    (positive : 0 < alpha) (atMostOne : alpha ≤ 1) (report : FailureReport) :
    (endpoint.failedHealth alpha report).Weighted ∧
      (endpoint.failedHealth alpha report).availability ≤ endpoint.health.availability :=
  ⟨(holds.weighted.record positive atMostOne false).noteFailure _ _,
    holds.weighted.record_failure_le positive atMostOne⟩

/-- One event of the endpoint keeps its invariant. -/
theorem EndpointInvariant.step (positive : 0 < alpha) (atMostOne : alpha ≤ 1)
    {event : EndpointEvent} (holds : EndpointInvariant config endpoint)
    (stepped : (endpointMachine alpha config policy scan).step endpoint event = some next) :
    EndpointInvariant config next := by
  by_cases success : event = .recordSuccess
  · subst success
    rcases step_recordSuccess stepped with ⟨health, breaker⟩
    refine ⟨health ▸ holds.weighted.record positive atMostOne true, fun notClosed => ?_⟩
    simp [breaker] at notClosed
  by_cases failure : ∃ report, event = .recordFailure report
  · rcases failure with ⟨report, rfl⟩
    cases charged : report.charged with
    | false =>
      rw [step_recordFailure_uncharged charged] at stepped
      cases stepped
      exact holds
    | true =>
      rcases step_recordFailure_charged charged stepped with ⟨failure, -, given, health, breaker⟩
      rcases holds.failedHealth positive atMostOne report with ⟨weighted, lower⟩
      rw [← health] at weighted lower
      refine ⟨weighted, ?_⟩
      rw [breaker]
      exact holds.tripped.onFailure given lower
  · rcases step_of_no_outcome success (fun report equal => failure ⟨report, equal⟩) stepped with
      ⟨health, state, streak⟩
    exact ⟨health ▸ holds.weighted, health ▸ holds.tripped.congr state streak⟩

theorem EndpointInvariant.of_run (positive : 0 < alpha) (atMostOne : alpha ≤ 1) {perf mono : ℚ}
    {past : List EndpointEvent}
    (ran : (endpointMachine alpha config policy scan).run (.fresh perf mono) past = some endpoint) :
    EndpointInvariant config endpoint :=
  Machine.run_invariant (fun _ _ _ holds stepped => holds.step positive atMostOne stepped)
    (.fresh perf mono) ran

/-- Neither a refusal of the gateway's own nor a client error is counted. -/
theorem chargesFailure_of_blameless {exc : UpstreamException}
    (blameless : exc.kind ≠ .other ∨ isClientErrorStatus (httpStatusOf exc) = true) :
    chargesFailure exc = false := by
  unfold chargesFailure
  rcases blameless with kind | clientError
  · have named : (unchargedFailureEvent exc).isNone = false := by
      unfold unchargedFailureEvent
      cases equal : exc.kind with
      | other => exact absurd equal kind
      | _ => rfl
    simp [named]
  · have notAuth : isAuthMisconfig (httpStatusOf exc) = false := by
      unfold isClientErrorStatus at clientError
      cases status : httpStatusOf exc with
      | none => rfl
      | some value =>
        rw [status] at clientError
        dsimp only at clientError
        split_ifs at clientError
        simpa using clientError
    simp [isClientError, clientError, notAuth]

theorem FailureReport.uncharged_of {exc : UpstreamException} (carried : report.exc = some exc)
    (blameless : exc.kind ≠ .other ∨ isClientErrorStatus (httpStatusOf exc) = true) :
    report.charged = false := by
  rw [charged, carried]
  exact chargesFailure_of_blameless blameless

/-- In every reachable state a tripped circuit stays tripped until `record_success`: a charged
failure leaves it open as of now, and one that is not charged changes nothing. -/
theorem tripped_until_success (positive : 0 < alpha) (atMostOne : alpha ≤ 1)
    {perf mono : ℚ} {past : List EndpointEvent}
    (ran : (endpointMachine alpha config policy scan).run (.fresh perf mono) past = some endpoint) :
    (endpoint.breaker.state = .opened ∨ endpoint.breaker.state = .halfOpen →
      config.failureThreshold ≤ (endpoint.breaker.consecutiveFailures : ℤ) ∨
        endpoint.health.availability < config.minAvailability) ∧
    (∀ report next, report.charged = true →
      endpoint.breaker.state = .opened ∨ endpoint.breaker.state = .halfOpen →
      (endpointMachine alpha config policy scan).step endpoint (.recordFailure report) = some next →
      next.breaker.state = .opened ∧ next.breaker.lastOpened = some report.clocks.perf) ∧
    (∀ event next, (endpointMachine alpha config policy scan).step endpoint event = some next →
      endpoint.breaker.state ≠ .closed → next.breaker.state = .closed →
      event = .recordSuccess) ∧
    (∀ report exc next, report.exc = some exc →
      exc.kind ≠ .other ∨ isClientErrorStatus (httpStatusOf exc) = true →
      (endpointMachine alpha config policy scan).step endpoint (.recordFailure report) = some next →
      next = endpoint) := by
  have holds := EndpointInvariant.of_run positive atMostOne ran
  have notClosed : endpoint.breaker.state = .opened ∨ endpoint.breaker.state = .halfOpen →
      endpoint.breaker.state ≠ .closed := by
    rintro (state | state) <;> simp [state]
  have reopens : ∀ report next, report.charged = true → endpoint.breaker.state ≠ .closed →
      (endpointMachine alpha config policy scan).step endpoint (.recordFailure report) = some next →
      next.breaker.state = .opened ∧ next.breaker.lastOpened = some report.clocks.perf := by
    intro report next charged tripped stepped
    rcases step_recordFailure_charged charged stepped with ⟨failure, clocks, given, health, breaker⟩
    have lower := (holds.failedHealth positive atMostOne report).2
    rw [← health] at lower
    rw [breaker, ← clocks]
    exact holds.tripped.reopens tripped given lower
  refine ⟨fun tripped => holds.tripped (notClosed tripped), ?_, ?_, ?_⟩
  · intro report next charged tripped stepped
    exact reopens report next charged (notClosed tripped) stepped
  · intro event next stepped tripped closed
    by_contra notSuccess
    by_cases failure : ∃ report, event = .recordFailure report
    · rcases failure with ⟨report, rfl⟩
      cases charged : report.charged with
      | false =>
        rw [step_recordFailure_uncharged charged] at stepped
        cases stepped
        exact tripped closed
      | true => simp [(reopens report next charged tripped stepped).1] at closed
    · rcases step_of_no_outcome notSuccess
        (fun report equal => failure ⟨report, equal⟩) stepped with
        ⟨-, state, -⟩
      exact tripped (state.mp closed)
  · intro report exc next carried blameless stepped
    rw [step_recordFailure_uncharged (FailureReport.uncharged_of carried blameless)] at stepped
    exact (Option.some.inj stepped).symm

end Steps

/-- Three timeouts in a row trip the default circuit: the streak is at its
threshold. -/
theorem tripped_until_success_three_timeouts :
    let tripped : Endpoint :=
      { health := { ewmaSuccess := 729 / 1000 }
        world := ⟨{ state := .opened, consecutiveFailures := 3, lastOpened := some 5 }, 5, 5, []⟩
        authAlertAt := none }
    (endpointMachine (1 / 10) {} {} .silent).run (.fresh 0 0) (List.replicate 3 (.recordFailure
          { reason := "timeout", clocks := ⟨5, 5, 5⟩, reportedAt := 5, scheduled := false })) =
      some tripped ∧
    ((3 : ℤ) ≤ (3 : ℕ) ∨ tripped.health.availability < 7 / 10) := by
  intro tripped
  have ran : (endpointMachine (1 / 10) {} {} .silent).run (.fresh 0 0)
      (List.replicate 3 (.recordFailure
        { reason := "timeout", clocks := ⟨5, 5, 5⟩, reportedAt := 5, scheduled := false })) =
      some tripped := by
    decide +kernel
  exact ⟨ran, (tripped_until_success (by norm_num) (by norm_num) ran).1 (Or.inl rfl)⟩

end HybridInference.Health
