import HybridInference.Health.UsageLimit
import HybridInference.Library.Machine

/-!
# The circuit breaker of one endpoint

`_CircuitBreaker` of `routing.endpoint_health`, with the page it schedules and
what a finished page commits. Every method runs under the breaker's lock, so
each is one atomic function here. Three clocks are read: `time.perf_counter()`
for the cooldown and the probe claim, `time.monotonic()` for the spacing of
plan-usage pages, and the wall clock for the mute deadline. The two readings of
the monotonic clock inside one locked section are taken as one.

`breakerMachine` runs the methods in any order: requests that were admitted or
never asked, stale and foreign tokens, and pages that finish in any order and
arbitrarily late.
-/

namespace HybridInference.Health

open Library

inductive CircuitState where
  | closed
  | opened
  | halfOpen
  deriving DecidableEq

structure BreakerConfig where
  failureThreshold : ℤ := 3
  cooldownSeconds : ℚ := 30
  minAvailability : ℚ := 7 / 10

/-- The fields of `state_changes.circuit_open` that the breaker's decisions read. -/
structure CircuitOpenPolicy where
  enabled : Bool := true
  pageOnUsageLimit : Bool := true

structure Clocks where
  perf : ℚ
  mono : ℚ
  wall : ℚ≥0

/-- The state of `_CircuitBreaker`. -/
structure CircuitBreaker where
  state : CircuitState := .closed
  consecutiveFailures : ℕ := 0
  lastOpened : Option ℚ := none
  probeDeadline : Option ℚ := none
  probeToken : Option ℕ := none
  nextProbeToken : ℕ := 1
  alertSuppressedUntil : ℚ := 0
  usageLimitAlertedAt : Option ℚ := none
  alertInFlightGeneration : Option ℕ := none
  recoveryGeneration : ℕ := 0
  affectedCallers : List (String × ℕ) := []
  deriving DecidableEq

/-- The arguments of one `on_failure` call, the clocks it reads and whether a
running loop accepts the page it may schedule. -/
structure Failure where
  clocks : Clocks
  availability : Option ℚ
  reason : String
  detail : Option String
  caller : Option String
  scheduled : Bool

/-- A circuit-open page: the facts its card carries, and the suppression
deadline and recovery generation it was decided with. -/
structure Page where
  consecutiveFailures : ℕ
  availability : Option ℚ
  byStreak : Bool
  byAvailability : Bool
  reason : String
  upstreamError : Option String
  quotaResetAt : Option ℚ
  affectedCallers : List (String × ℕ)
  suppressEpoch : Option ℚ
  generation : ℕ
  deriving DecidableEq

inductive Gate where
  | circuitOpenDisabled
  | usageLimitPagingOff
  | muted
  | minAlertGap
  deriving DecidableEq

/-- What `on_failure` did; `raised` is an `OverflowError` of `detect_usage_limit`, which it does not
catch. -/
inductive FailureOutcome where
  | belowThreshold
  | alreadyOpen
  | raised
  | heldBack (gate : Gate)
  | paged (page : Page)
  deriving DecidableEq

/-- How `alert_on_transition` ended for a page. -/
inductive Delivery where
  | delivered
  | dropped
  | raised
  deriving DecidableEq

def maxTrackedCallers : ℕ := 50

/-- Count one failure of `caller` in the streak's list, which stops growing at
`_MAX_TRACKED_CALLERS` callers. -/
def trackCaller (callers : List (String × ℕ)) : Option String → List (String × ℕ)
  | none => callers
  | some caller =>
    if caller = "" then callers
    else if callers.any (fun entry => entry.1 = caller) then
      callers.map fun entry => if entry.1 = caller then (entry.1, entry.2 + 1) else entry
    else if callers.length < maxTrackedCallers then callers ++ [(caller, 1)]
    else callers

namespace CircuitBreaker

def probeClaimLive (breaker : CircuitBreaker) (now : ℚ) : Bool :=
  match breaker.probeDeadline with
  | none => false
  | some deadline => decide (now < deadline)

def releaseProbe (breaker : CircuitBreaker) : CircuitBreaker :=
  { breaker with probeDeadline := none, probeToken := none }

/-- `end_dispatch`: hand the probe slot back if this token still holds it. -/
def endDispatch (breaker : CircuitBreaker) (token : ℕ) : CircuitBreaker :=
  if breaker.probeToken = some token then breaker.releaseProbe else breaker

def onSuccess (breaker : CircuitBreaker) : CircuitBreaker :=
  let recovered := { breaker with
    consecutiveFailures := 0
    affectedCallers := []
    alertSuppressedUntil := 0
    recoveryGeneration := breaker.recoveryGeneration + 1 }
  match breaker.state with
  | .closed => recovered
  | .opened | .halfOpen => { recovered with state := .closed, lastOpened := none }.releaseProbe

@[simp]
theorem onSuccess_state (breaker : CircuitBreaker) : breaker.onSuccess.state = .closed := by
  cases state : breaker.state <;> simp [onSuccess, releaseProbe, state]

def muted (breaker : CircuitBreaker) (wall : ℚ≥0) : Bool :=
  breaker.alertInFlightGeneration = some breaker.recoveryGeneration ||
    (wall : ℚ) < breaker.alertSuppressedUntil

/-- The last usage-limit page decision is less than `MIN_ALERT_GAP` old. -/
def planLimitRecent (breaker : CircuitBreaker) (mono : ℚ) : Bool :=
  match breaker.usageLimitAlertedAt with
  | none => false
  | some alertedAt => decide (mono - alertedAt < minAlertGap)

/-- The end of `_send_circuit_alert`: release the in-flight guard if this page
still owns it, and commit what a delivered usage-limit page commits. -/
def finishPage (breaker : CircuitBreaker) (page : Page) (delivery : Delivery) (mono : ℚ) :
    CircuitBreaker :=
  match page.suppressEpoch with
  | none => breaker
  | some epoch =>
    let released :=
      if breaker.alertInFlightGeneration = some page.generation then
        { breaker with alertInFlightGeneration := none }
      else breaker
    if delivery = .delivered then
      let stamped := { released with usageLimitAlertedAt := some mono }
      if page.generation = breaker.recoveryGeneration then
        { stamped with alertSuppressedUntil := epoch }
      else stamped
    else released

section Settings

variable (config : BreakerConfig)

def admits (breaker : CircuitBreaker) (now : ℚ) : Bool :=
  match breaker.state with
  | .closed => true
  | .opened =>
    match breaker.lastOpened with
    | none => false
    | some openedAt => decide (config.cooldownSeconds ≤ now - openedAt)
  | .halfOpen => !breaker.probeClaimLive now

/-- `allow_request`: a pure predicate. -/
def allowRequest (breaker : CircuitBreaker) (now : ℚ) : Bool :=
  breaker.admits config now

def claimProbe (breaker : CircuitBreaker) (now : ℚ) : CircuitBreaker :=
  { breaker with
    probeDeadline := some (now + config.cooldownSeconds)
    probeToken := some breaker.nextProbeToken
    nextProbeToken := breaker.nextProbeToken + 1 }

/-- `begin_dispatch`: the new state, whether the caller is admitted and the
probe token it was issued. -/
def beginDispatch (breaker : CircuitBreaker) (now : ℚ) : CircuitBreaker × Bool × Option ℕ :=
  match breaker.state with
  | .closed => (breaker, true, none)
  | .opened =>
    match breaker.lastOpened with
    | none => (breaker, false, none)
    | some openedAt =>
      if now - openedAt < config.cooldownSeconds then (breaker, false, none)
      else
        ({ breaker with state := .halfOpen }.claimProbe config now, true,
          some breaker.nextProbeToken)
  | .halfOpen =>
    if breaker.probeClaimLive now then (breaker, false, none)
    else (breaker.claimProbe config now, true, some breaker.nextProbeToken)

/-- The counting that opens `on_failure`. -/
def countFailure (breaker : CircuitBreaker) (caller : Option String) : CircuitBreaker :=
  { breaker with
    consecutiveFailures := breaker.consecutiveFailures + 1
    affectedCallers := trackCaller breaker.affectedCallers caller }

def byStreak (breaker : CircuitBreaker) : Bool :=
  config.failureThreshold ≤ (breaker.consecutiveFailures : ℤ)

/-- The availability given to `on_failure` is under the floor. -/
def byAvailability (availability : Option ℚ) : Bool :=
  match availability with
  | none => false
  | some value => decide (value < config.minAvailability)

/-- `on_failure` from the transition to OPEN on: hold the page back, or decide
one. -/
def decidePage (policy : CircuitOpenPolicy) (scan : ResetScan) (breaker : CircuitBreaker)
    (failure : Failure) : CircuitBreaker × FailureOutcome :=
  let usageLimit := detectUsageLimit scan failure.detail failure.clocks.wall
  let muted := breaker.muted failure.clocks.wall
  let planLimitRecent := breaker.planLimitRecent failure.clocks.mono
  let rateLimited := usageLimit.isSome && planLimitRecent
  let pagingOff := !policy.pageOnUsageLimit && (usageLimit.isSome || planLimitRecent)
  let alertingOff := !policy.enabled
  if alertingOff || muted || rateLimited || pagingOff then
    let stamped :=
      if pagingOff && usageLimit.isSome && !planLimitRecent then
        { breaker with usageLimitAlertedAt := some failure.clocks.mono }
      else breaker
    let rearmed :=
      match usageLimit with
      | none => stamped
      | some limit =>
        { stamped with
          alertSuppressedUntil := max stamped.alertSuppressedUntil limit.suppressUntil }
    (rearmed, .heldBack (if alertingOff then .circuitOpenDisabled
      else if pagingOff then .usageLimitPagingOff
      else if muted then .muted
      else .minAlertGap))
  else
    let generation := breaker.recoveryGeneration
    let page : Page :=
      { consecutiveFailures := breaker.consecutiveFailures
        availability := failure.availability
        byStreak := breaker.byStreak config
        byAvailability := byAvailability config failure.availability
        reason := if failure.reason = "" then "unknown" else failure.reason
        upstreamError := failure.detail.filter (· ≠ "")
        quotaResetAt := usageLimit.bind UsageLimit.resetAt
        affectedCallers := breaker.affectedCallers
        suppressEpoch := usageLimit.map UsageLimit.suppressUntil
        generation := generation }
    let guarded :=
      if usageLimit.isSome then { breaker with alertInFlightGeneration := some generation }
      else breaker
    let settled :=
      if !failure.scheduled && guarded.alertInFlightGeneration = some generation then
        { guarded with alertInFlightGeneration := none }
      else guarded
    (settled, .paged page)

def onFailure (policy : CircuitOpenPolicy) (scan : ResetScan) (breaker : CircuitBreaker)
    (failure : Failure) : CircuitBreaker × FailureOutcome :=
  let counted := breaker.countFailure failure.caller
  if !(counted.byStreak config || byAvailability config failure.availability) then
    (counted, .belowThreshold)
  else
    let tripped := { counted with state := .opened, lastOpened := some failure.clocks.perf }
    match counted.state with
    | .opened => (tripped, .alreadyOpen)
    | .closed | .halfOpen =>
      if detectUsageLimitRaises scan failure.detail failure.clocks.wall then (tripped, .raised)
      else tripped.decidePage config policy scan failure

end Settings

section Frames

variable (config : BreakerConfig) (policy : CircuitOpenPolicy) (scan : ResetScan)

theorem decidePage_frame (breaker : CircuitBreaker) (failure : Failure) :
    ∃ suppressed alerted inFlight, (breaker.decidePage config policy scan failure).1 =
        { breaker with
          alertSuppressedUntil := suppressed
          usageLimitAlertedAt := alerted
          alertInFlightGeneration := inFlight } := by
  unfold decidePage
  dsimp only
  split_ifs <;> cases detectUsageLimit scan failure.detail failure.clocks.wall <;>
    exact ⟨_, _, _, rfl⟩

theorem finishPage_frame (breaker : CircuitBreaker) (page : Page) (delivery : Delivery) (mono : ℚ) :
    ∃ suppressed alerted inFlight,
      breaker.finishPage page delivery mono =
        { breaker with
          alertSuppressedUntil := suppressed
          usageLimitAlertedAt := alerted
          alertInFlightGeneration := inFlight } := by
  unfold finishPage
  cases page.suppressEpoch with
  | none => exact ⟨_, _, _, rfl⟩
  | some epoch =>
    split_ifs <;> exact ⟨_, _, _, rfl⟩

variable {breaker : CircuitBreaker}

theorem onFailure_below {failure : Failure}
    (below : ((breaker.countFailure failure.caller).byStreak config ||
      byAvailability config failure.availability) = false) :
    breaker.onFailure config policy scan failure =
      (breaker.countFailure failure.caller, .belowThreshold) := by
  simp [onFailure, below]

theorem onFailure_reached {failure : Failure}
    (reached : ((breaker.countFailure failure.caller).byStreak config ||
      byAvailability config failure.availability) = true) :
    ∃ suppressed alerted inFlight, (breaker.onFailure config policy scan failure).1 =
        { breaker.countFailure failure.caller with
          state := .opened
          lastOpened := some failure.clocks.perf
          alertSuppressedUntil := suppressed
          usageLimitAlertedAt := alerted
          alertInFlightGeneration := inFlight } := by
  unfold onFailure
  simp only [reached, Bool.not_true, Bool.false_eq_true, if_false]
  rcases decidePage_frame config policy scan
      { breaker.countFailure failure.caller with
        state := .opened, lastOpened := some failure.clocks.perf } failure with
    ⟨suppressed, alerted, inFlight, framed⟩
  cases (breaker.countFailure failure.caller).state with
  | opened => exact ⟨_, _, _, rfl⟩
  | closed | halfOpen =>
    split_ifs
    · exact ⟨_, _, _, rfl⟩
    · exact ⟨suppressed, alerted, inFlight, framed⟩

end Frames

section Dispatch

variable {config : BreakerConfig}

theorem beginDispatch_token {breaker : CircuitBreaker} {now : ℚ} {token : ℕ}
    (issued : (breaker.beginDispatch config now).2 = (true, some token)) :
    token = breaker.nextProbeToken ∧ (breaker.beginDispatch config now).1 =
        { breaker with state := .halfOpen }.claimProbe config now ∧
      ((∃ openedAt, breaker.state = .opened ∧ breaker.lastOpened = some openedAt ∧
          config.cooldownSeconds ≤ now - openedAt) ∨
        (breaker.state = .halfOpen ∧ breaker.probeClaimLive now = false)) := by
  unfold beginDispatch at issued ⊢
  cases state : breaker.state with
  | closed => simp [state] at issued
  | opened =>
    cases opened : breaker.lastOpened with
    | none => simp [state, opened] at issued
    | some openedAt =>
      simp only [state, opened] at issued ⊢
      split_ifs at issued ⊢ with early
      · simp at issued
      · simp only [Prod.mk.injEq, Option.some.injEq, true_and] at issued
        exact ⟨issued.symm, rfl, Or.inl ⟨openedAt, trivial, rfl, not_lt.mp early⟩⟩
  | halfOpen =>
    simp only [state] at issued ⊢
    split_ifs at issued ⊢ with live
    · simp at issued
    · simp only [Prod.mk.injEq, Option.some.injEq, true_and] at issued
      refine ⟨issued.symm, ?_, Or.inr ⟨trivial, by simpa using live⟩⟩
      rw [← state]

theorem beginDispatch_unchanged_or_token (config : BreakerConfig) (breaker : CircuitBreaker)
    (now : ℚ) :
    (breaker.beginDispatch config now).1 = breaker ∨
      ∃ token, (breaker.beginDispatch config now).2 = (true, some token) := by
  unfold beginDispatch
  cases breaker.state with
  | closed => exact Or.inl rfl
  | opened =>
    cases breaker.lastOpened with
    | none => exact Or.inl rfl
    | some openedAt =>
      dsimp only
      split_ifs
      · exact Or.inl rfl
      · exact Or.inr ⟨_, rfl⟩
  | halfOpen =>
    split_ifs
    · exact Or.inl rfl
    · exact Or.inr ⟨_, rfl⟩

end Dispatch

end CircuitBreaker

/-- A page handed to the loop: when it was decided, and how it ended (`none`
while it is being delivered). -/
structure ScheduledPage where
  page : Page
  decidedAt : ℚ
  delivery : Option Delivery
  deriving DecidableEq

def ScheduledPage.isUsageLimit (scheduled : ScheduledPage) : Bool :=
  scheduled.page.suppressEpoch.isSome

structure BreakerWorld where
  breaker : CircuitBreaker
  perf : ℚ
  mono : ℚ
  pages : List ScheduledPage
  deriving DecidableEq

inductive BreakerEvent where
  | beginDispatch (perf : ℚ)
  | endDispatch (token : ℕ)
  | onSuccess
  | onFailure (failure : Failure)
  | finishPage (index : ℕ) (delivery : Delivery) (mono : ℚ)

def BreakerWorld.fresh (perf mono : ℚ) : BreakerWorld :=
  { breaker := {}, perf := perf, mono := mono, pages := [] }

section Machine

variable (config : BreakerConfig) (policy : CircuitOpenPolicy) (scan : ResetScan)

def schedulePage (pages : List ScheduledPage) (failure : Failure) :
    FailureOutcome → List ScheduledPage
  | .paged page =>
    if failure.scheduled then pages ++ [⟨page, failure.clocks.mono, none⟩] else pages
  | _ => pages

def BreakerWorld.step (world : BreakerWorld) : BreakerEvent → Option BreakerWorld
  | .beginDispatch perf =>
    if world.perf ≤ perf then
      some { world with breaker := (world.breaker.beginDispatch config perf).1, perf := perf }
    else none
  | .endDispatch token => some { world with breaker := world.breaker.endDispatch token }
  | .onSuccess => some { world with breaker := world.breaker.onSuccess }
  | .onFailure failure =>
    if world.perf ≤ failure.clocks.perf ∧ world.mono ≤ failure.clocks.mono then
      let result := world.breaker.onFailure config policy scan failure
      some { breaker := result.1
             perf := failure.clocks.perf
             mono := failure.clocks.mono
             pages := schedulePage world.pages failure result.2 }
    else none
  | .finishPage index delivery mono =>
    match world.pages[index]? with
    | none => none
    | some scheduled =>
      if scheduled.delivery = none ∧ world.mono ≤ mono then
        some { world with
          breaker := world.breaker.finishPage scheduled.page delivery mono
          mono := mono
          pages := world.pages.set index { scheduled with delivery := some delivery } }
      else none

def breakerMachine : Machine BreakerWorld BreakerEvent where
  step := BreakerWorld.step config policy scan

end Machine

section Steps

variable {config : BreakerConfig} {policy : CircuitOpenPolicy} {scan : ResetScan}
  {world next : BreakerWorld}

theorem step_beginDispatch {now : ℚ} :
    (breakerMachine config policy scan).step world (.beginDispatch now) = some next ↔
      world.perf ≤ now ∧
        next =
          { world with breaker := (world.breaker.beginDispatch config now).1, perf := now } := by
  simp [breakerMachine, BreakerWorld.step, eq_comm]

theorem step_endDispatch {token : ℕ} :
    (breakerMachine config policy scan).step world (.endDispatch token) = some next ↔
      next = { world with breaker := world.breaker.endDispatch token } := by
  simp [breakerMachine, BreakerWorld.step, eq_comm]

theorem step_onSuccess : (breakerMachine config policy scan).step world .onSuccess = some next ↔
      next = { world with breaker := world.breaker.onSuccess } := by
  simp [breakerMachine, BreakerWorld.step, eq_comm]

theorem step_onFailure {failure : Failure} :
    (breakerMachine config policy scan).step world (.onFailure failure) = some next ↔
      world.perf ≤ failure.clocks.perf ∧ world.mono ≤ failure.clocks.mono ∧
        next =
          { breaker := (world.breaker.onFailure config policy scan failure).1
            perf := failure.clocks.perf
            mono := failure.clocks.mono
            pages := schedulePage world.pages failure
              (world.breaker.onFailure config policy scan failure).2 } := by
  simp [breakerMachine, BreakerWorld.step, eq_comm, and_assoc]

theorem step_finishPage {index : ℕ} {delivery : Delivery} {mono : ℚ} :
    (breakerMachine config policy scan).step world (.finishPage index delivery mono) = some next ↔
      ∃ scheduled, world.pages[index]? = some scheduled ∧ scheduled.delivery = none ∧
        world.mono ≤ mono ∧
        next =
          { world with
            breaker := world.breaker.finishPage scheduled.page delivery mono
            mono := mono
            pages := world.pages.set index { scheduled with delivery := some delivery } } := by
  simp only [breakerMachine, BreakerWorld.step]
  cases world.pages[index]? with
  | none => simp
  | some scheduled => simp [eq_comm, and_assoc]

end Steps

end HybridInference.Health
