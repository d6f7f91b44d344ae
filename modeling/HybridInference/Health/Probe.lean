import HybridInference.Health.Breaker

/-!
# Half-open probe exclusivity

A half-open circuit admits one probe at a time. The slot of a probe is freed by
the dispatch that took it, by its deadline, by a success that closes the
circuit, or it is left behind by a failure that reopens the circuit.
-/

namespace HybridInference.Health

open Library

variable {config : BreakerConfig} {policy : CircuitOpenPolicy} {scan : ResetScan}

namespace CircuitBreaker

theorem beginDispatch_admitted (config : BreakerConfig) (breaker : CircuitBreaker) (now : ℚ) :
    (breaker.beginDispatch config now).2.1 = breaker.allowRequest config now := by
  unfold beginDispatch allowRequest admits
  cases breaker.state with
  | closed => rfl
  | opened =>
    cases breaker.lastOpened with
    | none => rfl
    | some openedAt =>
      dsimp only
      split_ifs with early
      · simp [not_le.mpr early]
      · simp [not_lt.mp early]
  | halfOpen =>
    split_ifs with live <;> simp [live]

end CircuitBreaker

/-- The bound a probe leaves behind until its token is handed back: a cooldown, a closed circuit, a
later reopening, or a live claim. -/
def ProbeOwed (config : BreakerConfig) (token : ℕ) (issuedAt : ℚ) (world : BreakerWorld) :
    Prop :=
  issuedAt + config.cooldownSeconds ≤ world.perf ∨ (issuedAt ≤ world.perf ∧
      (world.breaker.state = .opened →
        ∃ openedAt, world.breaker.lastOpened = some openedAt ∧ issuedAt ≤ openedAt) ∧
      (world.breaker.state = .halfOpen →
        world.breaker.probeDeadline = some (issuedAt + config.cooldownSeconds) ∧
          world.breaker.probeToken = some token))

namespace ProbeOwed

variable {token : ℕ} {issuedAt : ℚ} {world next : BreakerWorld}

theorem cooldown_le (owed : ProbeOwed config token issuedAt world) {now : ℚ} {later : ℕ}
    (clock : world.perf ≤ now)
    (issued : (world.breaker.beginDispatch config now).2 = (true, some later)) :
    config.cooldownSeconds ≤ now - issuedAt := by
  rcases CircuitBreaker.beginDispatch_token issued with ⟨-, -, claim⟩
  rcases owed with passed | ⟨-, reopened, live⟩
  · linarith
  · rcases claim with ⟨openedAt, state, lastOpened, cooled⟩ | ⟨state, lapsed⟩
    · rcases reopened state with ⟨reopenedAt, lastOpened', after⟩
      rw [lastOpened] at lastOpened'
      cases lastOpened'
      linarith
    · rcases live state with ⟨deadline, -⟩
      simp only [CircuitBreaker.probeClaimLive, deadline, decide_eq_false_iff_not, not_lt] at lapsed
      linarith

theorem of_issued {now : ℚ}
    (issued : (world.breaker.beginDispatch config now).2 = (true, some token))
    (stepped : (breakerMachine config policy scan).step world (.beginDispatch now) = some next) :
    ProbeOwed config token now next := by
  rcases CircuitBreaker.beginDispatch_token issued with ⟨tokenEq, claimed, -⟩
  rcases step_beginDispatch.mp stepped with ⟨-, rfl⟩
  simp only [claimed, CircuitBreaker.claimProbe]
  exact Or.inr ⟨le_refl _, by simp, by simp [tokenEq]⟩

theorem step {event : BreakerEvent} (owed : ProbeOwed config token issuedAt world)
    (kept : event ≠ .endDispatch token)
    (stepped : (breakerMachine config policy scan).step world event = some next) :
    ProbeOwed config token issuedAt next := by
  cases event with
  | beginDispatch now =>
    rcases step_beginDispatch.mp stepped with ⟨clock, rfl⟩
    rcases CircuitBreaker.beginDispatch_unchanged_or_token config world.breaker now with
      unchanged | ⟨later, issued⟩
    · simp only [unchanged]
      rcases owed with passed | ⟨issuedBefore, reopened, live⟩
      · exact Or.inl (passed.trans clock)
      · exact Or.inr ⟨issuedBefore.trans clock, reopened, live⟩
    · have cooled := owed.cooldown_le clock issued
      refine Or.inl ?_
      linarith
  | endDispatch other =>
    rcases step_endDispatch.mp stepped with rfl
    simp only [CircuitBreaker.endDispatch]
    split_ifs with holds
    · rcases owed with passed | ⟨issuedBefore, reopened, live⟩
      · exact Or.inl passed
      · refine Or.inr ⟨issuedBefore, reopened, fun state => ?_⟩
        rcases live state with ⟨-, held⟩
        rw [holds, Option.some.injEq] at held
        exact absurd (congrArg BreakerEvent.endDispatch held) kept
    · exact owed
  | onSuccess =>
    rcases step_onSuccess.mp stepped with rfl
    rcases owed with passed | ⟨issuedBefore, -, -⟩
    · exact Or.inl passed
    · exact Or.inr ⟨issuedBefore, by simp, by simp⟩
  | onFailure failure =>
    rcases step_onFailure.mp stepped with ⟨clock, -, rfl⟩
    rcases owed with passed | ⟨issuedBefore, reopened, live⟩
    · exact Or.inl (passed.trans clock)
    · refine Or.inr ⟨issuedBefore.trans clock, ?_⟩
      cases reached : (world.breaker.countFailure failure.caller).byStreak config ||
          CircuitBreaker.byAvailability config failure.availability with
      | false =>
        rw [CircuitBreaker.onFailure_below config policy scan reached]
        exact ⟨reopened, live⟩
      | true =>
        rcases CircuitBreaker.onFailure_reached config policy scan reached with
          ⟨_, _, _, framed⟩
        simp only [framed]
        exact ⟨fun _ => ⟨_, rfl, issuedBefore.trans clock⟩, by simp⟩
  | finishPage index delivery mono =>
    rcases step_finishPage.mp stepped with ⟨scheduled, -, -, -, rfl⟩
    rcases world.breaker.finishPage_frame scheduled.page delivery mono with ⟨_, _, _, framed⟩
    rw [framed]
    exact owed

theorem run {events : List BreakerEvent} (owed : ProbeOwed config token issuedAt world)
    (kept : .endDispatch token ∉ events)
    (ran : (breakerMachine config policy scan).run world events = some next) :
    ProbeOwed config token issuedAt next := by
  refine Machine.run_invariant_along (fun _ event => event ≠ .endDispatch token)
    (fun _ _ _ holds differs stepped => holds.step differs stepped) owed
    (Machine.along_of_forall_mem (fun event => event ≠ BreakerEvent.endDispatch token) ?_) ran
  intro event eventMem equal
  exact kept (equal ▸ eventMem)

end ProbeOwed

def OpenedAtSet (world : BreakerWorld) : Prop :=
  world.breaker.state = .opened → world.breaker.lastOpened.isSome

theorem OpenedAtSet.step {world next : BreakerWorld} {event : BreakerEvent}
    (set : OpenedAtSet world)
    (stepped : (breakerMachine config policy scan).step world event = some next) :
    OpenedAtSet next := by
  cases event with
  | beginDispatch now =>
    rcases step_beginDispatch.mp stepped with ⟨-, rfl⟩
    rcases CircuitBreaker.beginDispatch_unchanged_or_token config world.breaker now with
      unchanged | ⟨later, issued⟩
    · simpa only [OpenedAtSet, unchanged] using set
    · rcases CircuitBreaker.beginDispatch_token issued with ⟨-, claimed, -⟩
      simp [OpenedAtSet, claimed, CircuitBreaker.claimProbe]
  | endDispatch other =>
    rcases step_endDispatch.mp stepped with rfl
    simp only [OpenedAtSet, CircuitBreaker.endDispatch]
    split_ifs <;> exact set
  | onSuccess =>
    rcases step_onSuccess.mp stepped with rfl
    simp [OpenedAtSet]
  | onFailure failure =>
    rcases step_onFailure.mp stepped with ⟨-, -, rfl⟩
    cases reached : (world.breaker.countFailure failure.caller).byStreak config ||
        CircuitBreaker.byAvailability config failure.availability with
    | false =>
      rw [CircuitBreaker.onFailure_below config policy scan reached]
      exact set
    | true =>
      rcases CircuitBreaker.onFailure_reached config policy scan reached with ⟨_, _, _, framed⟩
      simp [OpenedAtSet, framed]
  | finishPage index delivery mono =>
    rcases step_finishPage.mp stepped with ⟨scheduled, -, -, -, rfl⟩
    rcases world.breaker.finishPage_frame scheduled.page delivery mono with ⟨_, _, _, framed⟩
    rw [OpenedAtSet, framed]
    exact set

/-- Half-open probe exclusivity, in every reachable state: probes a cooldown apart unless handed
back, and `allow_request` agrees with `begin_dispatch` at every instant. -/
theorem probe_exclusivity {perf mono : ℚ} {past : List BreakerEvent} {world : BreakerWorld}
    (ran : (breakerMachine config policy scan).run (.fresh perf mono) past = some world) :
    (∀ first issuedAt issued between reached second reissuedAt reissued,
      (world.breaker.beginDispatch config issuedAt).2 = (true, some first) →
      (breakerMachine config policy scan).step world (.beginDispatch issuedAt) = some issued →
      (breakerMachine config policy scan).run issued between = some reached →
      (reached.breaker.beginDispatch config reissuedAt).2 = (true, some second) →
      (breakerMachine config policy scan).step reached (.beginDispatch reissuedAt) = some reissued →
      (.endDispatch first ∈ between ∨ config.cooldownSeconds ≤ reissuedAt - issuedAt) ∧
        (.endDispatch first ∉ between → ∀ now, reissuedAt ≤ now →
          ¬(now - issuedAt < config.cooldownSeconds ∧ now - reissuedAt < config.cooldownSeconds))) ∧
    (∀ holder token, world.breaker.probeToken = some holder → token ≠ holder →
      world.breaker.endDispatch token = world.breaker) ∧
    (world.breaker.state = .opened → world.breaker.lastOpened.isSome) ∧
    (∀ now, world.breaker.allowRequest config now =
      (world.breaker.beginDispatch config now).2.1) := by
  refine ⟨?_, ?_, ?_, ?_⟩
  · intro first issuedAt issued between reached second reissuedAt reissued
      firstIssued issuedStep ranBetween secondIssued reissuedStep
    have clock : reached.perf ≤ reissuedAt := (step_beginDispatch.mp reissuedStep).1
    have spaced : .endDispatch first ∉ between →
        config.cooldownSeconds ≤ reissuedAt - issuedAt := fun kept =>
      ((ProbeOwed.of_issued firstIssued issuedStep).run kept ranBetween).cooldown_le clock
        secondIssued
    refine ⟨?_, ?_⟩
    · by_cases ended : BreakerEvent.endDispatch first ∈ between
      · exact Or.inl ended
      · exact Or.inr (spaced ended)
    · rintro kept now later ⟨young, -⟩
      have := spaced kept
      linarith
  · intro holder token held foreign
    have different : world.breaker.probeToken ≠ some token := by
      rw [held]
      intro equal
      exact foreign (Option.some.inj equal).symm
    simp [CircuitBreaker.endDispatch, different]
  · exact Machine.run_invariant (fun _ _ _ set stepped => OpenedAtSet.step set stepped)
      (by simp [OpenedAtSet, BreakerWorld.fresh]) ran
  · intro now
    exact (CircuitBreaker.beginDispatch_admitted config world.breaker now).symm

/-- The default breaker trips on a failure under the availability floor at time
zero and issues probes at 30 and at 60 seconds. -/
theorem probe_exclusivity_default_settings : (breakerMachine {} {} .silent).run (.fresh 0 0)
        [.onFailure ⟨⟨0, 0, 0⟩, some (1 / 2), "error", none, none, false⟩] =
      some ⟨{ state := .opened, consecutiveFailures := 1, lastOpened := some 0 }, 0, 0, []⟩ ∧
    (30 : ℚ) ≤ 60 - 30 := by
  have ran : (breakerMachine {} {} .silent).run (.fresh 0 0)
      [.onFailure ⟨⟨0, 0, 0⟩, some (1 / 2), "error", none, none, false⟩] =
    some ⟨{ state := .opened, consecutiveFailures := 1, lastOpened := some 0 }, 0, 0, []⟩ := by
    decide +kernel
  refine ⟨ran, ?_⟩
  exact ((probe_exclusivity ran).1 1 30
    ⟨{ state := .halfOpen, consecutiveFailures := 1, lastOpened := some 0,
       probeDeadline := some 60, probeToken := some 1, nextProbeToken := 2 }, 30, 0, []⟩ []
    _ 2 60
    ⟨{ state := .halfOpen, consecutiveFailures := 1, lastOpened := some 0,
       probeDeadline := some 90, probeToken := some 2, nextProbeToken := 3 }, 60, 0, []⟩
    (by decide +kernel) (by decide +kernel) rfl (by decide +kernel)
    (by decide +kernel)).1.resolve_left (by simp)

end HybridInference.Health
