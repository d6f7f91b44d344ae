import HybridInference.Health.Breaker

/-!
# Circuit-open pages

What the breaker's three guards promise about its pages: the in-flight
generation, the mute deadline and the clock of the last plan-usage page. Pages
finish in any order, and arbitrarily long after later recoveries and trips.
-/

namespace HybridInference.Health

open Library

/-- The failure opened the circuit and decided on its page. -/
def FailureOutcome.isTrip : FailureOutcome → Bool
  | .belowThreshold | .alreadyOpen | .raised => false
  | .heldBack _ | .paged _ => true

def Failure.recognised (scan : ResetScan) (failure : Failure) : Bool :=
  (detectUsageLimit scan failure.detail failure.clocks.wall).isSome

variable {config : BreakerConfig} {policy : CircuitOpenPolicy} {scan : ResetScan}

namespace CircuitBreaker

structure SamePaging (breaker other : CircuitBreaker) : Prop where
  suppressed : breaker.alertSuppressedUntil = other.alertSuppressedUntil
  alerted : breaker.usageLimitAlertedAt = other.usageLimitAlertedAt
  inFlight : breaker.alertInFlightGeneration = other.alertInFlightGeneration
  generation : breaker.recoveryGeneration = other.recoveryGeneration

variable {breaker other : CircuitBreaker}

theorem SamePaging.muted_eq (same : SamePaging breaker other)
    (wall : ℚ≥0) : breaker.muted wall = other.muted wall := by
  simp [muted, same.suppressed, same.inFlight, same.generation]

theorem SamePaging.planLimitRecent_eq (same : SamePaging breaker other) (mono : ℚ) :
    breaker.planLimitRecent mono = other.planLimitRecent mono := by
  simp [planLimitRecent, same.alerted]

/-- A failure that does not trip leaves the paging alone, one that trips decides a page. -/
theorem onFailure_cases (config : BreakerConfig) (policy : CircuitOpenPolicy) (scan : ResetScan)
    (breaker : CircuitBreaker) (failure : Failure) :
    ((breaker.onFailure config policy scan failure).2.isTrip = false ∧
      SamePaging (breaker.onFailure config policy scan failure).1 breaker) ∨
    (breaker.state ≠ .opened ∧ ((breaker.countFailure failure.caller).byStreak config ||
        byAvailability config failure.availability) = true ∧
      ∃ tripped : CircuitBreaker, SamePaging tripped breaker ∧
        breaker.onFailure config policy scan failure =
          tripped.decidePage config policy scan failure) := by
  cases reached : (breaker.countFailure failure.caller).byStreak config ||
      byAvailability config failure.availability with
  | false =>
    rw [onFailure_below config policy scan reached]
    exact Or.inl ⟨rfl, ⟨rfl, rfl, rfl, rfl⟩⟩
  | true =>
    have counted : (breaker.countFailure failure.caller).state = breaker.state := rfl
    unfold onFailure
    simp only [reached, Bool.not_true, Bool.false_eq_true, if_false, counted]
    cases breaker.state with
    | opened => exact Or.inl ⟨rfl, ⟨rfl, rfl, rfl, rfl⟩⟩
    | closed | halfOpen =>
      split_ifs
      · exact Or.inl ⟨rfl, ⟨rfl, rfl, rfl, rfl⟩⟩
      · refine Or.inr ⟨by simp, trivial, ?_⟩
        exact ⟨{ breaker.countFailure failure.caller with
          state := .opened, lastOpened := some failure.clocks.perf }, ⟨rfl, rfl, rfl, rfl⟩, rfl⟩

section Enabled

variable (enabled : policy.enabled = true) (paging : policy.pageOnUsageLimit = true)
include enabled paging

theorem decidePage_heldBack {breaker : CircuitBreaker} {failure : Failure} {gate : Gate}
    (held : (breaker.decidePage config policy scan failure).2 = .heldBack gate) :
    (failure.recognised scan = false → breaker.muted failure.clocks.wall = true ∧
        (breaker.decidePage config policy scan failure).1 = breaker) ∧
    (breaker.decidePage config policy scan failure).1.usageLimitAlertedAt =
        breaker.usageLimitAlertedAt ∧
      (breaker.decidePage config policy scan failure).1.alertInFlightGeneration =
        breaker.alertInFlightGeneration ∧
      (breaker.decidePage config policy scan failure).1.recoveryGeneration =
        breaker.recoveryGeneration := by
  unfold decidePage at held ⊢
  simp only [enabled, paging, Bool.not_true, Bool.false_or, Bool.false_and, Bool.or_false,
    Bool.false_eq_true, if_false, Failure.recognised] at held ⊢
  cases limit : detectUsageLimit scan failure.detail failure.clocks.wall with
  | none =>
    simp only [limit, Option.isSome_none, Bool.false_and, Bool.or_false] at held ⊢
    split_ifs at held ⊢ with muted
    · exact ⟨fun _ => ⟨muted, rfl⟩, rfl, rfl, rfl⟩
  | some value =>
    simp only [limit, Option.isSome_some, Bool.true_and] at held ⊢
    split_ifs at held ⊢ <;> exact ⟨by simp, rfl, rfl, rfl⟩

theorem decidePage_paged {breaker : CircuitBreaker} {failure : Failure} {page : Page}
    (paged : (breaker.decidePage config policy scan failure).2 = .paged page) :
    page.generation = breaker.recoveryGeneration ∧
      page.suppressEpoch.isSome = failure.recognised scan ∧
      breaker.muted failure.clocks.wall = false ∧
      (failure.recognised scan = true → breaker.planLimitRecent failure.clocks.mono = false) ∧
      (breaker.decidePage config policy scan failure).1.alertSuppressedUntil =
        breaker.alertSuppressedUntil ∧
      (breaker.decidePage config policy scan failure).1.usageLimitAlertedAt =
        breaker.usageLimitAlertedAt ∧
      (breaker.decidePage config policy scan failure).1.recoveryGeneration =
        breaker.recoveryGeneration ∧
      ((breaker.decidePage config policy scan failure).1.alertInFlightGeneration =
          breaker.alertInFlightGeneration ∨
        (breaker.decidePage config policy scan failure).1.alertInFlightGeneration = none ∨
        failure.recognised scan = true ∧
          (breaker.decidePage config policy scan failure).1.alertInFlightGeneration =
            some breaker.recoveryGeneration) := by
  unfold decidePage at paged ⊢
  simp only [enabled, paging, Bool.not_true, Bool.false_or, Bool.false_and, Bool.or_false,
    Bool.false_eq_true, if_false, Failure.recognised] at paged ⊢
  cases limit : detectUsageLimit scan failure.detail failure.clocks.wall with
  | none =>
    split_ifs at paged ⊢ with muted unscheduled
    all_goals
      cases paged
      simp_all
  | some value =>
    split_ifs at paged ⊢ with muted unscheduled
    all_goals
      cases paged
      simp_all

end Enabled

theorem decidePage_isTrip (config : BreakerConfig) (policy : CircuitOpenPolicy) (scan : ResetScan)
    (breaker : CircuitBreaker) (failure : Failure) :
    (breaker.decidePage config policy scan failure).2.isTrip = true := by
  unfold decidePage
  dsimp only
  split_ifs <;> rfl

end CircuitBreaker

section Mutes

variable (config policy scan) in
/-- A trip recognised as a usage limit occurred after the last `on_success`. -/
def RecognisedTripSince (start : BreakerWorld) (past : List BreakerEvent) : Prop :=
  ∃ before failure after world, past = before ++ .onFailure failure :: after ∧ .onSuccess ∉ after ∧
      (breakerMachine config policy scan).run start before = some world ∧
      failure.recognised scan = true ∧
      (world.breaker.onFailure config policy scan failure).2.isTrip = true

variable {start world next : BreakerWorld} {past : List BreakerEvent}

theorem RecognisedTripSince.append {event : BreakerEvent}
    (since : RecognisedTripSince config policy scan start past) (notSuccess : event ≠ .onSuccess) :
    RecognisedTripSince config policy scan start (past ++ [event]) := by
  rcases since with ⟨before, failure, after, world, rfl, none, ran, recognised, trip⟩
  refine ⟨before, failure, after ++ [event], world, by simp, ?_, ran, recognised, trip⟩
  simp only [List.mem_append, List.mem_singleton, not_or]
  exact ⟨none, fun equal => notSuccess equal.symm⟩

variable {failure : Failure}

theorem RecognisedTripSince.of_trip
    (ran : (breakerMachine config policy scan).run start past = some world)
    (recognised : failure.recognised scan = true)
    (trip : (world.breaker.onFailure config policy scan failure).2.isTrip = true) :
    RecognisedTripSince config policy scan start (past ++ [.onFailure failure]) :=
  ⟨past, failure, [], world, rfl, by simp, ran, recognised, trip⟩

variable (config policy scan) in
/-- Each guard that can mute the current outage was set by a recognised trip of
this outage, and no guard or page belongs to a generation still to come. -/
structure MutedByThisOutage (start : BreakerWorld) (past : List BreakerEvent)
    (world : BreakerWorld) : Prop where
  pageGeneration : ∀ scheduled ∈ world.pages,
    scheduled.page.generation ≤ world.breaker.recoveryGeneration
  guardGeneration : ∀ generation, world.breaker.alertInFlightGeneration = some generation →
    generation ≤ world.breaker.recoveryGeneration
  guarded : world.breaker.alertInFlightGeneration = some world.breaker.recoveryGeneration →
    RecognisedTripSince config policy scan start past
  suppressed : 0 < world.breaker.alertSuppressedUntil →
    RecognisedTripSince config policy scan start past
  paged : ∀ scheduled ∈ world.pages, scheduled.isUsageLimit = true →
    scheduled.page.generation = world.breaker.recoveryGeneration →
    RecognisedTripSince config policy scan start past

theorem MutedByThisOutage.of_samePaging {event : BreakerEvent}
    (causes : MutedByThisOutage config policy scan start past world)
    (notSuccess : event ≠ .onSuccess) (same : CircuitBreaker.SamePaging next.breaker world.breaker)
    (pages : next.pages = world.pages) :
    MutedByThisOutage config policy scan start (past ++ [event]) next where
  pageGeneration := by
    rw [pages, same.generation]
    exact causes.pageGeneration
  guardGeneration := by
    rw [same.inFlight, same.generation]
    exact causes.guardGeneration
  guarded := by
    rw [same.inFlight, same.generation]
    exact fun guarded => (causes.guarded guarded).append notSuccess
  suppressed := by
    rw [same.suppressed]
    exact fun suppressed => (causes.suppressed suppressed).append notSuccess
  paged := by
    rw [pages, same.generation]
    exact fun scheduled member limit current =>
      (causes.paged scheduled member limit current).append notSuccess

theorem CircuitBreaker.beginDispatch_samePaging (config : BreakerConfig)
    (breaker : CircuitBreaker) (now : ℚ) :
    SamePaging (breaker.beginDispatch config now).1 breaker := by
  rcases breaker.beginDispatch_unchanged_or_token config now with unchanged | ⟨token, issued⟩
  · rw [unchanged]
    exact ⟨rfl, rfl, rfl, rfl⟩
  · rw [(beginDispatch_token issued).2.1]
    exact ⟨rfl, rfl, rfl, rfl⟩

theorem CircuitBreaker.endDispatch_samePaging (breaker : CircuitBreaker) (token : ℕ) :
    SamePaging (breaker.endDispatch token) breaker := by
  unfold endDispatch releaseProbe
  split_ifs <;> exact ⟨rfl, rfl, rfl, rfl⟩

theorem CircuitBreaker.onSuccess_paging (breaker : CircuitBreaker) :
    breaker.onSuccess.alertSuppressedUntil = 0 ∧
      breaker.onSuccess.usageLimitAlertedAt = breaker.usageLimitAlertedAt ∧
      breaker.onSuccess.alertInFlightGeneration = breaker.alertInFlightGeneration ∧
      breaker.onSuccess.recoveryGeneration = breaker.recoveryGeneration + 1 := by
  cases state : breaker.state <;> simp [onSuccess, releaseProbe, state]

theorem MutedByThisOutage.onSuccess
    (causes : MutedByThisOutage config policy scan start past world) :
    MutedByThisOutage config policy scan start (past ++ [.onSuccess])
      { world with breaker := world.breaker.onSuccess } := by
  rcases world.breaker.onSuccess_paging with ⟨suppressed, -, inFlight, generation⟩
  constructor
  · intro scheduled member
    have := causes.pageGeneration scheduled member
    simp only [generation]
    omega
  · intro guardGeneration guarded
    have := causes.guardGeneration guardGeneration (by simpa only [inFlight] using guarded)
    simp only [generation]
    omega
  · intro guarded
    have := causes.guardGeneration _ (by simpa only [inFlight] using guarded)
    omega
  · intro positive
    simp [suppressed] at positive
  · intro scheduled member _ current
    have := causes.pageGeneration scheduled member
    simp only [generation] at current
    omega

theorem CircuitBreaker.finishPage_paging (breaker : CircuitBreaker) (page : Page)
    (delivery : Delivery) (mono : ℚ) :
    (breaker.finishPage page delivery mono).recoveryGeneration = breaker.recoveryGeneration ∧
      ((breaker.finishPage page delivery mono).alertInFlightGeneration =
          breaker.alertInFlightGeneration ∨
        (breaker.finishPage page delivery mono).alertInFlightGeneration = none) ∧
      ((breaker.finishPage page delivery mono).alertSuppressedUntil = breaker.alertSuppressedUntil ∨
        page.suppressEpoch.isSome = true ∧ page.generation = breaker.recoveryGeneration) ∧
      (breaker.finishPage page delivery mono).usageLimitAlertedAt =
        (if page.suppressEpoch.isSome = true ∧ delivery = .delivered then some mono
        else breaker.usageLimitAlertedAt) := by
  unfold finishPage
  cases page.suppressEpoch with
  | none => simp
  | some epoch =>
    split_ifs <;> simp_all

variable {pages : List ScheduledPage}

theorem mem_set_delivery {index : ℕ} {scheduled found : ScheduledPage}
    {delivery : Delivery} (at_index : pages[index]? = some scheduled)
    (member : found ∈ pages.set index { scheduled with delivery := some delivery }) :
    ∃ original ∈ pages, original.page = found.page ∧ original.decidedAt = found.decidedAt := by
  rcases List.mem_or_eq_of_mem_set member with member | rfl
  · exact ⟨found, member, rfl, rfl⟩
  · exact ⟨scheduled, List.mem_of_getElem? at_index, rfl, rfl⟩

theorem MutedByThisOutage.finishPage {index : ℕ} {delivery : Delivery} {mono : ℚ}
    (causes : MutedByThisOutage config policy scan start past world)
    (stepped : (breakerMachine config policy scan).step world (.finishPage index delivery mono) =
      some next) :
    MutedByThisOutage config policy scan start (past ++ [.finishPage index delivery mono])
      next := by
  rcases step_finishPage.mp stepped with ⟨scheduled, at_index, -, -, rfl⟩
  rcases world.breaker.finishPage_paging scheduled.page delivery mono with
    ⟨generation, inFlight, suppressed, -⟩
  constructor
  · intro found member
    rcases mem_set_delivery at_index member with ⟨original, originalMember, page, -⟩
    simp only [generation]
    exact page ▸ causes.pageGeneration original originalMember
  · intro guardGeneration guarded
    simp only [generation]
    rcases inFlight with same | cleared
    · exact causes.guardGeneration guardGeneration (same ▸ guarded)
    · simp [cleared] at guarded
  · intro guarded
    rcases inFlight with same | cleared
    · simp only [generation, same] at guarded
      exact (causes.guarded guarded).append (by simp)
    · simp [cleared] at guarded
  · intro positive
    rcases suppressed with same | ⟨limit, current⟩
    · simp only [same] at positive
      exact (causes.suppressed positive).append (by simp)
    · exact (causes.paged scheduled (List.mem_of_getElem? at_index) limit current).append (by simp)
  · intro found member limit current
    rcases mem_set_delivery at_index member with ⟨original, originalMember, page, -⟩
    simp only [generation] at current
    exact (causes.paged original originalMember
      (by simpa only [ScheduledPage.isUsageLimit, page] using limit)
      (by rw [page, current])).append (by simp)

theorem schedulePage_of_untripped {outcome : FailureOutcome} (untripped : outcome.isTrip = false) :
    schedulePage pages failure outcome = pages := by
  cases outcome <;> simp_all [FailureOutcome.isTrip, schedulePage]

theorem mem_schedulePage_paged {page : Page}
    {found : ScheduledPage} (member : found ∈ schedulePage pages failure (.paged page)) :
    found ∈ pages ∨ found = ⟨page, failure.clocks.mono, none⟩ := by
  unfold schedulePage at member
  split_ifs at member
  · simpa using member
  · exact Or.inl member

theorem MutedByThisOutage.onFailure (enabled : policy.enabled = true)
    (paging : policy.pageOnUsageLimit = true)
    (causes : MutedByThisOutage config policy scan start past world)
    (ran : (breakerMachine config policy scan).run start past = some world)
    (stepped : (breakerMachine config policy scan).step world (.onFailure failure) = some next) :
    MutedByThisOutage config policy scan start (past ++ [.onFailure failure]) next := by
  rcases step_onFailure.mp stepped with ⟨-, -, rfl⟩
  rcases world.breaker.onFailure_cases config policy scan failure with
    ⟨untripped, same⟩ | ⟨-, -, tripped, same, decided⟩
  · exact causes.of_samePaging (by simp) same (schedulePage_of_untripped untripped)
  · have trip := tripped.decidePage_isTrip config policy scan failure
    rw [← decided] at trip
    have since : failure.recognised scan = true →
        RecognisedTripSince config policy scan start (past ++ [.onFailure failure]) :=
      fun recognised => .of_trip ran recognised trip
    simp only [decided] at trip ⊢
    cases outcome : (tripped.decidePage config policy scan failure).2 with
    | belowThreshold | alreadyOpen | raised =>
      simp [outcome, FailureOutcome.isTrip] at trip
    | heldBack gate =>
      rcases CircuitBreaker.decidePage_heldBack enabled paging outcome with
        ⟨unrecognised, -, inFlight, generation⟩
      cases recognised : failure.recognised scan with
      | false =>
        refine causes.of_samePaging (by simp) ?_ rfl
        simp only [(unrecognised recognised).2]
        exact same
      | true =>
        constructor
        · simpa only [schedulePage, generation, same.generation] using causes.pageGeneration
        · simpa only [inFlight, generation, same.inFlight, same.generation] using
            causes.guardGeneration
        · exact fun _ => since recognised
        · exact fun _ => since recognised
        · exact fun _ _ _ _ => since recognised
    | paged page =>
      rcases CircuitBreaker.decidePage_paged enabled paging outcome with
        ⟨pageGeneration, limit, -, -, suppressed, -, generation, inFlight⟩
      constructor
      · intro found member
        simp only [generation, same.generation]
        rcases mem_schedulePage_paged member with member | rfl
        · exact causes.pageGeneration found member
        · exact (pageGeneration.trans same.generation).le
      · intro guardGeneration guarded
        simp only [generation, same.generation]
        rcases inFlight with kept | cleared | ⟨-, claimed⟩
        · exact causes.guardGeneration guardGeneration (by rw [← same.inFlight, ← kept, guarded])
        · simp [cleared] at guarded
        · simp only [claimed, Option.some.injEq] at guarded
          exact (guarded.symm.trans same.generation).le
      · intro guarded
        rcases inFlight with kept | cleared | ⟨recognised, -⟩
        · simp only [kept, generation, same.inFlight, same.generation] at guarded
          exact (causes.guarded guarded).append (by simp)
        · simp [cleared] at guarded
        · exact since recognised
      · intro positive
        simp only [suppressed, same.suppressed] at positive
        exact (causes.suppressed positive).append (by simp)
      · intro found member isLimit current
        rcases mem_schedulePage_paged member with member | rfl
        · simp only [generation, same.generation] at current
          exact (causes.paged found member isLimit current).append (by simp)
        · exact since (limit ▸ isLimit)

theorem MutedByThisOutage.of_run (enabled : policy.enabled = true)
    (paging : policy.pageOnUsageLimit = true) {perf mono : ℚ}
    (ran : (breakerMachine config policy scan).run (.fresh perf mono) past = some world) :
    MutedByThisOutage config policy scan (.fresh perf mono) past world := by
  refine Machine.run_history ?_ ?_ ran
  · constructor <;> simp [BreakerWorld.fresh]
  · intro past world event next ran causes stepped
    cases event with
    | beginDispatch now =>
      rcases step_beginDispatch.mp stepped with ⟨-, rfl⟩
      exact causes.of_samePaging (by simp) (world.breaker.beginDispatch_samePaging config now) rfl
    | endDispatch token =>
      rcases step_endDispatch.mp stepped with rfl
      exact causes.of_samePaging (by simp) (world.breaker.endDispatch_samePaging token) rfl
    | onSuccess =>
      rcases step_onSuccess.mp stepped with rfl
      exact causes.onSuccess
    | onFailure failure => exact causes.onFailure enabled paging ran stepped
    | finishPage index delivery mono => exact causes.finishPage stepped

end Mutes

section Pages

variable {world next : BreakerWorld}

theorem onFailure_recoveryGeneration (breaker : CircuitBreaker) (failure : Failure) :
    (breaker.onFailure config policy scan failure).1.recoveryGeneration =
      breaker.recoveryGeneration := by
  cases reached : (breaker.countFailure failure.caller).byStreak config ||
      CircuitBreaker.byAvailability config failure.availability with
  | false =>
    rw [CircuitBreaker.onFailure_below config policy scan reached]
    rfl
  | true =>
    rcases CircuitBreaker.onFailure_reached config policy scan reached with ⟨_, _, _, framed⟩
    rw [framed]
    rfl

theorem step_pages_kept {event : BreakerEvent} {index : ℕ} {scheduled : ScheduledPage}
    (stepped : (breakerMachine config policy scan).step world event = some next)
    (at_index : world.pages[index]? = some scheduled) :
    world.breaker.recoveryGeneration ≤ next.breaker.recoveryGeneration ∧
      ∃ later, next.pages[index]? = some later ∧ later.page = scheduled.page := by
  cases event with
  | beginDispatch now =>
    rcases step_beginDispatch.mp stepped with ⟨-, rfl⟩
    exact ⟨(world.breaker.beginDispatch_samePaging config now).generation.ge,
      scheduled, at_index, rfl⟩
  | endDispatch token =>
    rcases step_endDispatch.mp stepped with rfl
    exact ⟨(world.breaker.endDispatch_samePaging token).generation.ge, scheduled, at_index, rfl⟩
  | onSuccess =>
    rcases step_onSuccess.mp stepped with rfl
    refine ⟨?_, scheduled, at_index, rfl⟩
    simp [world.breaker.onSuccess_paging.2.2.2]
  | onFailure failure =>
    rcases step_onFailure.mp stepped with ⟨-, -, rfl⟩
    refine ⟨(onFailure_recoveryGeneration world.breaker failure).ge, scheduled, ?_, rfl⟩
    have inside : index < world.pages.length := List.getElem?_eq_some_iff.mp at_index |>.1
    unfold schedulePage
    split
    · split_ifs
      · rw [List.getElem?_append_left inside, at_index]
      · exact at_index
    · exact at_index
  | finishPage finished delivery mono =>
    rcases step_finishPage.mp stepped with ⟨found, foundAt, -, -, rfl⟩
    refine ⟨(world.breaker.finishPage_paging found.page delivery mono).1.ge, ?_⟩
    by_cases equal : finished = index
    · subst equal
      rw [at_index, Option.some.injEq] at foundAt
      subst foundAt
      have inside : finished < world.pages.length := List.getElem?_eq_some_iff.mp at_index |>.1
      exact ⟨_, List.getElem?_set_self inside, rfl⟩
    · exact ⟨scheduled, by simpa only [List.getElem?_set_ne equal] using at_index, rfl⟩

/-- The page at `index` belongs to a generation that is over. -/
def PageOutdated (index : ℕ) (world : BreakerWorld) : Prop :=
  ∃ scheduled, world.pages[index]? = some scheduled ∧
    scheduled.page.generation < world.breaker.recoveryGeneration

theorem PageOutdated.step {event : BreakerEvent} {index : ℕ} (outdated : PageOutdated index world)
    (stepped : (breakerMachine config policy scan).step world event = some next) :
    PageOutdated index next := by
  rcases outdated with ⟨scheduled, at_index, older⟩
  rcases step_pages_kept stepped at_index with ⟨grown, later, laterAt, page⟩
  refine ⟨later, laterAt, ?_⟩
  rw [page]
  omega

/-- A trip that is no usage limit is held back only if a usage-limit trip came after the last
`on_success`, and no page scheduled before it moves the deadline. -/
theorem trip_held_back_cause (enabled : policy.enabled = true)
    (paging : policy.pageOnUsageLimit = true) {perf mono : ℚ} {past : List BreakerEvent}
    (ran : (breakerMachine config policy scan).run (.fresh perf mono) past = some world) :
    (∀ failure gate next,
      (breakerMachine config policy scan).step world (.onFailure failure) = some next →
      failure.recognised scan = false →
      (world.breaker.onFailure config policy scan failure).2 = .heldBack gate →
      RecognisedTripSince config policy scan (.fresh perf mono) past) ∧
    (∀ index after later delivery finishedAt next, index < world.pages.length →
      (breakerMachine config policy scan).run world (.onSuccess :: after) = some later →
      (breakerMachine config policy scan).step later (.finishPage index delivery finishedAt) =
        some next →
      next.breaker.alertSuppressedUntil = later.breaker.alertSuppressedUntil) := by
  have causes := MutedByThisOutage.of_run enabled paging ran
  refine ⟨?_, ?_⟩
  · intro failure gate next stepped unrecognised held
    rcases world.breaker.onFailure_cases config policy scan failure with
      ⟨untripped, -⟩ | ⟨-, -, tripped, same, decided⟩
    · simp [held, FailureOutcome.isTrip] at untripped
    · rw [decided] at held
      have muted := ((CircuitBreaker.decidePage_heldBack enabled paging held).1 unrecognised).1
      rw [same.muted_eq, CircuitBreaker.muted, Bool.or_eq_true, decide_eq_true_eq,
        decide_eq_true_eq] at muted
      rcases muted with guarded | suppressed
      · exact causes.guarded guarded
      · exact causes.suppressed (failure.clocks.wall.coe_nonneg.trans_lt suppressed)
  · intro index after later delivery finishedAt next inside ranLater stepped
    rcases Machine.run_cons_eq_some.mp ranLater with ⟨recovered, recovery, ranAfter⟩
    have outdated : PageOutdated index recovered := by
      rcases step_onSuccess.mp recovery with rfl
      refine ⟨world.pages[index], List.getElem?_eq_getElem inside, ?_⟩
      have := causes.pageGeneration _ (List.getElem_mem inside)
      simp only [world.breaker.onSuccess_paging.2.2.2]
      omega
    rcases Machine.run_invariant (fun _ _ _ holds stepped => PageOutdated.step holds stepped)
        outdated ranAfter with
      ⟨scheduled, at_index, older⟩
    rcases step_finishPage.mp stepped with ⟨found, foundAt, -, -, rfl⟩
    rw [at_index, Option.some.injEq] at foundAt
    subst foundAt
    rcases (later.breaker.finishPage_paging scheduled.page delivery finishedAt).2.2.1 with
      same | ⟨-, current⟩
    · exact same
    · omega

/-- A spent plan trips the default circuit and its page is being delivered when
the first probe fails with a server error: that trip is held back. -/
theorem trip_held_back_cause_failed_probe :
    let events : List BreakerEvent :=
      [.onFailure ⟨⟨0, 0, 0⟩, some (1 / 2), "error", some "usage limit reached", none, true⟩,
        .beginDispatch 30]
    ∃ world, (breakerMachine {} {} .silent).run (.fresh 0 0) events = some world ∧
        (world.breaker.onFailure {} {} .silent
          ⟨⟨31, 31, 31⟩, some (2 / 5), "error", some "503", none, true⟩).2 = .heldBack .muted ∧
        RecognisedTripSince {} {} .silent (.fresh 0 0) events := by
  intro events
  have ran : (breakerMachine {} {} .silent).run (.fresh 0 0) events =
    some
      { breaker :=
          { state := .halfOpen
            consecutiveFailures := 1
            lastOpened := some 0
            probeDeadline := some 60
            probeToken := some 1
            nextProbeToken := 2
            alertInFlightGeneration := some 0 }
        perf := 30
        mono := 0
        pages :=
          [{ page :=
              { consecutiveFailures := 1
                availability := some (1 / 2)
                byStreak := false
                byAvailability := true
                reason := "error"
                upstreamError := some "usage limit reached"
                quotaResetAt := none
                affectedCallers := []
                suppressEpoch := some 14400
                generation := 0 }
             decidedAt := 0
             delivery := none }] } := by
    decide +kernel
  refine ⟨_, ran, by decide +kernel, ?_⟩
  exact (trip_held_back_cause rfl rfl ran).1
    ⟨⟨31, 31, 31⟩, some (2 / 5), "error", some "503", none, true⟩ .muted _
    (step_onFailure.mpr ⟨by norm_num, by norm_num, rfl⟩) (by decide +kernel) (by decide +kernel)

end Pages

section Spacing

variable {world next : BreakerWorld}

/-- Any two delivered plan-usage pages were decided `MIN_ALERT_GAP` apart. -/
def PlanPagesSpaced (world : BreakerWorld) : Prop :=
  ∀ (i j : ℕ) (first second : ScheduledPage), i < j → world.pages[i]? = some first →
    world.pages[j]? = some second → first.isUsageLimit = true → second.isUsageLimit = true →
    first.delivery = some .delivered → second.delivery = some .delivered →
    minAlertGap ≤ second.decidedAt - first.decidedAt

def CircuitBreaker.pagesPlanLimit (config : BreakerConfig) (scan : ResetScan)
    (breaker : CircuitBreaker) (failure : Failure) : Bool :=
  breaker.state ≠ .opened && ((breaker.countFailure failure.caller).byStreak config ||
      byAvailability config failure.availability) &&
    failure.recognised scan && !breaker.muted failure.clocks.wall &&
    !breaker.planLimitRecent failure.clocks.mono && failure.scheduled

/-- No plan-usage page is decided while another one, decided less than
`MIN_ALERT_GAP` ago, is still being delivered. -/
def PlanPageAlone (config : BreakerConfig) (scan : ResetScan) (world : BreakerWorld) :
    BreakerEvent → Prop
  | .onFailure failure =>
    world.breaker.pagesPlanLimit config scan failure = true →
      ∀ scheduled ∈ world.pages, scheduled.isUsageLimit = true → scheduled.delivery = none →
        minAlertGap ≤ failure.clocks.mono - scheduled.decidedAt
  | _ => True

instance decidablePlanPageAlone (config : BreakerConfig) (scan : ResetScan)
    (world : BreakerWorld) : ∀ event, Decidable (PlanPageAlone config scan world event)
  | .onFailure failure =>
    inferInstanceAs (Decidable (world.breaker.pagesPlanLimit config scan failure = true →
      ∀ scheduled ∈ world.pages, scheduled.isUsageLimit = true → scheduled.delivery = none →
        minAlertGap ≤ failure.clocks.mono - scheduled.decidedAt))
  | .beginDispatch _ | .endDispatch _ | .onSuccess | .finishPage _ _ _ => isTrue trivial

def ScheduledPage.alive (scheduled : ScheduledPage) : Prop :=
  scheduled.delivery = none ∨ scheduled.delivery = some .delivered

/-- The spacing with the pages in flight counted as delivered, and the clock of
the last plan-usage page no earlier than any delivered one. -/
structure PlanPagesApart (world : BreakerWorld) : Prop where
  decided : ∀ scheduled ∈ world.pages, scheduled.decidedAt ≤ world.mono
  stamped : ∀ scheduled ∈ world.pages, scheduled.isUsageLimit = true →
    scheduled.delivery = some .delivered →
    ∃ alertedAt, world.breaker.usageLimitAlertedAt = some alertedAt ∧
      scheduled.decidedAt ≤ alertedAt
  apart : ∀ (i j : ℕ) (first second : ScheduledPage), i < j → world.pages[i]? = some first →
    world.pages[j]? = some second → first.isUsageLimit = true → second.isUsageLimit = true →
    first.alive → second.alive → minAlertGap ≤ second.decidedAt - first.decidedAt

theorem PlanPagesApart.spaced (pages : PlanPagesApart world) : PlanPagesSpaced world :=
  fun i j first second before firstAt secondAt firstLimit secondLimit firstDone secondDone =>
    pages.apart i j first second before firstAt secondAt firstLimit secondLimit (Or.inr firstDone)
      (Or.inr secondDone)

theorem PlanPagesApart.of_same (pages : PlanPagesApart world) (clock : world.mono ≤ next.mono)
    (alerted : next.breaker.usageLimitAlertedAt = world.breaker.usageLimitAlertedAt)
    (same : next.pages = world.pages) : PlanPagesApart next where
  decided := by
    rw [same]
    exact fun scheduled member => (pages.decided scheduled member).trans clock
  stamped := by
    rw [same, alerted]
    exact pages.stamped
  apart := by
    rw [same]
    exact pages.apart

theorem getElem?_set_delivery {pages : List ScheduledPage} {index i : ℕ}
    {scheduled found : ScheduledPage} {delivery : Delivery}
    (at_index : pages[index]? = some scheduled) (inFlight : scheduled.delivery = none)
    (foundAt : (pages.set index { scheduled with delivery := some delivery })[i]? = some found) :
    ∃ original, pages[i]? = some original ∧ original.page = found.page ∧
      original.decidedAt = found.decidedAt ∧ (found.alive → original.alive) := by
  by_cases equal : index = i
  · subst equal
    have inside : index < pages.length := (List.getElem?_eq_some_iff.mp at_index).1
    rw [List.getElem?_set_self inside, Option.some.injEq] at foundAt
    subst foundAt
    exact ⟨scheduled, at_index, rfl, rfl, fun _ => Or.inl inFlight⟩
  · rw [List.getElem?_set_ne equal] at foundAt
    exact ⟨found, foundAt, rfl, rfl, id⟩

theorem PlanPagesApart.finishPage {index : ℕ} {delivery : Delivery} {mono : ℚ}
    (pages : PlanPagesApart world)
    (stepped : (breakerMachine config policy scan).step world (.finishPage index delivery mono) =
      some next) : PlanPagesApart next := by
  rcases step_finishPage.mp stepped with ⟨scheduled, at_index, inFlight, clock, rfl⟩
  have alerted := (world.breaker.finishPage_paging scheduled.page delivery mono).2.2.2
  have original : ∀ found ∈ world.pages.set index { scheduled with delivery := some delivery },
      found.decidedAt ≤ world.mono := by
    intro found member
    rcases mem_set_delivery at_index member with ⟨original, originalMember, -, decided⟩
    exact decided ▸ pages.decided original originalMember
  constructor
  · exact fun found member => (original found member).trans clock
  · intro found member limit done
    simp only [alerted]
    split_ifs with stamps
    · exact ⟨mono, rfl, (original found member).trans clock⟩
    · rcases List.mem_or_eq_of_mem_set member with member | rfl
      · exact pages.stamped found member limit done
      · exact absurd ⟨limit, Option.some.inj done⟩ stamps
  · intro i j first second before firstAt secondAt firstLimit secondLimit firstAlive secondAlive
    rcases getElem?_set_delivery at_index inFlight firstAt with
      ⟨first', firstAt', firstPage, firstDecided, firstAlive'⟩
    rcases getElem?_set_delivery at_index inFlight secondAt with
      ⟨second', secondAt', secondPage, secondDecided, secondAlive'⟩
    rw [← firstDecided, ← secondDecided]
    refine pages.apart i j first' second' before firstAt' secondAt' ?_ ?_ (firstAlive' firstAlive)
      (secondAlive' secondAlive)
    · simpa only [ScheduledPage.isUsageLimit, firstPage] using firstLimit
    · simpa only [ScheduledPage.isUsageLimit, secondPage] using secondLimit

theorem PlanPagesApart.schedule {page : Page} {decidedAt : ℚ} {breaker : CircuitBreaker}
    {perf : ℚ} (pages : PlanPagesApart world) (clock : world.mono ≤ decidedAt)
    (alerted : breaker.usageLimitAlertedAt = world.breaker.usageLimitAlertedAt)
    (later : page.suppressEpoch.isSome = true → ∀ scheduled ∈ world.pages,
      scheduled.isUsageLimit = true → scheduled.alive →
      minAlertGap ≤ decidedAt - scheduled.decidedAt) :
    PlanPagesApart
      { breaker := breaker, perf := perf, mono := decidedAt,
        pages := world.pages ++ [⟨page, decidedAt, none⟩] } := by
  constructor
  · intro scheduled member
    rcases List.mem_append.mp member with member | member
    · exact (pages.decided scheduled member).trans clock
    · simp [List.mem_singleton.mp member]
  · intro scheduled member limit done
    rcases List.mem_append.mp member with member | member
    · simpa only [alerted] using pages.stamped scheduled member limit done
    · simp [List.mem_singleton.mp member] at done
  · intro i j first second before firstAt secondAt firstLimit secondLimit firstAlive secondAlive
    have inside : j < world.pages.length + 1 := by
      simpa using (List.getElem?_eq_some_iff.mp secondAt).1
    rw [List.getElem?_append_left (by omega)] at firstAt
    by_cases earlier : j < world.pages.length
    · rw [List.getElem?_append_left earlier] at secondAt
      exact pages.apart i j first second before firstAt secondAt firstLimit secondLimit firstAlive
        secondAlive
    · have last : j = world.pages.length := by omega
      subst last
      simp only [List.getElem?_concat_length, Option.some.injEq] at secondAt
      subst secondAt
      exact later secondLimit first (List.mem_of_getElem? firstAt) firstLimit firstAlive

theorem PlanPagesApart.onFailure (enabled : policy.enabled = true)
    (paging : policy.pageOnUsageLimit = true) {failure : Failure} (pages : PlanPagesApart world)
    (alone : PlanPageAlone config scan world (.onFailure failure))
    (stepped : (breakerMachine config policy scan).step world (.onFailure failure) = some next) :
    PlanPagesApart next := by
  rcases step_onFailure.mp stepped with ⟨-, clock, rfl⟩
  rcases world.breaker.onFailure_cases config policy scan failure with
    ⟨untripped, same⟩ | ⟨notOpen, reached, tripped, same, decided⟩
  · exact pages.of_same clock same.alerted (schedulePage_of_untripped untripped)
  · have trip := tripped.decidePage_isTrip config policy scan failure
    simp only [decided]
    cases outcome : (tripped.decidePage config policy scan failure).2 with
    | belowThreshold | alreadyOpen | raised =>
      simp [outcome, FailureOutcome.isTrip] at trip
    | heldBack gate =>
      rcases CircuitBreaker.decidePage_heldBack enabled paging outcome with ⟨-, alerted, -⟩
      exact pages.of_same clock (alerted.trans same.alerted) rfl
    | paged page =>
      rcases CircuitBreaker.decidePage_paged enabled paging outcome with
        ⟨-, limit, unmuted, unlimited, -, alerted, -⟩
      rw [same.muted_eq] at unmuted
      simp only [same.planLimitRecent_eq] at unlimited
      unfold schedulePage
      split_ifs with accepted
      · refine pages.schedule clock (alerted.trans same.alerted) ?_
        intro isLimit scheduled member scheduledLimit alive
        have recognised : failure.recognised scan = true := limit ▸ isLimit
        have planPage : world.breaker.pagesPlanLimit config scan failure = true := by
          simp [CircuitBreaker.pagesPlanLimit, notOpen, -Bool.or_eq_true, reached, recognised,
            unmuted, unlimited recognised, accepted]
        rcases alive with inFlight | done
        · exact alone planPage scheduled member scheduledLimit inFlight
        · rcases pages.stamped scheduled member scheduledLimit done with
            ⟨alertedAt, stamp, before⟩
          have apart := unlimited recognised
          simp only [CircuitBreaker.planLimitRecent, stamp, decide_eq_false_iff_not,
            not_lt] at apart
          linarith
      · exact pages.of_same clock (alerted.trans same.alerted) rfl

/-- A plan page while no other is out keeps the plan pages apart. -/
theorem PlanPagesApart.step (enabled : policy.enabled = true)
    (paging : policy.pageOnUsageLimit = true) {event : BreakerEvent}
    (pages : PlanPagesApart world) (alone : PlanPageAlone config scan world event)
    (stepped : (breakerMachine config policy scan).step world event = some next) :
    PlanPagesApart next := by
  cases event with
  | beginDispatch now =>
    rcases step_beginDispatch.mp stepped with ⟨-, rfl⟩
    exact pages.of_same (le_refl _) (world.breaker.beginDispatch_samePaging config now).alerted rfl
  | endDispatch token =>
    rcases step_endDispatch.mp stepped with rfl
    exact pages.of_same (le_refl _) (world.breaker.endDispatch_samePaging token).alerted rfl
  | onSuccess =>
    rcases step_onSuccess.mp stepped with rfl
    exact pages.of_same (le_refl _) world.breaker.onSuccess_paging.2.1 rfl
  | onFailure failure => exact pages.onFailure enabled paging alone stepped
  | finishPage index delivery mono => exact pages.finishPage stepped

end Spacing

end HybridInference.Health
