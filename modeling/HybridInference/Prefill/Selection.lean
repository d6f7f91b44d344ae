import HybridInference.Prefill.Tracker

/-!
# Elephant admission

`select_index` of `routing.prefill_load` and the `acquire` that follows it in one routing
transaction. Selection judges every candidate as `acquire` will count it, so an elephant goes to
an endpoint at its limit only when no candidate can take it otherwise. No law of the arithmetic of
the weights is used: a draw picks an eligible candidate however it rounds.
-/

namespace HybridInference.Prefill

open Library

structure SelectionSettings extends PrefillSettings where
  elephantLimitTokens : ℤ := 1
  fixedElephantLimit : Option ℤ := none
  interveneTokens : ℤ := 50000

def SelectionSettings.elephantLimit (settings : SelectionSettings) : ℤ :=
  max (settings.fixedElephantLimit.getD settings.elephantLimitTokens) 1

theorem SelectionSettings.elephantLimit_pos (settings : SelectionSettings) :
    0 < settings.elephantLimit := by
  unfold elephantLimit
  omega

structure Candidate (Weight : Type) where
  endpointId : String
  weight : Weight

abbrev Indexed (Weight : Type) := Candidate Weight × ℕ

/-- The arguments of `select_index` and of the `acquire` that follows it, the two numbers that
`rand` gives and the clock. -/
structure RouteRequest (Weight : Type) where
  candidates : List (Candidate Weight)
  tokens : ℤ
  affinityKey : Option String
  avoid : Option String
  fingerprint : Option String
  anchor : Option Anchor
  draws : Weight × Weight
  now : ℚ

section Pick

variable {Weight : Type} [Zero Weight] [Add Weight] [Mul Weight] [Max Weight] [LE Weight]
  [DecidableLE Weight]

/-- The loop of `_weighted_pick`. -/
def pickFrom (threshold : Weight) : Weight → List (Indexed Weight) → Option (Indexed Weight)
  | _, [] => none
  | cumulative, entry :: rest =>
    if threshold ≤ cumulative + max entry.1.weight 0 then some entry
    else pickFrom threshold (cumulative + max entry.1.weight 0) rest

def weightedPick (eligible : List (Indexed Weight)) (draw : Weight) : Option (Indexed Weight) :=
  let total := eligible.foldl (fun sum entry => sum + max entry.1.weight 0) 0
  if total ≤ 0 then eligible.getLast?
  else (pickFrom (draw * total) 0 eligible).or eligible.getLast?

variable {eligible : List (Indexed Weight)}

variable {entry : Indexed Weight}

omit [Mul Weight] in
theorem mem_of_pickFrom {threshold cumulative : Weight}
    (picked : pickFrom threshold cumulative eligible = some entry) :
    entry ∈ eligible := by
  induction eligible generalizing cumulative with
  | nil => simp [pickFrom] at picked
  | cons first rest ih =>
    unfold pickFrom at picked
    split_ifs at picked
    · rw [Option.some.injEq] at picked
      rw [picked]
      exact List.mem_cons_self
    · exact List.mem_cons_of_mem _ (ih picked)

theorem mem_of_weightedPick {draw : Weight} (picked : weightedPick eligible draw = some entry) :
    entry ∈ eligible := by
  unfold weightedPick at picked
  dsimp only at picked
  split_ifs at picked
  · exact List.mem_of_getLast? picked
  · rcases Option.or_eq_some_iff.mp picked with picked | ⟨-, last⟩
    · exact mem_of_pickFrom picked
    · exact List.mem_of_getLast? last

theorem weightedPick_isSome (nonempty : eligible ≠ [])
    (draw : Weight) : ∃ entry, weightedPick eligible draw = some entry := by
  have last : eligible.getLast? = some (eligible.getLast nonempty) :=
    List.getLast?_eq_some_getLast nonempty
  unfold weightedPick
  dsimp only
  split_ifs
  · exact ⟨_, last⟩
  · rw [last]
    cases pickFrom _ _ eligible with
    | none => exact ⟨_, rfl⟩
    | some entry => exact ⟨entry, rfl⟩

end Pick

namespace PrefillLoadTracker

variable {Weight : Type}

/-- Whether an `acquire` of the request on the endpoint counts it as an elephant. -/
def countsElephant (tracker : PrefillLoadTracker) (settings : SelectionSettings)
    (request : RouteRequest Weight) (endpointId : String) : Bool :=
  tracker.isElephant settings.toPrefillSettings
    (tracker.uncachedEstimate endpointId request.tokens request.affinityKey request.fingerprint
      none request.now)

def unavoided (request : RouteRequest Weight) : List (Indexed Weight) :=
  match request.avoid with
  | none => request.candidates.zipIdx
  | some avoid =>
    let remaining := request.candidates.zipIdx.filter fun entry => entry.1.endpointId ≠ avoid
    if remaining.isEmpty then request.candidates.zipIdx else remaining

/-- The candidates that the draws of `select_index` choose from. -/
def eligible (tracker : PrefillLoadTracker) (settings : SelectionSettings)
    (request : RouteRequest Weight) : List (Indexed Weight) :=
  if settings.prefillAwareEnabled then
    if (unavoided request).any fun entry =>
        tracker.countsElephant settings request entry.1.endpointId then
      let unsaturated := (unavoided request).filter fun entry =>
        !tracker.countsElephant settings request entry.1.endpointId ||
          tracker.elephants.read entry.1.endpointId < settings.elephantLimit
      if unsaturated.isEmpty then unavoided request else unsaturated
    else unavoided request
  else unavoided request

section Select

variable [Zero Weight] [Add Weight] [Mul Weight] [Max Weight] [LE Weight] [DecidableLE Weight]

/-- `select_index`. It raises only without a candidate. -/
def selectIndex (tracker : PrefillLoadTracker) (settings : SelectionSettings)
    (request : RouteRequest Weight) : Option ℕ :=
  match request.candidates with
  | [] => none
  | [_] => some 0
  | _ :: _ :: _ =>
    let eligible := tracker.eligible settings request
    (weightedPick eligible request.draws.1).bind fun first =>
      if settings.prefillAwareEnabled then
        (weightedPick eligible request.draws.2).map fun second =>
          let firstLoad := tracker.backlog.read first.1.endpointId
          let secondLoad := tracker.backlog.read second.1.endpointId
          if first.2 = second.2 then first.2
          else if max firstLoad secondLoad < settings.interveneTokens then first.2
          else if firstLoad ≤ secondLoad then first.2 else second.2
      else some first.2

end Select

section Eligible

variable {tracker : PrefillLoadTracker} {settings : SelectionSettings}
  {request : RouteRequest Weight} {entry : Indexed Weight}

theorem unavoided_ne_nil (nonempty : request.candidates ≠ []) : unavoided request ≠ [] := by
  have some_ : request.candidates.zipIdx ≠ [] := by
    rw [Ne, List.zipIdx_eq_nil_iff]
    exact nonempty
  unfold unavoided
  split
  · exact some_
  · dsimp only
    split_ifs with none_
    · exact some_
    · exact fun empty => none_ (List.isEmpty_iff.mpr empty)

theorem mem_zipIdx_of_mem_unavoided (inside : entry ∈ unavoided request) :
    entry ∈ request.candidates.zipIdx := by
  unfold unavoided at inside
  split at inside
  · exact inside
  · dsimp only at inside
    split_ifs at inside
    · exact inside
    · exact List.mem_of_mem_filter inside

theorem avoid_of_mem_unavoided (inside : entry ∈ unavoided request)
    (avoided : request.avoid = some entry.1.endpointId) :
    ∀ other ∈ request.candidates, other.endpointId = entry.1.endpointId := by
  unfold unavoided at inside
  rw [avoided] at inside
  dsimp only at inside
  split_ifs at inside with none_
  · intro other there
    rw [List.isEmpty_iff, List.filter_eq_nil_iff] at none_
    rcases List.mem_iff_getElem.mp there with ⟨index, within, found⟩
    have numbered : (other, index) ∈ request.candidates.zipIdx := by
      rw [List.mem_zipIdx_iff_getElem?, List.getElem?_eq_getElem within, found]
    have same := none_ (other, index) numbered
    simpa using same
  · have different := (List.mem_filter.mp inside).2
    simp at different

theorem mem_unavoided_of_mem {candidate : Candidate Weight} (there : candidate ∈ request.candidates)
    (spared : request.avoid ≠ some candidate.endpointId) :
    ∃ index, (candidate, index) ∈ unavoided request := by
  rcases List.mem_iff_getElem.mp there with ⟨index, within, found⟩
  have numbered : (candidate, index) ∈ request.candidates.zipIdx := by
    rw [List.mem_zipIdx_iff_getElem?, List.getElem?_eq_getElem within, found]
  refine ⟨index, ?_⟩
  unfold unavoided
  split
  · exact numbered
  · rename_i avoid avoided
    have stays : (candidate, index) ∈
        request.candidates.zipIdx.filter fun entry => entry.1.endpointId ≠ avoid := by
      refine List.mem_filter.mpr ⟨numbered, ?_⟩
      rw [decide_eq_true_eq]
      rintro rfl
      exact spared avoided
    dsimp only
    rw [if_neg]
    · exact stays
    · intro empty
      rw [List.isEmpty_iff] at empty
      rw [empty] at stays
      exact List.not_mem_nil stays

theorem eligible_ne_nil (nonempty : request.candidates ≠ []) :
    tracker.eligible settings request ≠ [] := by
  have unavoided := unavoided_ne_nil nonempty
  unfold eligible
  dsimp only
  split_ifs with _ _ none_
  · exact unavoided
  · exact fun empty => none_ (List.isEmpty_iff.mpr empty)
  · exact unavoided
  · exact unavoided

theorem mem_unavoided_of_mem_eligible (inside : entry ∈ tracker.eligible settings request) :
    entry ∈ unavoided request := by
  unfold eligible at inside
  dsimp only at inside
  split_ifs at inside
  · exact inside
  · exact List.mem_of_mem_filter inside
  · exact inside
  · exact inside

theorem saturated_of_mem_eligible (enabled : settings.prefillAwareEnabled = true)
    (inside : entry ∈ tracker.eligible settings request)
    (counts : tracker.countsElephant settings request entry.1.endpointId = true)
    (full : settings.elephantLimit ≤ tracker.elephants.read entry.1.endpointId) :
    ∀ other ∈ unavoided request, tracker.countsElephant settings request other.1.endpointId = true ∧
        settings.elephantLimit ≤ tracker.elephants.read other.1.endpointId := by
  have any : ((unavoided request).any fun entry =>
      tracker.countsElephant settings request entry.1.endpointId) = true :=
    List.any_eq_true.mpr ⟨entry, mem_unavoided_of_mem_eligible inside, counts⟩
  unfold eligible at inside
  dsimp only at inside
  split_ifs at inside with none_
  · rw [List.isEmpty_iff, List.filter_eq_nil_iff] at none_
    intro other there
    have saturated := none_ other there
    simpa using saturated
  · have unsaturated := (List.mem_filter.mp inside).2
    rw [counts, Bool.not_true, Bool.false_or, decide_eq_true_eq] at unsaturated
    omega

end Eligible

section Select

variable [Zero Weight] [Add Weight] [Mul Weight] [Max Weight] [LE Weight] [DecidableLE Weight]
  {tracker : PrefillLoadTracker} {settings : SelectionSettings} {request : RouteRequest Weight}

/-- The only candidate, or one of two picks: the lighter once one of them is loaded. -/
theorem selectIndex_cases (nonempty : request.candidates ≠ [])
    (enabled : settings.prefillAwareEnabled = true) :
    (∃ only, request.candidates = [only] ∧ tracker.selectIndex settings request = some 0) ∨
    (2 ≤ request.candidates.length ∧ ∃ first second chosen : Indexed Weight,
      weightedPick (tracker.eligible settings request) request.draws.1 = some first ∧
      weightedPick (tracker.eligible settings request) request.draws.2 = some second ∧
      tracker.selectIndex settings request = some chosen.2 ∧ (chosen = first ∨ chosen = second) ∧
      (settings.interveneTokens ≤ max (tracker.backlog.read first.1.endpointId)
          (tracker.backlog.read second.1.endpointId) →
        tracker.backlog.read chosen.1.endpointId ≤ tracker.backlog.read first.1.endpointId ∧
        tracker.backlog.read chosen.1.endpointId ≤ tracker.backlog.read second.1.endpointId)) := by
  have drawable : tracker.eligible settings request ≠ [] := eligible_ne_nil nonempty
  rcases weightedPick_isSome drawable request.draws.1 with ⟨first, firstPicked⟩
  rcases weightedPick_isSome drawable request.draws.2 with ⟨second, secondPicked⟩
  unfold selectIndex
  split
  · contradiction
  · rename_i only single
    exact Or.inl ⟨only, single, rfl⟩
  · rename_i one another rest several
    refine Or.inr ⟨?_, ?_⟩
    · rw [several, List.length_cons, List.length_cons]
      omega
    · dsimp only
      rw [firstPicked, secondPicked, Option.bind_some, if_pos enabled, Option.map_some]
      by_cases same : first.2 = second.2
      · have alike : first = second := by
          have firstThere := mem_zipIdx_of_mem_unavoided
            (mem_unavoided_of_mem_eligible (mem_of_weightedPick firstPicked))
          have secondThere := mem_zipIdx_of_mem_unavoided
            (mem_unavoided_of_mem_eligible (mem_of_weightedPick secondPicked))
          rw [List.mem_zipIdx_iff_getElem?] at firstThere secondThere
          rw [same, secondThere, Option.some.injEq] at firstThere
          exact Prod.ext firstThere.symm same
        refine ⟨first, second, first, rfl, rfl, ?_, Or.inl rfl, ?_⟩
        · rw [if_pos same]
        · intro _
          rw [alike]
          exact ⟨le_rfl, le_rfl⟩
      · rw [if_neg same]
        by_cases light : max (tracker.backlog.read first.1.endpointId)
            (tracker.backlog.read second.1.endpointId) < settings.interveneTokens
        · refine ⟨first, second, first, rfl, rfl, ?_, Or.inl rfl, ?_⟩
          · rw [if_pos light]
          · intro buried
            omega
        · rw [if_neg light]
          by_cases lighter : tracker.backlog.read first.1.endpointId ≤
              tracker.backlog.read second.1.endpointId
          · refine ⟨first, second, first, rfl, rfl, ?_, Or.inl rfl, ?_⟩
            · rw [if_pos lighter]
            · exact fun _ => ⟨le_rfl, lighter⟩
          · refine ⟨first, second, second, rfl, rfl, ?_, Or.inr rfl, ?_⟩
            · rw [if_neg lighter]
            · exact fun _ => ⟨by omega, le_rfl⟩

end Select

@[simp]
theorem uncachedEstimate_max (tracker : PrefillLoadTracker) (endpointId : String) (tokens : ℤ)
    (affinityKey fingerprint : Option String) (messages : Option (Anchor → Bool)) (now : ℚ) :
    tracker.uncachedEstimate endpointId (max tokens 0) affinityKey fingerprint messages now =
      tracker.uncachedEstimate endpointId tokens affinityKey fingerprint messages now := by
  unfold uncachedEstimate
  rw [max_eq_left (le_max_right tokens 0)]

theorem elephants_release (tracker : PrefillLoadTracker) (settings : PrefillSettings)
    (lease : PrefillLease) (prefillConfirmed : Bool) (now : ℚ) :
    (tracker.release settings lease prefillConfirmed now).elephants = if lease.elephant then
        tracker.elephants.settle lease.endpointId (tracker.elephants.read lease.endpointId - 1)
      else tracker.elephants := by
  unfold release discharge
  cases lease.affinityKey with
  | none => rfl
  | some key => cases prefillConfirmed <;> rfl

end PrefillLoadTracker

inductive RoutingEvent (Weight : Type) where
  | route (request : RouteRequest Weight)
  | release (lease : ℕ) (prefillConfirmed : Bool) (now : ℚ)
  | forgetEndpoint (endpointId : String)

def RouteRequest.acquireRequest {Weight : Type} (request : RouteRequest Weight)
    (endpointId : String) : AcquireRequest where
  endpointId := endpointId
  tokens := request.tokens
  affinityKey := request.affinityKey
  fingerprint := request.fingerprint
  anchor := request.anchor

namespace PrefillWorld

variable {Weight : Type}

section Route

variable [Zero Weight] [Add Weight] [Mul Weight] [Max Weight] [LE Weight] [DecidableLE Weight]

/-- `select_index` and the `acquire` of the chosen endpoint, with nothing between them. -/
def route (settings : SelectionSettings) (world : PrefillWorld) (request : RouteRequest Weight) :
    Option PrefillWorld :=
  (world.tracker.selectIndex settings request).bind fun index =>
    request.candidates[index]?.bind fun candidate =>
      prefillMachine.run world [.acquire (request.acquireRequest candidate.endpointId) request.now,
          .gate world.calls.length settings.toPrefillSettings request.now,
          .charge world.calls.length]

end Route

def WithinLimit (settings : SelectionSettings) (world : PrefillWorld) : Prop :=
  ∀ endpointId, world.tracker.elephants.read endpointId ≤ settings.elephantLimit

def HasRoom (settings : SelectionSettings) (world : PrefillWorld) : RoutingEvent Weight → Prop
  | .route request => ∃ candidate ∈ request.candidates,
      request.avoid ≠ some candidate.endpointId ∧
      (world.tracker.elephants.read candidate.endpointId < settings.elephantLimit ∨
        world.tracker.countsElephant settings request candidate.endpointId = false)
  | _ => True

instance decidableHasRoom (settings : SelectionSettings) (world : PrefillWorld) :
    ∀ event : RoutingEvent Weight, Decidable (world.HasRoom settings event)
  | .route request =>
    inferInstanceAs (Decidable (∃ candidate ∈ request.candidates,
      request.avoid ≠ some candidate.endpointId ∧
      (world.tracker.elephants.read candidate.endpointId < settings.elephantLimit ∨
        world.tracker.countsElephant settings request candidate.endpointId = false)))
  | .release _ _ _ => isTrue trivial
  | .forgetEndpoint _ => isTrue trivial

/-- The lease that the `acquire` of a request returns. -/
def leaseOf (settings : SelectionSettings) (world : PrefillWorld) (request : RouteRequest Weight)
    (endpointId : String) : PrefillLease where
  endpointId := endpointId
  tokens := world.tracker.uncachedEstimate endpointId request.tokens request.affinityKey none none
    request.now
  elephant := world.tracker.countsElephant settings request endpointId
  affinityKey := request.affinityKey
  released := false
  promptTokens := max request.tokens 0
  fingerprint := request.fingerprint
  anchor := request.anchor

theorem run_acquire (settings : SelectionSettings) (world : PrefillWorld)
    (request : RouteRequest Weight) (endpointId : String) :
    prefillMachine.run world [.acquire (request.acquireRequest endpointId) request.now,
          .gate world.calls.length settings.toPrefillSettings request.now,
          .charge world.calls.length] =
      some
        { tracker := world.tracker.charge endpointId request.affinityKey
            (leaseOf settings world request endpointId).tokens
            (leaseOf settings world request endpointId).elephant
          calls := world.calls ++ [.returned]
          leases := world.leases ++ [leaseOf settings world request endpointId] } := by
  simp [Machine.run, prefillMachine, step, leaseOf, RouteRequest.acquireRequest,
    PrefillLoadTracker.countsElephant]

section Transaction

variable [Zero Weight] [Add Weight] [Mul Weight] [Max Weight] [LE Weight] [DecidableLE Weight]
  {settings : SelectionSettings} {world next : PrefillWorld} {request : RouteRequest Weight}

theorem selected_spec (nonempty : request.candidates ≠ [])
    (enabled : settings.prefillAwareEnabled = true) :
    ∃ (index : ℕ) (candidate : Candidate Weight),
      world.tracker.selectIndex settings request = some index ∧
      request.candidates[index]? = some candidate ∧
      (request.avoid = some candidate.endpointId →
        ∀ other ∈ request.candidates, other.endpointId = candidate.endpointId) ∧
      (world.tracker.countsElephant settings request candidate.endpointId = true →
        settings.elephantLimit ≤ world.tracker.elephants.read candidate.endpointId →
        ∀ other ∈ request.candidates, request.avoid ≠ some other.endpointId →
          world.tracker.countsElephant settings request other.endpointId = true ∧
            settings.elephantLimit ≤ world.tracker.elephants.read other.endpointId) := by
  rcases @PrefillLoadTracker.selectIndex_cases Weight _ _ _ _ _ _ world.tracker settings request
    nonempty enabled with ⟨only, single, selected⟩ | ⟨-, first, second, chosen, firstPicked,
      secondPicked, selected, among, -⟩
  · refine ⟨0, only, selected, by rw [single]; rfl, ?_, ?_⟩
    · intro _ other there
      rw [single, List.mem_singleton] at there
      rw [there]
    · intro counts full other there _
      rw [single, List.mem_singleton] at there
      rw [there]
      exact ⟨counts, full⟩
  · have eligible : chosen ∈ world.tracker.eligible settings request := by
      rcases among with rfl | rfl
      · exact mem_of_weightedPick firstPicked
      · exact mem_of_weightedPick secondPicked
    have unavoided := PrefillLoadTracker.mem_unavoided_of_mem_eligible eligible
    have numbered := PrefillLoadTracker.mem_zipIdx_of_mem_unavoided unavoided
    refine ⟨chosen.2, chosen.1, selected, List.mem_zipIdx_iff_getElem?.mp numbered, ?_, ?_⟩
    · exact PrefillLoadTracker.avoid_of_mem_unavoided unavoided
    · intro counts full other there spared
      rcases PrefillLoadTracker.mem_unavoided_of_mem there spared with ⟨index, inside⟩
      exact PrefillLoadTracker.saturated_of_mem_eligible enabled eligible counts full _ inside

theorem route_eq {index : ℕ} {candidate : Candidate Weight}
    (selected : world.tracker.selectIndex settings request = some index)
    (found : request.candidates[index]? = some candidate) :
    world.route settings request = some
      { tracker := world.tracker.charge candidate.endpointId request.affinityKey
          (leaseOf settings world request candidate.endpointId).tokens
          (leaseOf settings world request candidate.endpointId).elephant
        calls := world.calls ++ [.returned]
        leases := world.leases ++ [leaseOf settings world request candidate.endpointId] } := by
  unfold route
  rw [selected, Option.bind_some, found, Option.bind_some, run_acquire]

theorem WithinLimit.route (within : world.WithinLimit settings)
    (enabled : settings.prefillAwareEnabled = true) (room : world.HasRoom settings (.route request))
    (routed : world.route settings request = some next) : next.WithinLimit settings := by
  rcases room with ⟨other, there, spared, free⟩
  have nonempty : request.candidates ≠ [] := List.ne_nil_of_mem there
  have chosen : ∃ (index : ℕ) (candidate : Candidate Weight),
      world.tracker.selectIndex settings request = some index ∧ _ := selected_spec nonempty enabled
  rcases chosen with ⟨index, candidate, selected, found, -, saturated⟩
  rw [route_eq selected found, Option.some.injEq] at routed
  subst routed
  intro endpointId
  unfold PrefillLoadTracker.charge leaseOf
  dsimp only
  split_ifs with counts
  · rw [Dict.read_insert]
    split_ifs with same
    · by_contra above
      have full : settings.elephantLimit ≤ world.tracker.elephants.read candidate.endpointId := by
        omega
      rcases saturated counts full other there spared with ⟨otherCounts, otherFull⟩
      rcases free with below | warm
      · omega
      · rw [otherCounts] at warm
        exact Bool.noConfusion warm
    · exact within endpointId
  · exact within endpointId

end Transaction

theorem WithinLimit.release {settings : SelectionSettings} {world next : PrefillWorld}
    {lease : ℕ} {prefillConfirmed : Bool} {now : ℚ} (within : world.WithinLimit settings)
    (released : world.step (.release lease settings.toPrefillSettings prefillConfirmed now) =
      some next) : next.WithinLimit settings := by
  have positive := settings.elephantLimit_pos
  unfold step at released
  dsimp only at released
  cases found : world.leases[lease]? with
  | none =>
    rw [found] at released
    simp at released
  | some held =>
    rw [found] at released
    dsimp only at released
    split_ifs at released
    · rw [Option.some.injEq] at released
      exact released ▸ within
    · rw [Option.some.injEq] at released
      subst released
      intro endpointId
      dsimp only
      rw [PrefillLoadTracker.elephants_release]
      split_ifs
      · unfold Dict.settle
        split_ifs
        · rw [Dict.read_insert]
          split_ifs
          · have before := within held.endpointId
            omega
          · exact within endpointId
        · rw [Dict.read_erase]
          split_ifs
          · omega
          · exact within endpointId
      · exact within endpointId

def routingMachine [Zero Weight] [Add Weight] [Mul Weight] [Max Weight] [LE Weight]
    [DecidableLE Weight] (settings : SelectionSettings) :
    Machine PrefillWorld (RoutingEvent Weight) where
  step world event :=
    match event with
    | .route request => world.route settings request
    | .release lease prefillConfirmed now =>
      world.step (.release lease settings.toPrefillSettings prefillConfirmed now)
    | .forgetEndpoint endpointId => world.step (.forgetEndpoint endpointId)

/-- Prefill-aware choices and elephants, in any state of the tracker; in every run of transactions
that find room, and of releases, no endpoint holds more elephants than the limit. -/
theorem elephants_are_admitted_within_their_limit [Zero Weight] [Add Weight] [Mul Weight]
    [Max Weight] [LE Weight] [DecidableLE Weight] {settings : SelectionSettings}
    (enabled : settings.prefillAwareEnabled = true) :
    (∀ (world : PrefillWorld) (request : RouteRequest Weight), request.candidates ≠ [] →
      ∃ index candidate next lease, world.tracker.selectIndex settings request = some index ∧
        request.candidates[index]? = some candidate ∧
        world.route settings request = some next ∧ next.leases = world.leases ++ [lease] ∧
        lease.endpointId = candidate.endpointId ∧
        (request.avoid = some candidate.endpointId →
          ∀ other ∈ request.candidates, other.endpointId = candidate.endpointId) ∧
        (lease.elephant = true →
          settings.elephantLimit ≤ world.tracker.elephants.read candidate.endpointId →
          ∀ other ∈ request.candidates, request.avoid ≠ some other.endpointId →
            world.tracker.countsElephant settings request other.endpointId = true ∧
              settings.elephantLimit ≤ world.tracker.elephants.read other.endpointId) ∧
        (2 ≤ request.candidates.length → ∃ first second : Indexed Weight,
          weightedPick (world.tracker.eligible settings request) request.draws.1 = some first ∧
          weightedPick (world.tracker.eligible settings request) request.draws.2 = some second ∧
          (index = first.2 ∨ index = second.2) ∧
          (settings.interveneTokens ≤ max (world.tracker.backlog.read first.1.endpointId)
              (world.tracker.backlog.read second.1.endpointId) →
            world.tracker.backlog.read candidate.endpointId ≤
              world.tracker.backlog.read first.1.endpointId ∧
            world.tracker.backlog.read candidate.endpointId ≤
              world.tracker.backlog.read second.1.endpointId))) ∧
    ∀ (world final : PrefillWorld) (events : List (RoutingEvent Weight)),
      world.WithinLimit settings →
      (routingMachine settings).Along (HasRoom settings) world events →
      (routingMachine settings).run world events = some final → final.WithinLimit settings := by
  constructor
  · intro world request nonempty
    rcases @selected_spec Weight _ _ _ _ _ _ settings world request nonempty enabled with
      ⟨index, candidate, selected, found, avoided, saturated⟩
    refine ⟨index, candidate, _, _, selected, found, route_eq selected found, rfl, rfl, avoided,
      saturated, ?_⟩
    intro several
    rcases @PrefillLoadTracker.selectIndex_cases Weight _ _ _ _ _ _ world.tracker settings request
      nonempty enabled with ⟨only, single, -⟩ | ⟨-, first, second, chosen, firstPicked,
        secondPicked, chose, among, lighter⟩
    · rw [single, List.length_singleton] at several
      omega
    · have same : index = chosen.2 := Option.some.inj (selected.symm.trans chose)
      have chosenThere : request.candidates[chosen.2]? = some chosen.1 := by
        apply List.mem_zipIdx_iff_getElem?.mp
        apply PrefillLoadTracker.mem_zipIdx_of_mem_unavoided
        apply PrefillLoadTracker.mem_unavoided_of_mem_eligible
        rcases among with rfl | rfl
        · exact mem_of_weightedPick firstPicked
        · exact mem_of_weightedPick secondPicked
      have alike : candidate = chosen.1 := by
        rw [same, chosenThere] at found
        exact (Option.some.inj found).symm
      refine ⟨first, second, firstPicked, secondPicked, ?_, ?_⟩
      · rcases among with rfl | rfl
        · exact Or.inl same
        · exact Or.inr same
      · rw [alike]
        exact lighter
  · intro world final events within along ran
    apply Machine.run_invariant_along (HasRoom settings) _ within along ran
    intro world event next within room stepped
    cases event with
    | route request => exact within.route enabled room stepped
    | release lease prefillConfirmed now => exact within.release stepped
    | forgetEndpoint endpointId =>
      have forgotten : some _ = some next := stepped
      rw [Option.some.injEq] at forgotten
      exact forgotten ▸ within

/-- Two cold elephants over two endpoints, the second of them kept off the first one's. -/
theorem elephants_are_admitted_within_their_limit_two :
    let elephant : RoutingEvent ℚ :=
      .route ⟨[⟨"a", 1⟩, ⟨"b", 1⟩], 300000, none, none, none, none, (1 / 4, 1 / 4), 0⟩
    ∃ final, (routingMachine {}).run (fresh none) [elephant, elephant] = some final ∧
      final.leases.map PrefillLease.endpointId = ["a", "b"] ∧ final.WithinLimit {} := by
  intro elephant
  have along : (routingMachine {}).Along (HasRoom {}) (fresh none) [elephant, elephant] := by
    decide +kernel
  have ran : ((routingMachine {}).run (fresh none) [elephant, elephant]).map
      (fun final => final.leases.map PrefillLease.endpointId) = some ["a", "b"] := by
    decide +kernel
  rcases Option.map_eq_some_iff.mp ran with ⟨final, ran, leases⟩
  refine ⟨final, ran, leases, ?_⟩
  apply (elephants_are_admitted_within_their_limit rfl).2 (fresh none) final _ _ along ran
  intro endpointId
  simp [fresh, SelectionSettings.elephantLimit]

end PrefillWorld

end HybridInference.Prefill
