import HybridInference.Library.WeightedDraw
import HybridInference.Routing.RouteTable

/-!
# The report of route weights

`describe_route_weights` and `get_route_exclusions` of `FixedRouter` beside the
draw they report on. `_select_adapter` with nothing excluded and every circuit
admitting keeps the routes of positive weight. The offload route is held back as
long as another route is left, and a prompt over its limit is refused when none
is. `_weighted_draw` picks one of the others, which is the first pick of
`select_index`. A route of a model is named by its place in the list of
effective adapters.
-/

namespace HybridInference.Routing

open Library

inductive ExclusionReason where
  | weightOverride
  | providerDisabled
  | routeDisabled
  | routingYaml
  | configuredZero
  deriving DecidableEq

def weightShareEpsilon : ℚ := 1 / 10 ^ 9

def sharesDiffer (left right : ℚ) : Bool :=
  weightShareEpsilon < |left - right|

def weightShares (weights : List ℚ) : List ℚ :=
  if weights.sum ≤ 0 then weights.map fun _ => 0
  else weights.map fun weight => weight / weights.sum

structure RouteWeightFact where
  modelId : String
  endpointId : String
  provider : String
  baseUrl : String
  configuredWeight : ℚ
  effectiveWeight : ℚ
  reasons : List ExclusionReason
  deriving DecidableEq

def RouteResolvers.baseline (resolvers : RouteResolvers) (route : RouteConfig) :
    List (RouteAdapter × ℚ × String) :=
  if resolvers.weightOverrides.isNone || route.rawAdapters.isEmpty then
    route.adapters.map fun entry => (entry.1, entry.2, endpointIdForAdapter entry.1)
  else route.rawAdapters

def RouteResolvers.overrideFor (resolvers : RouteResolvers) (modelId : String)
    (route : RouteConfig) (endpointId : String) : Option ℚ :=
  if route.rawAdapters.isEmpty then none
  else resolvers.weightOverrides.bind fun snapshot => snapshot modelId endpointId

def RouteResolvers.weighEntry (resolvers : RouteResolvers) (modelId : String)
    (route : RouteConfig) (configured baselineShare : ℚ)
    (entry : RouteAdapter × ℚ × String) : ℚ × List ExclusionReason :=
  let configuredReasons :=
    if configured ≤ 0 then [ExclusionReason.configuredZero]
    else if sharesDiffer baselineShare configured then [.routingYaml]
    else []
  let overridden :=
    match resolvers.overrideFor modelId route entry.2.2 with
    | some override =>
      if override ≠ entry.2.1 then
        (override, configuredReasons ++ [ExclusionReason.weightOverride])
      else (entry.2.1, configuredReasons)
    | none => (entry.2.1, configuredReasons)
  let kept :=
    if resolvers.disabledProviders.any fun isDisabled => isDisabled entry.1.provider then
      (0, overridden.2 ++ [.providerDisabled])
    else overridden
  if resolvers.routeStates.any fun isExcluded => isExcluded modelId (routeIdForAdapter entry.1)
  then (0, kept.2 ++ [.routeDisabled])
  else kept

def registeredShare (route : RouteConfig) (adapter : RouteAdapter) : ℚ :=
  let registered :=
    if route.rawAdapters.isEmpty then route.adapters
    else route.rawAdapters.map fun entry => (entry.1, entry.2.1)
  (((registered.map Prod.fst).zip (weightShares (registered.map Prod.snd))).reverse.lookup
    adapter).getD 0

def RouteResolvers.weighed (resolvers : RouteResolvers) (modelId : String) (route : RouteConfig) :
    List (ℚ × List ExclusionReason) :=
  let baseline := resolvers.baseline route
  let baselineShare := weightShares (baseline.map fun entry => entry.2.1)
  (baseline.zip baselineShare).map fun entry =>
    resolvers.weighEntry modelId route (registeredShare route entry.1.1) entry.2 entry.1

def RouteResolvers.describeRoute (resolvers : RouteResolvers) (modelId : String)
    (route : RouteConfig) : List RouteWeightFact :=
  let weighed := resolvers.weighed modelId route
  ((resolvers.baseline route).zip ((weightShares (weighed.map Prod.fst)).zip
      (weighed.map Prod.snd))).map fun entry =>
    { modelId
      endpointId := entry.1.2.2
      provider := entry.1.1.provider
      baseUrl := entry.1.1.baseUrl
      configuredWeight := registeredShare route entry.1.1
      effectiveWeight := entry.2.1
      reasons := entry.2.2 }

def RouteResolvers.describeRouteWeights (resolvers : RouteResolvers) (routes : Routes) :
    List RouteWeightFact :=
  (publishedRoutesSnapshot routes).flatMap fun entry => resolvers.describeRoute entry.1 entry.2

def RouteResolvers.getRouteExclusions (resolvers : RouteResolvers) (routes : Routes) :
    List RouteWeightFact :=
  (resolvers.describeRouteWeights routes).filter fun fact => fact.effectiveWeight ≤ 0

def drawable (weights : List ℚ) : List (ℕ × ℚ) :=
  weights.zipIdx.filterMap fun entry => if 0 < entry.1 then some (entry.2, entry.1) else none

/-- The routes a request with such a prompt is drawn from. A route that is held back keeps its
place, without a weight, and so does the last one when the request is refused. -/
def selectable (policy : Option OffloadPolicy) (promptTokens : ℤ)
    (effective : List (RouteAdapter × ℚ)) : List (RouteAdapter × ℚ) :=
  match offloadTarget routeIdForAdapter policy effective with
  | none => effective
  | some (offload, policy) =>
    if effective.any fun entry => 0 < entry.2 && entry.1 ≠ offload then
      effective.map fun entry => if entry.1 = offload then (entry.1, 0) else entry
    else if policy.takesInput promptTokens then effective
    else effective.map fun entry => (entry.1, 0)

/-- The pool `_weighted_draw` picks from. -/
def drawPool (allowed : List (ℕ × ℚ)) : List (ℕ × ℚ) :=
  let totalAllowed := (allowed.map Prod.snd).sum
  if 1 / 10 ^ 9 < |totalAllowed - 1| then
    allowed.map fun entry => (entry.1, entry.2 / totalAllowed)
  else allowed

noncomputable def drawnRoute (effective : List (RouteAdapter × ℚ)) (draw : ℝ) : Option ℕ :=
  let pool := drawPool (drawable (effective.map Prod.snd))
  (pool.map Prod.fst)[weightedPick (pool.map fun entry => (entry.2 : ℝ)) draw]?

noncomputable def drawProbability (effective : List (RouteAdapter × ℚ)) (place : ℕ) : ENNReal :=
  MeasureTheory.volume {draw : ℝ | 0 ≤ draw ∧ draw < 1 ∧ drawnRoute effective draw = some place}

def FallsBackTo (effective : List (RouteAdapter × ℚ)) (place : ℕ) : Prop :=
  ∃ primary, ∃ entry ∈ effective[place]?, entry.1 ≠ primary ∧ 0 < entry.2

def NeverUsed (effective drawn : List (RouteAdapter × ℚ)) (place : ℕ) : Prop :=
  (∀ draw : ℝ, 0 ≤ draw → draw < 1 → drawnRoute drawn draw ≠ some place) ∧
    ¬ FallsBackTo effective place

theorem mem_drawableFrom {weights : List ℚ} {start place : ℕ} {weight : ℚ} :
    (place, weight) ∈ ((weights.zipIdx start).filterMap fun entry =>
        if 0 < entry.1 then some (entry.2, entry.1) else none) ↔
      start ≤ place ∧ weights[place - start]? = some weight ∧ 0 < weight := by
  rw [List.mem_filterMap]
  constructor
  · rintro ⟨⟨found, index⟩, member, kept⟩
    split_ifs at kept with positive
    cases kept
    rcases List.mem_zipIdx_iff_le_and_getElem?_sub.mp member with ⟨later, there⟩
    exact ⟨later, there, positive⟩
  · rintro ⟨later, there, positive⟩
    refine ⟨(weight, place), List.mem_zipIdx_iff_le_and_getElem?_sub.mpr ⟨later, there⟩, ?_⟩
    rw [if_pos positive]

theorem mem_drawable {weights : List ℚ} {place : ℕ} {weight : ℚ} :
    (place, weight) ∈ drawable weights ↔ weights[place]? = some weight ∧ 0 < weight := by
  unfold drawable
  rw [mem_drawableFrom]
  simp

theorem drawable_weights (weights : List ℚ) :
    (drawable weights).map Prod.snd = weights.filter (0 < ·) := by
  have general (start : ℕ) : ((weights.zipIdx start).filterMap fun entry =>
      if 0 < entry.1 then some (entry.2, entry.1) else none).map Prod.snd =
      weights.filter (0 < ·) := by
    induction weights generalizing start with
    | nil => rfl
    | cons weight rest ih =>
      rw [List.zipIdx_cons, List.filterMap_cons, List.filter_cons]
      by_cases positive : 0 < weight <;> simp [positive, ih]
  exact general 0

theorem drawable_places_nodup (weights : List ℚ) : ((drawable weights).map Prod.fst).Nodup := by
  have general (start : ℕ) : (((weights.zipIdx start).filterMap fun entry =>
      if 0 < entry.1 then some (entry.2, entry.1) else none).map Prod.fst).Nodup := by
    induction weights generalizing start with
    | nil => exact List.nodup_nil
    | cons weight rest ih =>
      rw [List.zipIdx_cons, List.filterMap_cons]
      by_cases positive : 0 < weight
      · simp only [positive, if_true, List.map_cons, List.nodup_cons]
        refine ⟨?_, ih _⟩
        intro again
        rcases List.mem_map.mp again with ⟨⟨place, found⟩, member, same⟩
        have later := (mem_drawableFrom.mp member).1
        omega
      · simpa [positive] using ih (start + 1)
  exact general 0

theorem drawPool_places (allowed : List (ℕ × ℚ)) :
    (drawPool allowed).map Prod.fst = allowed.map Prod.fst := by
  unfold drawPool
  dsimp only
  split_ifs
  · rw [List.map_map]
    rfl
  · rfl

theorem drawPool_share {allowed : List (ℕ × ℚ)} (positive : ∀ entry ∈ allowed, 0 < entry.2)
    {index : ℕ} {place : ℕ} {weight : ℚ} (found : allowed[index]? = some (place, weight)) :
    (∀ entry ∈ drawPool allowed, 0 < entry.2) ∧ ∃ pooled,
      (drawPool allowed)[index]? = some (place, pooled) ∧
      pooled / ((drawPool allowed).map Prod.snd).sum = weight / (allowed.map Prod.snd).sum := by
  have total : 0 < (allowed.map Prod.snd).sum := by
    apply List.sum_pos
    · intro other member
      rcases List.mem_map.mp member with ⟨entry, there, rfl⟩
      exact positive entry there
    · intro empty
      simp [List.map_eq_nil_iff.mp empty] at found
  unfold drawPool
  dsimp only
  split_ifs
  · constructor
    · intro entry member
      rcases List.mem_map.mp member with ⟨earlier, there, rfl⟩
      exact div_pos (positive earlier there) total
    · refine ⟨weight / (allowed.map Prod.snd).sum, by simp [found], ?_⟩
      have normalised : ((allowed.map fun entry =>
          (entry.1, entry.2 / (allowed.map Prod.snd).sum)).map Prod.snd).sum = 1 := by
        rw [List.map_map]
        have scaled : (Prod.snd ∘ fun entry : ℕ × ℚ =>
            (entry.1, entry.2 / (allowed.map Prod.snd).sum)) =
            fun entry => entry.2 * (allowed.map Prod.snd).sum⁻¹ := by
          funext entry
          exact div_eq_mul_inv _ _
        rw [scaled, List.sum_map_mul_right]
        exact mul_inv_cancel₀ total.ne'
      rw [normalised, div_one]
  · exact ⟨positive, weight, found, rfl⟩

section Probability

variable {effective : List (RouteAdapter × ℚ)} {place : ℕ} {weight : ℚ}

def drawnWeight (weights : List ℚ) : ℚ :=
  (weights.filter (0 < ·)).sum

theorem drawnWeight_pos {weights : List ℚ} (found : weights[place]? = some weight)
    (positive : 0 < weight) : 0 < drawnWeight weights := by
  apply List.sum_pos
  · intro other member
    simpa using (List.mem_filter.mp member).2
  · apply List.ne_nil_of_mem
    exact List.mem_filter.mpr ⟨List.mem_of_getElem? found, by simpa using positive⟩

section

variable (found : (effective.map Prod.snd)[place]? = some weight)

include found

theorem drawnRoute_ne_of_nonpos
    (nonpositive : weight ≤ 0) (draw : ℝ) : drawnRoute effective draw ≠ some place := by
  intro drawn
  unfold drawnRoute at drawn
  dsimp only at drawn
  rw [drawPool_places] at drawn
  rcases List.mem_map.mp (List.mem_of_getElem? drawn) with ⟨⟨index, kept⟩, member, rfl⟩
  rcases mem_drawable.mp member with ⟨there, positive⟩
  rw [found, Option.some.injEq] at there
  linarith

theorem drawProbability_of_pos (positive : 0 < weight) : drawProbability effective place =
      ENNReal.ofReal ((weight / drawnWeight (effective.map Prod.snd) : ℚ) : ℝ) := by
  have member : (place, weight) ∈ drawable (effective.map Prod.snd) :=
    mem_drawable.mpr ⟨found, positive⟩
  rcases List.mem_iff_getElem?.mp member with ⟨index, indexed⟩
  have allowed : ∀ entry ∈ drawable (effective.map Prod.snd), 0 < entry.2 := by
    intro entry there
    exact (mem_drawable.mp there).2
  rcases drawPool_share allowed indexed with ⟨pooledPositive, pooled, there, share⟩
  have within : index < (drawPool (drawable (effective.map Prod.snd))).length :=
    (List.getElem?_eq_some_iff.mp there).1
  have picks (draw : ℝ) : drawnRoute effective draw = some place ↔
      weightedPick ((drawPool (drawable (effective.map Prod.snd))).map
        fun entry => (entry.2 : ℝ)) draw = index := by
    have nodup : ((drawPool (drawable (effective.map Prod.snd))).map Prod.fst).Nodup := by
      rw [drawPool_places]
      exact drawable_places_nodup _
    have named : ((drawPool (drawable (effective.map Prod.snd))).map Prod.fst)[index]? =
        some place := by
      simp [there]
    unfold drawnRoute
    dsimp only
    constructor
    · intro drawn
      have inside := (List.getElem?_eq_some_iff.mp drawn).1
      exact (List.getElem?_inj inside nodup).mp (drawn.trans named.symm)
    · intro picked
      rw [picked]
      exact named
  have weights : ∀ value ∈ (drawPool (drawable (effective.map Prod.snd))).map
      (fun entry => (entry.2 : ℝ)), 0 < value := by
    intro value there
    rcases List.mem_map.mp there with ⟨entry, entryMember, rfl⟩
    exact Rat.cast_pos.mpr (pooledPositive entry entryMember)
  have total : ((drawPool (drawable (effective.map Prod.snd))).map fun entry => (entry.2 : ℝ)).sum =
      (((drawPool (drawable (effective.map Prod.snd))).map Prod.snd).sum : ℚ) := by
    rw [Rat.cast_list_sum, List.map_map]
    rfl
  have inside : index < ((drawPool (drawable (effective.map Prod.snd))).map
      fun entry => (entry.2 : ℝ)).length := by
    simpa using within
  have chances := chance_eq_share weights inside
  unfold chance at chances
  unfold drawProbability
  simp only [picks]
  rw [chances, total]
  congr 1
  rw [drawnWeight, ← drawable_weights, ← share, Rat.cast_div, List.getElem_map,
    (List.getElem?_eq_some_iff.mp there).2]

theorem drawProbability_of_nonpos
    (nonpositive : weight ≤ 0) : drawProbability effective place = 0 := by
  have never : {draw : ℝ | 0 ≤ draw ∧ draw < 1 ∧ drawnRoute effective draw = some place} = ∅ := by
    apply Set.eq_empty_of_forall_notMem
    rintro draw ⟨-, -, drawn⟩
    exact drawnRoute_ne_of_nonpos found nonpositive draw drawn
  unfold drawProbability
  rw [never]
  exact MeasureTheory.measure_empty

/-- A route of positive weight is at least a fallback, whatever is drawn. -/
theorem not_neverUsed_of_pos {drawn : List (RouteAdapter × ℚ)} (positive : 0 < weight) :
    ¬NeverUsed effective drawn place := by
  rw [List.getElem?_map] at found
  rcases Option.map_eq_some_iff.mp found with ⟨entry, there, rfl⟩
  rintro ⟨-, unused⟩
  apply unused
  exact ⟨{ entry.1 with identity := entry.1.identity + 1 }, entry, there,
    fun same => by simpa using congrArg RouteAdapter.identity same, positive⟩

theorem neverUsed_iff : NeverUsed effective effective place ↔ weight ≤ 0 := by
  constructor
  · intro never
    by_contra positive
    exact not_neverUsed_of_pos found (not_le.mp positive) never
  · intro nonpositive
    refine ⟨fun draw _ _ => drawnRoute_ne_of_nonpos found nonpositive draw, ?_⟩
    rintro ⟨primary, other, member, -, positive⟩
    rw [List.getElem?_map, member, Option.map_some, Option.some.injEq] at found
    linarith

end

end Probability

section HeldBack

variable {policy : Option OffloadPolicy} {promptTokens : ℤ} {effective : List (RouteAdapter × ℚ)}

theorem offloadTarget_cases (policy : Option OffloadPolicy) (effective : List (RouteAdapter × ℚ)) :
    (offloadTarget routeIdForAdapter policy effective = none ∧
      ∀ named ∈ policy, ∀ entry ∈ effective, 0 < entry.2 →
        routeIdForAdapter entry.1 ≠ named.routeId) ∨
    ∃ named entry, policy = some named ∧ entry ∈ effective ∧ 0 < entry.2 ∧
      routeIdForAdapter entry.1 = named.routeId ∧
      offloadTarget routeIdForAdapter policy effective = some (entry.1, named) := by
  cases policy with
  | none => exact Or.inl ⟨rfl, by simp⟩
  | some named =>
    unfold offloadTarget
    cases found : effective.find? fun entry =>
        0 < entry.2 && routeIdForAdapter entry.1 = named.routeId with
    | none =>
      refine Or.inl ⟨by simp [found], ?_⟩
      rintro _ ⟨⟩ entry member positive same
      have differs := List.find?_eq_none.mp found entry member
      simp [positive, same] at differs
    | some entry =>
      have holds := List.find?_some found
      simp only [Bool.and_eq_true, decide_eq_true_eq] at holds
      exact Or.inr ⟨named, entry, rfl, List.mem_of_find?_eq_some found, holds.1, holds.2,
        by simp [found]⟩

/-- Selection takes the effective weights as they are, or there is a route of positive weight
that it leaves out. -/
theorem selectable_cases (policy : Option OffloadPolicy) (promptTokens : ℤ)
    (effective : List (RouteAdapter × ℚ)) :
    selectable policy promptTokens effective = effective ∨
      ∃ (place : ℕ) (weight : ℚ), (effective.map Prod.snd)[place]? = some weight ∧ 0 < weight ∧
        ((selectable policy promptTokens effective).map Prod.snd)[place]? = some 0 := by
  rcases offloadTarget_cases policy effective with
    ⟨untargeted, -⟩ | ⟨named, entry, -, member, positive, -, target⟩
  · left
    simp [selectable, untargeted]
  · rcases List.mem_iff_getElem?.mp member with ⟨place, there⟩
    unfold selectable
    simp only [target]
    split_ifs
    · exact Or.inr ⟨place, entry.2, by simp [there], positive, by simp [there]⟩
    · exact Or.inl rfl
    · exact Or.inr ⟨place, entry.2, by simp [there], positive, by simp [there]⟩

theorem selectable_eq_iff : selectable policy promptTokens effective = effective ↔
      ∀ named ∈ policy, ∀ entry ∈ effective, 0 < entry.2 →
        routeIdForAdapter entry.1 = named.routeId →
        named.takesInput promptTokens = true ∧
          ∀ other ∈ effective, 0 < other.2 → other.1 = entry.1 := by
  have kept {change : RouteAdapter × ℚ → RouteAdapter × ℚ} {entry : RouteAdapter × ℚ}
      (same : effective.map change = effective) (member : entry ∈ effective)
      (positive : 0 < entry.2) (dropped : (change entry).2 = 0) : False := by
    rcases List.mem_iff_getElem?.mp member with ⟨place, there⟩
    have changed := congrArg (fun entries => entries[place]?) same
    simp only [List.getElem?_map, there, Option.map_some, Option.some.injEq] at changed
    rw [changed] at dropped
    exact positive.ne' dropped
  rcases offloadTarget_cases policy effective with
    ⟨untargeted, none_named⟩ | ⟨named, found, rfl, member, positive, isNamed, target⟩
  · refine iff_of_true (by simp [selectable, untargeted]) ?_
    intro named isPolicy entry inside weighs same
    exact absurd same (none_named named isPolicy entry inside weighs)
  · unfold selectable
    simp only [target]
    constructor
    · rintro same _ ⟨⟩ entry inside weighs -
      split_ifs at same with another takes
      · exact (kept same member positive (by simp)).elim
      · have alike (other : RouteAdapter × ℚ) (there : other ∈ effective) (counts : 0 < other.2) :
            other.1 = found.1 := by
          by_contra differs
          exact another (List.any_eq_true.mpr ⟨other, there, by simp [counts, differs]⟩)
        refine ⟨takes, fun other there counts => ?_⟩
        rw [alike other there counts, alike entry inside weighs]
      · exact (kept same member positive rfl).elim
    · intro free
      rcases free named rfl found member positive isNamed with ⟨takes, alike⟩
      rw [if_neg, if_pos takes]
      intro another
      rcases List.any_eq_true.mp another with ⟨other, there, differs⟩
      simp only [Bool.and_eq_true, decide_eq_true_eq] at differs
      exact differs.2 (alike other there differs.1)

end HeldBack

section Report

variable (resolvers : RouteResolvers) (modelId : String) (route : RouteConfig)

def RouteResolvers.weightInForce (entry : RouteAdapter × ℚ × String) : ℚ :=
  (resolvers.overrideFor modelId route entry.2.2).getD entry.2.1

def RouteResolvers.effectiveWeights : List ℚ :=
  (resolvers.baseline route).map fun entry =>
    if resolvers.disables modelId entry.1 then 0 else resolvers.weightInForce modelId route entry

theorem weighEntry_weight (configured baselineShare : ℚ) (entry : RouteAdapter × ℚ × String) :
    (resolvers.weighEntry modelId route configured baselineShare entry).1 =
      if resolvers.disables modelId entry.1 then 0
      else resolvers.weightInForce modelId route entry := by
  have overridden (reasons : List ExclusionReason) :
      (match resolvers.overrideFor modelId route entry.2.2 with
        | some override =>
          if override ≠ entry.2.1 then (override, reasons ++ [ExclusionReason.weightOverride])
          else (entry.2.1, reasons)
        | none => (entry.2.1, reasons)).1 = resolvers.weightInForce modelId route entry := by
    unfold RouteResolvers.weightInForce
    cases resolvers.overrideFor modelId route entry.2.2 with
    | none => rfl
    | some override =>
      dsimp only
      split_ifs with same
      · rfl
      · exact (not_not.mp same).symm
  unfold RouteResolvers.weighEntry RouteResolvers.disables
  cases resolvers.routeStates.any
    fun isExcluded => isExcluded modelId (routeIdForAdapter entry.1) with
  | true => simp
  | false =>
    cases resolvers.disabledProviders.any fun isDisabled => isDisabled entry.1.provider with
    | true => simp
    | false => simpa using overridden _

theorem weighed_weights :
    (resolvers.weighed modelId route).map Prod.fst = resolvers.effectiveWeights modelId route := by
  unfold RouteResolvers.weighed RouteResolvers.effectiveWeights
  rw [List.map_map]
  have shares : (resolvers.baseline route).length ≤
      (weightShares ((resolvers.baseline route).map fun entry => entry.2.1)).length := by
    unfold weightShares
    split_ifs <;> simp
  conv_rhs => rw [← List.map_fst_zip shares]
  rw [List.map_map]
  apply List.map_congr_left
  intro entry _
  exact weighEntry_weight resolvers modelId route _ _ _

theorem getEffectiveAdapters_eq (canonical : textOr route.canonicalModelId modelId = modelId) :
    resolvers.getEffectiveAdapters modelId route = (resolvers.baseline route).map fun entry =>
        (entry.1, if resolvers.disables modelId entry.1 then 0
          else resolvers.weightInForce modelId route entry) := by
  unfold RouteResolvers.getEffectiveAdapters RouteResolvers.baseline RouteResolvers.weightInForce
    RouteResolvers.overrideFor RouteResolvers.applyDisabledProviders
  dsimp only
  rw [canonical]
  cases resolvers.weightOverrides with
  | none =>
    simp only [Option.isNone_none, Bool.true_or, if_true, List.map_map, Option.bind_none,
      ite_self, Option.getD_none]
    apply List.map_congr_left
    intro entry _
    simp only [Function.comp_apply]
    split_ifs <;> rfl
  | some snapshot =>
    by_cases empty : route.rawAdapters.isEmpty = true
    · simp only [empty, Option.isNone_some, Bool.or_true, if_true, List.map_map, Option.getD_none]
      apply List.map_congr_left
      intro entry _
      simp only [Function.comp_apply]
      split_ifs <;> rfl
    · simp only [empty, Option.isNone_some, Bool.or_self, Bool.false_eq_true, if_false,
        List.map_map, Option.bind_some]
      apply List.map_congr_left
      intro entry _
      simp only [Function.comp_apply]
      split_ifs <;> rfl

theorem getEffectiveAdapters_weights (canonical : textOr route.canonicalModelId modelId = modelId) :
    (resolvers.getEffectiveAdapters modelId route).map Prod.snd =
      resolvers.effectiveWeights modelId route := by
  rw [getEffectiveAdapters_eq resolvers modelId route canonical, List.map_map]
  rfl

theorem weightShares_length (weights : List ℚ) :
    (weightShares weights).length = weights.length := by
  unfold weightShares
  split_ifs <;> simp

theorem describeRoute_weights :
    (resolvers.describeRoute modelId route).map RouteWeightFact.effectiveWeight =
      weightShares (resolvers.effectiveWeights modelId route) := by
  have length : (resolvers.weighed modelId route).length = (resolvers.baseline route).length := by
    simpa [RouteResolvers.effectiveWeights] using
      congrArg List.length (weighed_weights resolvers modelId route)
  unfold RouteResolvers.describeRoute
  dsimp only
  rw [weighed_weights, List.map_map]
  have weights : (resolvers.effectiveWeights modelId route).length =
      (resolvers.baseline route).length := by
    simp [RouteResolvers.effectiveWeights]
  have pairs : (weightShares (resolvers.effectiveWeights modelId route)).length ≤
      ((resolvers.weighed modelId route).map Prod.snd).length := by
    rw [weightShares_length, List.length_map]
    omega
  have rows : ((weightShares (resolvers.effectiveWeights modelId route)).zip
      ((resolvers.weighed modelId route).map Prod.snd)).length ≤
      (resolvers.baseline route).length := by
    rw [List.length_zip, weightShares_length, List.length_map]
    omega
  conv_rhs => rw [← List.map_fst_zip pairs, ← List.map_snd_zip rows]
  rw [List.map_map]
  rfl

theorem describeRoute_modelId {fact : RouteWeightFact}
    (member : fact ∈ resolvers.describeRoute modelId route) : fact.modelId = modelId := by
  rcases List.mem_map.mp member with ⟨entry, -, rfl⟩
  rfl

theorem publishedRoutesFrom_keys {seen : List String} {routes : Routes} :
    ((publishedRoutesFrom seen routes).map Prod.fst).Nodup ∧
      ∀ entry ∈ publishedRoutesFrom seen routes, entry.1 ∉ seen ∧
        textOr entry.2.canonicalModelId entry.1 = entry.1 := by
  induction routes generalizing seen with
  | nil => simp [publishedRoutesFrom]
  | cons first rest ih =>
    rcases first with ⟨routeKey, config⟩
    rw [publishedRoutesFrom]
    split_ifs with skipped
    · exact ih
    · have unseen : textOr config.canonicalModelId routeKey ∉ seen := by
        simpa using fun known => skipped (by simp [known])
      refine ⟨?_, ?_⟩
      · rw [List.map_cons, List.nodup_cons]
        refine ⟨?_, ih.1⟩
        intro again
        rcases List.mem_map.mp again with ⟨entry, member, same⟩
        have fresh := (ih.2 entry member).1
        rw [same] at fresh
        exact fresh (by simp)
      · intro entry member
        rcases List.mem_cons.mp member with rfl | later
        · refine ⟨unseen, ?_⟩
          dsimp only [textOr]
          cases (config.canonicalModelId.filter (· ≠ "")) <;> rfl
        · rcases ih.2 entry later with ⟨fresh, canonical⟩
          exact ⟨fun known => fresh (List.mem_cons_of_mem _ known), canonical⟩

variable {entries : List (String × RouteConfig)}

theorem filter_describe_other (absent : modelId ∉ entries.map Prod.fst) :
    (entries.flatMap fun entry => resolvers.describeRoute entry.1 entry.2).filter
      (fun fact => fact.modelId = modelId) = [] := by
  apply List.filter_eq_nil_iff.mpr
  intro fact member
  rcases List.mem_flatMap.mp member with ⟨entry, there, described⟩
  rw [describeRoute_modelId resolvers entry.1 entry.2 described]
  simp only [decide_eq_true_eq]
  intro same
  exact absent (List.mem_map.mpr ⟨entry, there, same⟩)

theorem filter_describe
    (nodup : (entries.map Prod.fst).Nodup) (member : (modelId, route) ∈ entries) :
    (entries.flatMap fun entry => resolvers.describeRoute entry.1 entry.2).filter
      (fun fact => fact.modelId = modelId) = resolvers.describeRoute modelId route := by
  induction entries with
  | nil => simp at member
  | cons first rest ih =>
    rw [List.map_cons, List.nodup_cons] at nodup
    rw [List.flatMap_cons, List.filter_append]
    rcases List.mem_cons.mp member with rfl | later
    · rw [filter_describe_other resolvers modelId nodup.1, List.append_nil]
      apply List.filter_eq_self.mpr
      intro fact described
      simpa using describeRoute_modelId resolvers modelId route described
    · have other : first.1 ≠ modelId := by
        rintro rfl
        exact nodup.1 (List.mem_map.mpr ⟨_, later, rfl⟩)
      have none : (resolvers.describeRoute first.1 first.2).filter
          (fun fact => fact.modelId = modelId) = [] := by
        apply List.filter_eq_nil_iff.mpr
        intro fact described
        simpa [describeRoute_modelId resolvers first.1 first.2 described] using other
      rw [none, List.nil_append]
      exact ih nodup.2 later

end Report

def RouteResolvers.offloadPolicy (resolvers : RouteResolvers) (modelId : String) :
    Option OffloadPolicy :=
  resolvers.offloadPolicies.bind fun policyOf => policyOf modelId

def RouteResolvers.drawnFrom (resolvers : RouteResolvers) (modelId : String)
    (route : RouteConfig) (promptTokens : ℤ) : List (RouteAdapter × ℚ) :=
  selectable (resolvers.offloadPolicy modelId) promptTokens
    (resolvers.getEffectiveAdapters modelId route)

/-- The report of a model says, route by route, with which probability a request with such a
prompt is drawn to it, and lists those that serve no request. -/
def RouteResolvers.Mirrors (resolvers : RouteResolvers) (routes : Routes) (modelId : String)
    (route : RouteConfig) (promptTokens : ℤ) : Prop :=
  ((resolvers.describeRouteWeights routes).filter fun fact => fact.modelId = modelId).length =
      (resolvers.getEffectiveAdapters modelId route).length ∧
    ∀ (place : ℕ) fact, ((resolvers.describeRouteWeights routes).filter
        fun fact => fact.modelId = modelId)[place]? = some fact →
      (fact.effectiveWeight : ℝ) =
          (drawProbability (resolvers.drawnFrom modelId route promptTokens) place).toReal ∧
        (fact ∈ resolvers.getRouteExclusions routes ↔
          NeverUsed (resolvers.getEffectiveAdapters modelId route)
            (resolvers.drawnFrom modelId route promptTokens) place)

def RouteResolvers.OneSigned (resolvers : RouteResolvers) (modelId : String)
    (route : RouteConfig) : Prop :=
  (∀ entry ∈ resolvers.baseline route, resolvers.disables modelId entry.1 = false →
      0 ≤ resolvers.weightInForce modelId route entry) ∨
    ∀ entry ∈ resolvers.baseline route, resolvers.disables modelId entry.1 = false →
      resolvers.weightInForce modelId route entry ≤ 0

/-- A route that is not turned off and whose weight in force is positive. -/
def RouteResolvers.Takes (resolvers : RouteResolvers) (modelId : String) (route : RouteConfig)
    (entry : RouteAdapter × ℚ × String) : Prop :=
  entry ∈ resolvers.baseline route ∧ resolvers.disables modelId entry.1 = false ∧
    0 < resolvers.weightInForce modelId route entry

/-- The offload route of the model, if it takes requests, is the only route that does, and the
prompt is within its limit. -/
def RouteResolvers.HoldsNoneBack (resolvers : RouteResolvers) (modelId : String)
    (route : RouteConfig) (promptTokens : ℤ) : Prop :=
  ∀ policy ∈ resolvers.offloadPolicy modelId, ∀ entry, resolvers.Takes modelId route entry →
    routeIdForAdapter entry.1 = policy.routeId →
    policy.takesInput promptTokens = true ∧
      ∀ other, resolvers.Takes modelId route other → other.1 = entry.1

section Shares

variable {weights : List ℚ} {place : ℕ} {weight : ℚ}

theorem oneSigned_iff (resolvers : RouteResolvers) (modelId : String) (route : RouteConfig) :
    resolvers.OneSigned modelId route ↔
      (∀ weight ∈ resolvers.effectiveWeights modelId route, 0 ≤ weight) ∨
        ∀ weight ∈ resolvers.effectiveWeights modelId route, weight ≤ 0 := by
  unfold RouteResolvers.OneSigned RouteResolvers.effectiveWeights
  simp only [List.forall_mem_map]
  apply or_congr
  all_goals
    apply forall₂_congr
    intro entry _
    cases resolvers.disables modelId entry.1 <;> simp

theorem weightShares_getElem? : (weightShares weights)[place]? =
      weights[place]?.map fun weight => if weights.sum ≤ 0 then 0 else weight / weights.sum := by
  unfold weightShares
  split_ifs <;> rw [List.getElem?_map]

theorem sum_nonpos (nonpositive : ∀ weight ∈ weights, weight ≤ 0) : weights.sum ≤ 0 := by
  induction weights with
  | nil => exact le_rfl
  | cons first rest ih =>
    rw [List.sum_cons]
    have tail := ih fun weight member => nonpositive weight (List.mem_cons_of_mem _ member)
    linarith [nonpositive first (by simp)]

theorem drawnWeight_of_nonneg (nonnegative : ∀ weight ∈ weights, 0 ≤ weight) :
    drawnWeight weights = weights.sum := by
  unfold drawnWeight
  induction weights with
  | nil => rfl
  | cons first rest ih =>
    have tail := ih fun weight member => nonnegative weight (List.mem_cons_of_mem _ member)
    rw [List.filter_cons, List.sum_cons]
    by_cases positive : 0 < first
    · rw [if_pos (by simpa using positive), List.sum_cons, tail]
    · have zero : first = 0 := le_antisymm (not_lt.mp positive) (nonnegative first (by simp))
      rw [if_neg (by simpa using positive), tail, zero, zero_add]

end Shares

def SharesAreChances (weights : List ℚ) : Prop :=
  ∀ (place : ℕ) weight, weights[place]? = some weight →
    (if weights.sum ≤ 0 then 0 else weight / weights.sum) =
      if 0 < weight then weight / drawnWeight weights else 0

theorem sharesAreChances_iff (weights : List ℚ) : SharesAreChances weights ↔
      (∀ weight ∈ weights, 0 ≤ weight) ∨ ∀ weight ∈ weights, weight ≤ 0 := by
  constructor
  · intro agree
    by_contra mixed
    rw [not_or] at mixed
    rcases mixed with ⟨negative, positive⟩
    push Not at negative positive
    rcases negative with ⟨low, lowMember, lowNegative⟩
    rcases positive with ⟨high, highMember, highPositive⟩
    rcases List.mem_iff_getElem?.mp lowMember with ⟨lowPlace, lowFound⟩
    rcases List.mem_iff_getElem?.mp highMember with ⟨highPlace, highFound⟩
    by_cases empty : weights.sum ≤ 0
    · have share := agree highPlace high highFound
      rw [if_pos empty, if_pos highPositive] at share
      exact absurd share (div_pos highPositive (drawnWeight_pos highFound highPositive)).ne
    · have share := agree lowPlace low lowFound
      rw [if_neg empty, if_neg (not_lt.mpr lowNegative.le)] at share
      exact absurd share (div_neg_of_neg_of_pos lowNegative (not_le.mp empty)).ne
  · rintro (nonnegative | nonpositive) place weight found
    · have member := List.mem_of_getElem? found
      rw [drawnWeight_of_nonneg nonnegative]
      by_cases positive : 0 < weight
      · have total : 0 < weights.sum := by
          rw [← drawnWeight_of_nonneg nonnegative]
          exact drawnWeight_pos found positive
        rw [if_neg (not_le.mpr total), if_pos positive]
      · have zero : weight = 0 := le_antisymm (not_lt.mp positive) (nonnegative weight member)
        rw [zero]
        simp
    · rw [if_pos (sum_nonpos nonpositive),
        if_neg (not_lt.mpr (nonpositive weight (List.mem_of_getElem? found)))]

section Mirror

variable {resolvers : RouteResolvers} {routes : Routes} {modelId : String} {route : RouteConfig}
  {promptTokens : ℤ}

theorem drawnFrom_eq_iff (canonical : textOr route.canonicalModelId modelId = modelId) :
    resolvers.drawnFrom modelId route promptTokens = resolvers.getEffectiveAdapters modelId route ↔
      resolvers.HoldsNoneBack modelId route promptTokens := by
  have takes (entry : RouteAdapter × ℚ × String) : entry ∈ resolvers.baseline route →
      (0 < (if resolvers.disables modelId entry.1 then 0
          else resolvers.weightInForce modelId route entry) ↔
        resolvers.Takes modelId route entry) := by
    intro member
    cases off : resolvers.disables modelId entry.1 <;> simp [RouteResolvers.Takes, member, off]
  have listed {entry : RouteAdapter × ℚ × String} (holds : resolvers.Takes modelId route entry) :=
    (takes entry holds.1).mpr holds
  unfold RouteResolvers.drawnFrom RouteResolvers.HoldsNoneBack
  rw [selectable_eq_iff, getEffectiveAdapters_eq resolvers modelId route canonical]
  simp only [List.forall_mem_map]
  apply forall₂_congr
  intro policy _
  constructor
  · intro free entry holds named
    rcases free entry holds.1 (listed holds) named with ⟨fits, alike⟩
    exact ⟨fits, fun other another => alike other another.1 (listed another)⟩
  · intro free entry member positive named
    rcases free entry ((takes entry member).mp positive) named with ⟨fits, alike⟩
    exact ⟨fits, fun other inside weighs => alike other ((takes other inside).mp weighs)⟩

theorem drawProbability_toReal {effective : List (RouteAdapter × ℚ)} {place : ℕ} {weight : ℚ}
    (found : (effective.map Prod.snd)[place]? = some weight) :
    (drawProbability effective place).toReal =
      ((if 0 < weight then weight / drawnWeight (effective.map Prod.snd) else 0 : ℚ) : ℝ) := by
  by_cases positive : 0 < weight
  · rw [drawProbability_of_pos found positive, if_pos positive, ENNReal.toReal_ofReal]
    exact Rat.cast_nonneg.mpr (div_pos positive (drawnWeight_pos found positive)).le
  · rw [drawProbability_of_nonpos found (not_lt.mp positive), if_neg positive]
    simp

/-- The report of a published model mirrors its selection exactly when no weight in force is
negative beside a positive one and no route is held back for offloads. -/
theorem weight_report_mirrors_selection_iff
    (member : (modelId, route) ∈ publishedRoutesSnapshot routes) :
    resolvers.Mirrors routes modelId route promptTokens ↔ resolvers.OneSigned modelId route ∧
        resolvers.HoldsNoneBack modelId route promptTokens := by
  have keys : ((publishedRoutesSnapshot routes).map Prod.fst).Nodup :=
    publishedRoutesFrom_keys.1
  have canonical : textOr route.canonicalModelId modelId = modelId :=
    (publishedRoutesFrom_keys.2 _ member).2
  have facts : (resolvers.describeRouteWeights routes).filter
      (fun fact => fact.modelId = modelId) = resolvers.describeRoute modelId route :=
    filter_describe resolvers modelId route keys member
  have weights := getEffectiveAdapters_weights resolvers modelId route canonical
  have reported := describeRoute_weights resolvers modelId route
  have length : (resolvers.describeRoute modelId route).length =
      (resolvers.getEffectiveAdapters modelId route).length := by
    have left := congrArg List.length reported
    have right := congrArg List.length weights
    rw [List.length_map] at left right
    rw [left, right, weightShares_length]
  have share {place : ℕ} {fact : RouteWeightFact}
      (there : (resolvers.describeRoute modelId route)[place]? = some fact) :
      ∃ weight, (resolvers.effectiveWeights modelId route)[place]? = some weight ∧
        fact.effectiveWeight = if (resolvers.effectiveWeights modelId route).sum ≤ 0 then 0
          else weight / (resolvers.effectiveWeights modelId route).sum := by
    have named : (weightShares (resolvers.effectiveWeights modelId route))[place]? =
        some fact.effectiveWeight := by
      rw [← reported, List.getElem?_map, there]
      rfl
    rw [weightShares_getElem?] at named
    rcases Option.map_eq_some_iff.mp named with ⟨weight, found, same⟩
    exact ⟨weight, found, same.symm⟩
  have listed {place : ℕ} {fact : RouteWeightFact}
      (there : (resolvers.describeRoute modelId route)[place]? = some fact) :
      fact ∈ resolvers.getRouteExclusions routes ↔ fact.effectiveWeight ≤ 0 := by
    have inReport : fact ∈ (resolvers.describeRouteWeights routes).filter
        (fun fact => fact.modelId = modelId) := by
      rw [facts]
      exact List.mem_of_getElem? there
    simp [RouteResolvers.getRouteExclusions, List.mem_of_mem_filter inReport]
  have reportedAt {place : ℕ} {weight : ℚ}
      (found : (resolvers.effectiveWeights modelId route)[place]? = some weight) :
      ∃ fact, (resolvers.describeRoute modelId route)[place]? = some fact := by
    have within := (List.getElem?_eq_some_iff.mp found).1
    rw [← weights, List.length_map] at within
    exact ⟨_, List.getElem?_eq_getElem (by omega)⟩
  rw [oneSigned_iff, ← sharesAreChances_iff, ← drawnFrom_eq_iff canonical]
  unfold RouteResolvers.Mirrors SharesAreChances
  rw [facts]
  constructor
  · rintro ⟨-, mirrored⟩
    have unreserved : resolvers.drawnFrom modelId route promptTokens =
        resolvers.getEffectiveAdapters modelId route := by
      rcases selectable_cases (resolvers.offloadPolicy modelId) promptTokens
        (resolvers.getEffectiveAdapters modelId route) with
        same | ⟨place, weight, found, positive, left⟩
      · exact same
      · -- A route that is left out has probability zero, so it would be listed.
        rcases reportedAt (weights ▸ found) with ⟨fact, there⟩
        rcases mirrored place fact there with ⟨chance, excluded⟩
        have undrawn : drawProbability (resolvers.drawnFrom modelId route promptTokens) place = 0 :=
          drawProbability_of_nonpos left le_rfl
        rw [undrawn, ENNReal.toReal_zero, Rat.cast_eq_zero] at chance
        have never := excluded.mp ((listed there).mpr chance.le)
        exact absurd never (not_neverUsed_of_pos found positive)
    refine ⟨?_, unreserved⟩
    intro place weight found
    rcases reportedAt found with ⟨fact, there⟩
    rcases share there with ⟨same, foundSame, reportedShare⟩
    rw [found, Option.some.injEq] at foundSame
    subst foundSame
    have mirror := (mirrored place _ there).1
    rw [unreserved, reportedShare, drawProbability_toReal (by rw [weights]; exact found),
      weights] at mirror
    exact Rat.cast_injective mirror
  · rintro ⟨agree, unreserved⟩
    refine ⟨length, ?_⟩
    intro place fact there
    rcases share there with ⟨weight, found, reportedShare⟩
    have agreed := agree place weight found
    have effective : ((resolvers.getEffectiveAdapters modelId route).map Prod.snd)[place]? =
        some weight := by
      rw [weights]
      exact found
    rw [agreed] at reportedShare
    rw [unreserved]
    refine ⟨?_, ?_⟩
    · rw [reportedShare, drawProbability_toReal effective, weights]
    · rw [neverUsed_iff effective, listed there, reportedShare]
      by_cases positive : 0 < weight
      · rw [if_pos positive]
        have chance := div_pos positive (drawnWeight_pos found positive)
        exact iff_of_false (not_le.mpr chance) (not_le.mpr positive)
      · rw [if_neg positive]
        exact iff_of_true le_rfl (not_lt.mp positive)

def twoRoutes : RouteConfig where
  adapters := [(⟨0, "a", "", some "m:a", none⟩, 1 / 2), (⟨1, "b", "", some "m:b", none⟩, 1 / 2)]
  rawAdapters := [(⟨0, "a", "", some "m:a", none⟩, 1, "m:a"),
    (⟨1, "b", "", some "m:b", none⟩, 1, "m:b")]
  canonicalModelId := some "m"

def secondOverridden (weight : ℚ) : RouteResolvers where
  weightOverrides := some fun _ endpoint => if endpoint = "m:b" then some weight else none

def secondOffload (weight : ℚ) : RouteResolvers :=
  { secondOverridden weight with offloadPolicies := some fun _ => some ⟨"m:b", some 1000⟩ }

/-- A route overridden to zero is reported at zero and never used, the offload route too. -/
theorem weight_report_mirrors_selection_zero_override :
    ("m", twoRoutes) ∈ publishedRoutesSnapshot [("m", twoRoutes)] ∧
      (secondOffload 0).Mirrors [("m", twoRoutes)] "m" twoRoutes 2000 := by
  have member : ("m", twoRoutes) ∈ publishedRoutesSnapshot [("m", twoRoutes)] :=
    List.mem_singleton.mpr rfl
  have unweighted : ∀ entry ∈ (secondOffload 0).baseline twoRoutes,
      routeIdForAdapter entry.1 = "m:b" →
        (secondOffload 0).weightInForce "m" twoRoutes entry ≤ 0 := by
    decide +kernel
  refine ⟨member, (weight_report_mirrors_selection_iff member).mpr ⟨Or.inl (by decide +kernel), ?_⟩⟩
  rintro _ ⟨⟩ entry ⟨inside, -, positive⟩ isOffload
  exact absurd positive (not_lt.mpr (unweighted entry inside isOffload))

/-- With a negative override, both routes are reported at zero and excluded while every draw picks
the first; and an offload route is reported with its share while no draw picks it. -/
theorem negative_override_hides_the_drawn_route :
    ((secondOverridden (-2)).describeRouteWeights [("m", twoRoutes)]).map
        RouteWeightFact.effectiveWeight = [0, 0] ∧
      ((secondOverridden (-2)).getRouteExclusions [("m", twoRoutes)]).map
        RouteWeightFact.endpointId = ["m:a", "m:b"] ∧
      drawProbability ((secondOverridden (-2)).drawnFrom "m" twoRoutes 0) 0 = 1 ∧
      ((secondOffload 3).describeRouteWeights [("m", twoRoutes)]).map
        RouteWeightFact.effectiveWeight = [1 / 4, 3 / 4] ∧
      drawProbability ((secondOffload 3).drawnFrom "m" twoRoutes 0) 1 = 0 := by
  have first : (((secondOverridden (-2)).drawnFrom "m" twoRoutes 0).map Prod.snd)[0]? =
      some 1 := by
    decide +kernel
  have drawn : drawnWeight
      (((secondOverridden (-2)).drawnFrom "m" twoRoutes 0).map Prod.snd) = 1 := by
    decide +kernel
  have held : (((secondOffload 3).drawnFrom "m" twoRoutes 0).map Prod.snd)[1]? = some 0 := by
    decide +kernel
  refine ⟨by decide +kernel, by decide +kernel, ?_, by decide +kernel,
    drawProbability_of_nonpos held le_rfl⟩
  rw [drawProbability_of_pos first one_pos, drawn]
  simp

end Mirror

end HybridInference.Routing
