import HybridInference.Library.Dict
import HybridInference.Library.Machine
import Mathlib.Data.List.Count

/-!
# The registry of model routers

`ModelRouterRegistry` of `routing.model_router_registry`. A router is an object:
the process-wide fixed router, or one built for a model, which has the number of
its construction. What a build checks and whether a model gets a hybrid entry
point are parameters of the settings; the alias resolution is fixed.

`changes` records for which models a commit took effect or an override was
cleared, and `retired` the routers that went out of use by one of these; a token
has the number of changes at its preparation. They decide nothing.
-/

namespace HybridInference.Routing

open Library

inductive ModelRouter where
  | sharedFixed
  | built (serial : ℕ) (model strategy : String)
  deriving DecidableEq

def ModelRouter.strategy : ModelRouter → String
  | .sharedFixed => "fixed"
  | .built _ _ strategy => strategy

structure ModelEntry (Params : Type) where
  router : Option String := none
  routerParams : Option Params := none
  deriving DecidableEq

structure RegistrySettings (Params : Type) where
  configs : Dict String (ModelEntry Params)
  defaultRouter : String
  aliasToModel : Dict String String
  hasSharedFixed : Bool
  tableCanonicalId : String → String
  builds : String → String → Params → Bool
  hybrid : String → Params → Bool
  noParams : Params
  named : ∀ model params, builds model "" params = false

structure RouterStrategyChange where
  model : String
  strategy : String
  targetOverride : Option String
  previousOverride : Option String
  previousRouter : ModelRouter
  router : ModelRouter
  revision : ℕ
  preparedAt : ℕ

structure Registry where
  cache : Dict String ModelRouter := ∅
  overrides : Dict String String := ∅
  revisions : Dict String ℕ := ∅
  serial : ℕ := 0
  tokens : List RouterStrategyChange := []
  changes : List String := []
  retired : List ModelRouter := []

inductive RegistryEvent where
  | getRouter (modelId : String)
  | prepare (modelId : String) (strategy : Option String)
  | commit (token : ℕ)
  | clear (modelId : String)

namespace RegistrySettings

variable {Params : Type} (settings : RegistrySettings Params)

def canonicalModelId (modelId : String) : String :=
  let configured := (settings.aliasToModel.find modelId).getD modelId
  if settings.hasSharedFixed then settings.tableCanonicalId configured else configured

def configOf (canonical modelId : String) : ModelEntry Params :=
  (settings.configs.find canonical).getD ((settings.configs.find modelId).getD {})

def configuredName (config : ModelEntry Params) : String :=
  match config.router with
  | some name => if name = "" then settings.defaultRouter else name
  | none => settings.defaultRouter

def routerSpec (registry : Registry) (canonical : String) (config : ModelEntry Params) :
    String × Params :=
  let configured := settings.configuredName config
  let name :=
    match registry.overrides.find canonical with
    | some override => if override = "" then configured else override
    | none => configured
  (name, if name = configured then config.routerParams.getD settings.noParams
    else settings.noParams)

/-- `_build_router_for_spec`; `none` when it raises. -/
def buildRouterForSpec (serial : ℕ) (model name : String) (params : Params) :
    Option ModelRouter :=
  if settings.hasSharedFixed && settings.builds model name params then
    if name = "fixed" && !settings.hybrid model params then some .sharedFixed
    else some (.built serial model name)
  else none

def getRouterName (registry : Registry) (modelId : String) : String :=
  let canonical := settings.canonicalModelId modelId
  (settings.routerSpec registry canonical (settings.configOf canonical modelId)).1

def getRouter (registry : Registry) (modelId : String) : Registry × Option ModelRouter :=
  let canonical := settings.canonicalModelId modelId
  match registry.cache.find canonical with
  | some cached => ({ registry with cache := registry.cache.insert modelId cached }, some cached)
  | none =>
    let spec := settings.routerSpec registry canonical (settings.configOf canonical modelId)
    match settings.buildRouterForSpec registry.serial canonical spec.1 spec.2 with
    | some router =>
      ({ registry with
          cache := (registry.cache.insert canonical router).insert modelId router
          serial := registry.serial + 1 },
        some router)
    | none => (registry, none)

def invalidateRouterCache (cache : Dict String ModelRouter) (canonical : String) :
    Dict String ModelRouter :=
  Dict.eraseAll (cache.erase canonical)
    ((settings.aliasToModel.entries.filter fun entry => entry.2 = canonical).map fun entry =>
      entry.1)

def prepareRouterStrategyChange (registry : Registry) (modelId : String)
    (strategy : Option String) : Registry × Option RouterStrategyChange :=
  let canonical := settings.canonicalModelId modelId
  let config := settings.configOf canonical modelId
  let configured := settings.configuredName config
  let target := strategy.filter (· ≠ configured)
  let effective := target.getD configured
  let previousOverride := registry.overrides.find canonical
  let looked := settings.getRouter registry canonical
  match looked.2 with
  | none => (looked.1, none)
  | some previous =>
    let change (router : ModelRouter) : RouterStrategyChange :=
      { model := canonical
        strategy := effective
        targetOverride := target
        previousOverride := previousOverride
        previousRouter := previous
        router := router
        revision := looked.1.revisions.read canonical
        preparedAt := registry.changes.length }
    if effective = settings.getRouterName looked.1 canonical then
      ({ looked.1 with tokens := looked.1.tokens ++ [change previous] }, some (change previous))
    else
      let params :=
        if effective = configured then config.routerParams.getD settings.noParams
        else settings.noParams
      match settings.buildRouterForSpec looked.1.serial canonical effective params with
      | some router =>
        ({ looked.1 with
            serial := looked.1.serial + 1
            tokens := looked.1.tokens ++ [change router] },
          some (change router))
      | none => (looked.1, none)

def fresh (registry : Registry) (change : RouterStrategyChange) : Bool :=
  registry.revisions.read change.model = change.revision &&
    registry.overrides.find change.model = change.previousOverride

def retire (registry : Registry) (model : String) (next : Option ModelRouter) :
    List ModelRouter :=
  match registry.cache.find model with
  | some (.built serial owner strategy) =>
    if next = some (.built serial owner strategy) then registry.retired
    else .built serial owner strategy :: registry.retired
  | _ => registry.retired

def bumpRouterRevision (revisions : Dict String ℕ) (canonical : String) : Dict String ℕ :=
  revisions.insert canonical (revisions.read canonical + 1)

def publish (registry : Registry) (change : RouterStrategyChange) : Registry :=
  { registry with
    overrides :=
      match change.targetOverride with
      | none => registry.overrides.erase change.model
      | some override => registry.overrides.insert change.model override
    cache :=
      (settings.invalidateRouterCache registry.cache change.model).insert change.model change.router
    revisions := bumpRouterRevision registry.revisions change.model
    changes := registry.changes ++ [change.model]
    retired := retire registry change.model (some change.router) }

/-- `commit_router_strategy_change`; `none` is `StaleRouterStrategyChangeError`. -/
def commitRouterStrategyChange (registry : Registry) (change : RouterStrategyChange) :
    Registry × Option ModelRouter :=
  if fresh registry change then (settings.publish registry change, some change.router)
  else (registry, none)

def clearRouterOverride (registry : Registry) (modelId : String) : Registry :=
  let canonical := settings.canonicalModelId modelId
  { registry with
    overrides := registry.overrides.erase canonical
    cache := settings.invalidateRouterCache registry.cache canonical
    revisions := bumpRouterRevision registry.revisions canonical
    changes := registry.changes ++ [canonical]
    retired := retire registry canonical none }

def step (registry : Registry) : RegistryEvent → Option Registry
  | .getRouter modelId => some (settings.getRouter registry modelId).1
  | .prepare modelId strategy =>
    some (settings.prepareRouterStrategyChange registry modelId strategy).1
  | .commit token =>
    (registry.tokens[token]?).map fun change =>
      (settings.commitRouterStrategyChange registry change).1
  | .clear modelId => some (settings.clearRouterOverride registry modelId)

def machine : Machine Registry RegistryEvent where
  step := settings.step

end RegistrySettings

namespace Registry

def cachedRouters (registry : Registry) : List ModelRouter :=
  registry.cache.entries.map fun entry => entry.2

/-- Each cached router with a capability, once: `managed_routers` returns these,
and `refresh_route_tables` refreshes them. -/
def uniqueRouters (registry : Registry) (capable : ModelRouter → Bool) : List ModelRouter :=
  registry.cachedRouters.foldl (fun seen router =>
      if router ∈ seen then seen else if capable router then seen ++ [router] else seen) []

end Registry

namespace RegistrySettings

variable {Params : Type} (settings : RegistrySettings Params)

def Resolves (modelId : String) : Prop :=
  settings.canonicalModelId (settings.canonicalModelId modelId) =
      settings.canonicalModelId modelId ∧
    settings.configOf (settings.canonicalModelId modelId) modelId =
      settings.configOf (settings.canonicalModelId modelId) (settings.canonicalModelId modelId)

def Evicts (registry : Registry) (model : String) : Prop :=
  (∀ modelId ∈ registry.cache.keys, settings.canonicalModelId modelId = model →
    modelId = model ∨ settings.aliasToModel.find modelId = some model) ∧
  ∀ entry ∈ settings.aliasToModel.entries, entry.2 = model →
    settings.canonicalModelId entry.1 = model

def InPlace (registry : Registry) : RegistryEvent → Prop
  | .getRouter modelId => settings.Resolves modelId
  | .prepare modelId _ => settings.Resolves modelId
  | .commit token => ∀ change ∈ registry.tokens[token]?, fresh registry change = true →
      settings.Evicts registry change.model
  | .clear modelId => settings.Resolves modelId ∧
      settings.Evicts registry (settings.canonicalModelId modelId)

instance [DecidableEq Params] (modelId : String) : Decidable (settings.Resolves modelId) :=
  inferInstanceAs (Decidable (_ ∧ _))

instance (registry : Registry) (model : String) : Decidable (settings.Evicts registry model) :=
  inferInstanceAs (Decidable (_ ∧ _))

instance [DecidableEq Params] (registry : Registry) :
    ∀ event, Decidable (settings.InPlace registry event)
  | .getRouter modelId => inferInstanceAs (Decidable (settings.Resolves modelId))
  | .prepare modelId _ => inferInstanceAs (Decidable (settings.Resolves modelId))
  | .commit token => inferInstanceAs (Decidable (∀ change ∈ registry.tokens[token]?, _ → _))
  | .clear _ => inferInstanceAs (Decidable (_ ∧ _))

def subject (registry : Registry) : RegistryEvent → Option String
  | .getRouter modelId => some (settings.canonicalModelId modelId)
  | .prepare modelId _ => some (settings.canonicalModelId modelId)
  | .commit token => (registry.tokens[token]?).map RouterStrategyChange.model
  | .clear modelId => some (settings.canonicalModelId modelId)

def strategyOf (registry : Registry) (model : String) : String :=
  (settings.routerSpec registry model (settings.configOf model model)).1

def BuiltFor (model : String) (bound : ℕ) : ModelRouter → Prop
  | .sharedFixed => True
  | .built serial owner _ => owner = model ∧ serial < bound

structure TokenSound (registry : Registry) (change : RouterStrategyChange) : Prop where
  canonical : settings.canonicalModelId change.model = change.model
  prepared : change.preparedAt ≤ registry.changes.length
  revision : change.revision = (registry.changes.take change.preparedAt).count change.model
  target : change.targetOverride.getD
    (settings.configuredName (settings.configOf change.model change.model)) = change.strategy
  strategy : change.router.strategy = change.strategy
  named : change.strategy ≠ ""
  owner : BuiltFor change.model registry.serial change.router
  current : registry.changes.count change.model = change.revision →
    registry.overrides.find change.model = change.previousOverride ∧
      change.router ∉ registry.retired

/-- Every cached id has the router of its model, which was built for the model's
strategy, and no router that was retired is cached. -/
structure Sound (registry : Registry) : Prop where
  home : ∀ modelId router, registry.cache.find modelId = some router → settings.Resolves modelId ∧
      registry.cache.find (settings.canonicalModelId modelId) = some router
  strategy : ∀ modelId router, registry.cache.find modelId = some router →
    router.strategy = settings.strategyOf registry (settings.canonicalModelId modelId) ∧
      router.strategy ≠ ""
  owner : ∀ modelId router, registry.cache.find modelId = some router →
    BuiltFor (settings.canonicalModelId modelId) registry.serial router
  override : ∀ model name, registry.overrides.find model = some name → name ≠ ""
  revisions : ∀ model, registry.revisions.read model = registry.changes.count model
  tokens : ∀ change ∈ registry.tokens, settings.TokenSound registry change
  retired : ∀ router ∈ registry.retired, (∃ serial model strategy,
    router = .built serial model strategy ∧ serial < registry.serial) ∧
      ∀ modelId, registry.cache.find modelId ≠ some router

variable {settings} {registry : Registry}

theorem Sound.empty : settings.Sound {} := by
  constructor <;> simp

variable {modelId : String}

theorem canonical_of_resolves (resolves : settings.Resolves modelId) :
    settings.Resolves (settings.canonicalModelId modelId) := by
  refine ⟨?_, ?_⟩
  · rw [resolves.1, resolves.1]
  · rw [resolves.1]

variable {model : String}

theorem resolves_of_canonical
    (canonical : settings.canonicalModelId model = model) : settings.Resolves model := by
  unfold Resolves
  rw [canonical]
  exact ⟨canonical, rfl⟩

theorem getRouterName_eq (resolves : settings.Resolves modelId) :
    settings.getRouterName registry modelId =
      settings.strategyOf registry (settings.canonicalModelId modelId) := by
  unfold getRouterName strategyOf
  dsimp only
  rw [resolves.2]

variable {serial : ℕ} {params : Params}

variable {router : ModelRouter}

theorem buildRouterForSpec_some {model name : String}
    (built : settings.buildRouterForSpec serial model name params = some router) :
    router.strategy = name ∧ name ≠ "" ∧
      (router = .sharedFixed ∨ router = .built serial model name) := by
  unfold buildRouterForSpec at built
  by_cases succeeds : (settings.hasSharedFixed && settings.builds model name params) = true
  · rw [if_pos succeeds] at built
    have named : name ≠ "" := by
      rintro rfl
      simp [settings.named] at succeeds
    by_cases shared : (decide (name = "fixed") && !settings.hybrid model params) = true
    · rw [if_pos shared] at built
      simp only [Bool.and_eq_true, decide_eq_true_eq] at shared
      cases built
      exact ⟨shared.1.symm, named, Or.inl rfl⟩
    · rw [if_neg shared] at built
      cases built
      exact ⟨rfl, named, Or.inr rfl⟩
  · rw [if_neg succeeds] at built
    simp at built

theorem BuiltFor.mono {bound more : ℕ}
    (builtFor : BuiltFor model bound router) (grows : bound ≤ more) :
    BuiltFor model more router := by
  cases router with
  | sharedFixed => trivial
  | built serial owner strategy => exact ⟨builtFor.1, builtFor.2.trans_le grows⟩

theorem builtFor_of_build {model name : String}
    (built : settings.buildRouterForSpec serial model name params = some router) :
    BuiltFor model (serial + 1) router := by
  rcases (buildRouterForSpec_some built).2.2 with rfl | rfl
  · trivial
  · exact ⟨rfl, Nat.lt_succ_self _⟩

variable {change : RouterStrategyChange} {cache : Dict String ModelRouter}

theorem TokenSound.of_serial {tokens : List RouterStrategyChange}
    (sound : settings.TokenSound registry change) (grows : registry.serial ≤ serial) :
    settings.TokenSound
      { registry with cache := cache, serial := serial, tokens := tokens } change where
  canonical := sound.canonical
  prepared := sound.prepared
  revision := sound.revision
  target := sound.target
  strategy := sound.strategy
  named := sound.named
  owner := sound.owner.mono grows
  current := sound.current

theorem Sound.withCached (sound : settings.Sound registry)
    (resolves : settings.Resolves modelId) (router : ModelRouter)
    (finds : ∀ other, cache.find other =
      if other = modelId ∨ other = settings.canonicalModelId modelId then some router
      else registry.cache.find other)
    (same : ∀ cached, registry.cache.find (settings.canonicalModelId modelId) = some cached →
      cached = router)
    (strategy : router.strategy =
      settings.strategyOf registry (settings.canonicalModelId modelId) ∧ router.strategy ≠ "")
    (owner : BuiltFor (settings.canonicalModelId modelId) serial router)
    (grows : registry.serial ≤ serial) (live : router ∉ registry.retired) :
    settings.Sound { registry with cache := cache, serial := serial } where
  home := by
    intro other cached found
    simp only [finds] at found ⊢
    split_ifs at found with asked
    · cases found
      have here : settings.canonicalModelId other = settings.canonicalModelId modelId := by
        rcases asked with rfl | rfl
        · rfl
        · exact resolves.1
      refine ⟨?_, by rw [if_pos (Or.inr here)]⟩
      rcases asked with rfl | rfl
      · exact resolves
      · exact canonical_of_resolves resolves
    · rcases sound.home other cached found with ⟨otherResolves, there⟩
      refine ⟨otherResolves, ?_⟩
      split_ifs with here
      · rcases here with here | here
        · have canonical := otherResolves.1
          rw [here] at canonical there
          rw [canonical] at same
          exact congrArg some (same cached there).symm
        · rw [here] at there
          exact congrArg some (same cached there).symm
      · exact there
  strategy := by
    intro other cached found
    simp only [finds] at found
    split_ifs at found with asked
    · cases found
      rcases asked with rfl | rfl
      · exact strategy
      · rw [resolves.1]
        exact strategy
    · exact sound.strategy other cached found
  owner := by
    intro other cached found
    simp only [finds] at found
    split_ifs at found with asked
    · cases found
      rcases asked with rfl | rfl
      · exact owner
      · rw [resolves.1]
        exact owner
    · exact (sound.owner other cached found).mono grows
  override := sound.override
  revisions := sound.revisions
  tokens := by
    intro change member
    exact (sound.tokens change member).of_serial grows
  retired := by
    intro gone member
    rcases sound.retired gone member with ⟨⟨serial', model, name, rfl, below⟩, absent⟩
    refine ⟨⟨serial', model, name, rfl, below.trans_le grows⟩, ?_⟩
    intro other found
    simp only [finds] at found
    split_ifs at found
    · cases found
      exact live member
    · exact absent other found

/-- What `get_router` does: it finds the model's router, builds it or raises. -/
theorem getRouter_cases (settings : RegistrySettings Params) (registry : Registry)
    (modelId : String) :
    (∃ cached, registry.cache.find (settings.canonicalModelId modelId) = some cached ∧
      settings.getRouter registry modelId =
        ({ registry with cache := registry.cache.insert modelId cached }, some cached)) ∨
    (∃ router, registry.cache.find (settings.canonicalModelId modelId) = none ∧
      settings.buildRouterForSpec registry.serial (settings.canonicalModelId modelId)
        (settings.getRouterName registry modelId)
        (settings.routerSpec registry (settings.canonicalModelId modelId)
          (settings.configOf (settings.canonicalModelId modelId) modelId)).2 = some router ∧
      settings.getRouter registry modelId =
        ({ registry with
            cache := (registry.cache.insert (settings.canonicalModelId modelId) router).insert
              modelId router
            serial := registry.serial + 1 }, some router)) ∨
    registry.cache.find (settings.canonicalModelId modelId) = none ∧
      settings.getRouter registry modelId = (registry, none) := by
  unfold getRouter getRouterName
  dsimp only
  cases found : registry.cache.find (settings.canonicalModelId modelId) with
  | some cached => exact Or.inl ⟨cached, rfl, rfl⟩
  | none =>
    right
    cases built : settings.buildRouterForSpec registry.serial (settings.canonicalModelId modelId)
        (settings.routerSpec registry (settings.canonicalModelId modelId)
          (settings.configOf (settings.canonicalModelId modelId) modelId)).1
        (settings.routerSpec registry (settings.canonicalModelId modelId)
          (settings.configOf (settings.canonicalModelId modelId) modelId)).2 with
    | some router => exact Or.inl ⟨router, rfl, rfl, rfl⟩
    | none => exact Or.inr ⟨rfl, rfl⟩

theorem Sound.not_retired_of_cached (sound : settings.Sound registry)
    (found : registry.cache.find modelId = some router) :
    router ∉ registry.retired :=
  fun member => (sound.retired router member).2 modelId found

theorem Sound.not_retired_of_built (sound : settings.Sound registry) {model name : String}
    (grows : registry.serial ≤ serial)
    (built : settings.buildRouterForSpec serial model name params = some router) :
    router ∉ registry.retired := by
  intro member
  rcases sound.retired router member with ⟨⟨other, owner, strategy, rfl, below⟩, -⟩
  rcases (buildRouterForSpec_some built).2.2 with same | same
  · simp at same
  · simp only [ModelRouter.built.injEq] at same
    omega

theorem Sound.getRouter (sound : settings.Sound registry) (resolves : settings.Resolves modelId) :
    settings.Sound (settings.getRouter registry modelId).1 := by
  rcases getRouter_cases settings registry modelId with
    ⟨cached, found, looked⟩ | ⟨router, missing, built, looked⟩ | ⟨-, looked⟩
  · rw [looked]
    have strategy := sound.strategy _ cached found
    have owner := sound.owner _ cached found
    rw [resolves.1] at strategy owner
    refine sound.withCached resolves cached ?_ ?_ strategy owner le_rfl
      (sound.not_retired_of_cached found)
    · intro other
      rw [Dict.find_insert]
      by_cases asked : other = modelId
      · simp [asked]
      · by_cases canonical : other = settings.canonicalModelId modelId
        · rw [if_neg asked, if_pos (Or.inr canonical), canonical, found]
        · simp [asked, canonical]
    · intro other there
      rw [found, Option.some.injEq] at there
      exact there.symm
  · rw [looked]
    have named := buildRouterForSpec_some built
    rw [getRouterName_eq resolves] at named
    refine sound.withCached resolves router ?_ ?_ ⟨named.1, ?_⟩
      (builtFor_of_build built) (Nat.le_succ _) (sound.not_retired_of_built le_rfl built)
    · intro other
      rw [Dict.find_insert, Dict.find_insert]
      by_cases asked : other = modelId
      · simp [asked]
      · simp [asked]
    · intro other there
      rw [missing] at there
      simp at there
    · rw [named.1]
      exact named.2.1
  · rw [looked]
    exact sound

theorem getRouter_frame (settings : RegistrySettings Params) (registry : Registry)
    (modelId : String) :
    (settings.getRouter registry modelId).1.overrides = registry.overrides ∧
    (settings.getRouter registry modelId).1.revisions = registry.revisions ∧
    (settings.getRouter registry modelId).1.changes = registry.changes ∧
    (settings.getRouter registry modelId).1.retired = registry.retired ∧
    (settings.getRouter registry modelId).1.tokens = registry.tokens := by
  rcases getRouter_cases settings registry modelId with
    ⟨_, -, looked⟩ | ⟨_, -, -, looked⟩ | ⟨-, looked⟩
  all_goals
    rw [looked]
    exact ⟨rfl, rfl, rfl, rfl, rfl⟩

theorem getRouter_other {modelId other : String} (notAsked : other ≠ modelId)
    (notCanonical : other ≠ settings.canonicalModelId modelId) :
    (settings.getRouter registry modelId).1.cache.find other = registry.cache.find other := by
  rcases getRouter_cases settings registry modelId with
    ⟨_, -, looked⟩ | ⟨_, -, -, looked⟩ | ⟨-, looked⟩
  · rw [looked]
    rw [Dict.find_insert, if_neg notAsked]
  · rw [looked]
    dsimp only
    rw [Dict.find_insert, Dict.find_insert, if_neg notAsked, if_neg notCanonical]
  · rw [looked]

theorem find_of_getRouter (returned : (settings.getRouter registry modelId).2 = some router) :
    (settings.getRouter registry modelId).1.cache.find modelId = some router := by
  rcases getRouter_cases settings registry modelId with
    ⟨_, -, looked⟩ | ⟨_, -, -, looked⟩ | ⟨-, looked⟩
  · rw [looked] at returned ⊢
    rw [Dict.find_insert, if_pos rfl]
    exact returned
  · rw [looked] at returned ⊢
    dsimp only
    rw [Dict.find_insert, if_pos rfl]
    exact returned
  · rw [looked] at returned
    simp at returned

theorem Sound.withToken (sound : settings.Sound registry) (change : RouterStrategyChange)
    (serial : ℕ) (grows : registry.serial ≤ serial)
    (token : settings.TokenSound { registry with serial := serial } change) :
    settings.Sound { registry with serial := serial, tokens := registry.tokens ++ [change] } where
  home := sound.home
  strategy := sound.strategy
  owner := fun modelId router found => (sound.owner modelId router found).mono grows
  override := sound.override
  revisions := sound.revisions
  tokens := by
    intro other member
    rcases List.mem_append.mp member with earlier | last
    · exact (sound.tokens other earlier).of_serial grows
    · rw [List.mem_singleton.mp last]
      exact { token with }
  retired := by
    intro router member
    rcases sound.retired router member with ⟨⟨other, model, name, rfl, below⟩, absent⟩
    exact ⟨⟨other, model, name, rfl, below.trans_le grows⟩, absent⟩

theorem Sound.newToken (sound : settings.Sound registry)
    (canonical : settings.canonicalModelId change.model = change.model)
    (prepared : change.preparedAt = registry.changes.length)
    (revision : change.revision = registry.revisions.read change.model)
    (target : change.targetOverride.getD
      (settings.configuredName (settings.configOf change.model change.model)) = change.strategy)
    (strategy : change.router.strategy = change.strategy) (named : change.router.strategy ≠ "")
    (owner : BuiltFor change.model serial change.router)
    (override : registry.overrides.find change.model = change.previousOverride)
    (live : change.router ∉ registry.retired) :
    settings.TokenSound { registry with serial := serial } change where
  canonical := canonical
  prepared := prepared.le
  revision := by
    rw [revision, prepared, List.take_length]
    exact sound.revisions change.model
  target := target
  strategy := strategy
  named := strategy ▸ named
  owner := owner
  current := fun _ => ⟨override, live⟩

theorem Sound.prepare (sound : settings.Sound registry)
    (resolves : settings.Resolves modelId) (strategy : Option String) :
    settings.Sound (settings.prepareRouterStrategyChange registry modelId strategy).1 := by
  have model := canonical_of_resolves resolves
  have looked := sound.getRouter model
  rcases getRouter_frame settings registry (settings.canonicalModelId modelId) with
    ⟨overrides, -, changes, -, -⟩
  unfold prepareRouterStrategyChange
  dsimp only
  cases returned : (settings.getRouter registry (settings.canonicalModelId modelId)).2 with
  | none => exact looked
  | some previous =>
    have found := find_of_getRouter returned
    have current := looked.strategy _ _ found
    have owner := looked.owner _ _ found
    rw [resolves.1] at current owner
    dsimp only
    rw [getRouterName_eq model, resolves.1, resolves.2]
    split
    · next unchanged =>
        refine looked.withToken _ _ le_rfl (looked.newToken resolves.1 ?_ rfl rfl ?_ current.2
          owner ?_ (looked.not_retired_of_cached found))
        · exact congrArg List.length changes.symm
        · exact current.1.trans unchanged.symm
        · exact congrArg (fun dict => Dict.find dict _) overrides
    · split
      · next router built =>
          have named := buildRouterForSpec_some built
          refine looked.withToken _ _ (Nat.le_succ _) (looked.newToken resolves.1 ?_ rfl rfl
            named.1 ?_ (builtFor_of_build built) ?_ (looked.not_retired_of_built le_rfl built))
          · exact congrArg List.length changes.symm
          · rw [named.1]
            exact named.2.1
          · exact congrArg (fun dict => Dict.find dict _) overrides
      · exact looked

theorem find_invalidateRouterCache (cache : Dict String ModelRouter) (model other : String) :
    Dict.find (settings.invalidateRouterCache cache model) other =
      if other = model ∨ settings.aliasToModel.find other = some model then none
      else cache.find other := by
  have configured : other ∈ ((settings.aliasToModel.entries.filter fun entry =>
      entry.2 = model).map fun entry => entry.1) ↔
      settings.aliasToModel.find other = some model := by
    simp only [List.mem_map, List.mem_filter, decide_eq_true_eq]
    constructor
    · rintro ⟨entry, ⟨member, rfl⟩, rfl⟩
      exact AList.mem_lookup_iff.mpr member
    · intro found
      exact ⟨⟨other, model⟩, ⟨AList.mem_lookup_iff.mp found, rfl⟩, rfl⟩
  unfold invalidateRouterCache
  rw [Dict.find_eraseAll, Dict.find_erase]
  by_cases named : settings.aliasToModel.find other = some model
  · rw [if_pos (configured.mpr named), if_pos (Or.inr named)]
  · rw [if_neg (fun member => named (configured.mp member))]
    by_cases same : other = model
    · simp [same]
    · simp [same, named]

variable {next : Registry}

theorem strategyOf_congr (same : next.overrides.find model = registry.overrides.find model) :
    settings.strategyOf next model = settings.strategyOf registry model := by
  unfold strategyOf routerSpec
  rw [same]

theorem mem_retire {next : Option ModelRouter} (member : router ∈ retire registry model next) :
    router ∈ registry.retired ∨ registry.cache.find model = some router ∧ next ≠ some router ∧
        ∃ serial owner strategy, router = .built serial owner strategy := by
  unfold retire at member
  split at member
  · next serial owner strategy found =>
      split_ifs at member with follows
      · exact Or.inl member
      · rcases List.mem_cons.mp member with rfl | earlier
        · exact Or.inr ⟨found, follows, serial, owner, strategy, rfl⟩
        · exact Or.inl earlier
  · exact Or.inl member

section

variable (sound : settings.Sound registry)

include sound

theorem Sound.changed (canonical : settings.canonicalModelId model = model)
    (evicts : settings.Evicts registry model) (replacement : Option ModelRouter)
    (cache : Dict String ModelRouter) (overrides : Dict String String)
    (finds : ∀ other, cache.find other = if other = model then replacement
      else if settings.aliasToModel.find other = some model then none
      else registry.cache.find other)
    (others : ∀ other, other ≠ model → overrides.find other = registry.overrides.find other)
    (named : ∀ name, overrides.find model = some name → name ≠ "")
    (replaced : ∀ router, replacement = some router →
      router.strategy = settings.strategyOf { registry with overrides := overrides } model ∧
        router.strategy ≠ "" ∧ BuiltFor model registry.serial router ∧
        router ∉ registry.retired) :
    settings.Sound
      { registry with
        cache := cache
        overrides := overrides
        revisions := bumpRouterRevision registry.revisions model
        changes := registry.changes ++ [model]
        retired := retire registry model replacement } := by
  have elsewhere : ∀ other router, other ≠ model → settings.aliasToModel.find other ≠ some model →
      registry.cache.find other = some router → settings.canonicalModelId other ≠ model := by
    intro other router different unnamed found here
    have member : other ∈ registry.cache.keys := by
      apply Dict.find_isSome_iff.mp
      rw [found]
      rfl
    rcases evicts.1 other member here with same | configured
    · exact different same
    · exact unnamed configured
  have owned : ∀ router serial owner strategy, registry.cache.find model = some router →
      router = .built serial owner strategy → owner = model := by
    rintro _ serial owner strategy found rfl
    have builtFor := sound.owner model _ found
    rw [canonical] at builtFor
    exact builtFor.1
  constructor
  · intro other router found
    simp only [finds] at found ⊢
    by_cases same : other = model
    · rw [if_pos same] at found
      subst same
      rw [canonical, if_pos rfl]
      exact ⟨resolves_of_canonical canonical, found⟩
    · rw [if_neg same] at found
      split_ifs at found with configured
      rcases sound.home other router found with ⟨resolves, home⟩
      have different := elsewhere other router same configured found
      refine ⟨resolves, ?_⟩
      rw [if_neg different, if_neg, home]
      intro unresolved
      have again := evicts.2 _ (AList.mem_lookup_iff.mp unresolved) rfl
      rw [resolves.1] at again
      exact different again
  · intro other router found
    simp only [finds] at found
    by_cases same : other = model
    · rw [if_pos same] at found
      subst same
      rw [canonical]
      have facts := replaced router found
      exact ⟨facts.1, facts.2.1⟩
    · rw [if_neg same] at found
      split_ifs at found with configured
      have different := elsewhere other router same configured found
      have facts := sound.strategy other router found
      refine ⟨facts.1.trans ?_, facts.2⟩
      exact (strategyOf_congr (others _ different)).symm
  · intro other router found
    simp only [finds] at found
    by_cases same : other = model
    · rw [if_pos same] at found
      subst same
      rw [canonical]
      exact (replaced router found).2.2.1
    · rw [if_neg same] at found
      split_ifs at found
      exact sound.owner other router found
  · intro other name found
    by_cases same : other = model
    · subst same
      exact named name found
    · exact sound.override other name ((others other same).symm.trans found)
  · intro other
    simp only [bumpRouterRevision, Dict.read_insert, List.count_append, List.count_singleton]
    by_cases same : other = model
    · rw [if_pos same, sound.revisions, same]
      simp
    · have flipped : model ≠ other := fun equal => same equal.symm
      rw [if_neg same, sound.revisions]
      simp [flipped]
  · intro change member
    have token := sound.tokens change member
    have fewer := List.Sublist.count_le change.model
      (List.take_sublist change.preparedAt registry.changes)
    rw [← token.revision] at fewer
    refine ⟨token.canonical, ?_, ?_, token.target, token.strategy, token.named, token.owner, ?_⟩
    · simp only [List.length_append, List.length_singleton]
      exact token.prepared.trans (Nat.le_succ _)
    · rw [List.take_append_of_le_length token.prepared]
      exact token.revision
    · intro current
      simp only [List.count_append, List.count_singleton] at current
      have different : change.model ≠ model := by
        intro same
        simp only [same, beq_self_eq_true, if_true] at current fewer
        omega
      have flipped : model ≠ change.model := fun equal => different equal.symm
      have unchanged : registry.changes.count change.model = change.revision := by
        simpa [flipped] using current
      rcases token.current unchanged with ⟨override, live⟩
      refine ⟨(others _ different).trans override, ?_⟩
      intro member
      rcases mem_retire member with earlier | ⟨cached, -, serial, owner, strategy, built⟩
      · exact live earlier
      · have mine := owned _ serial owner strategy cached built
        have builtFor := token.owner
        rw [built] at builtFor
        exact different (builtFor.1.symm.trans mine)
  · intro router member
    rcases mem_retire member with earlier | ⟨cached, notNext, serial, owner, strategy, rfl⟩
    · rcases sound.retired router earlier with ⟨built, absent⟩
      refine ⟨built, ?_⟩
      intro other found
      simp only [finds] at found
      by_cases same : other = model
      · rw [if_pos same] at found
        exact (replaced router found).2.2.2 earlier
      · rw [if_neg same] at found
        split_ifs at found
        exact absent other found
    · have mine := owned _ serial owner strategy cached rfl
      have builtFor := sound.owner model _ cached
      refine ⟨⟨serial, owner, strategy, rfl, builtFor.2⟩, ?_⟩
      intro other found
      simp only [finds] at found
      by_cases same : other = model
      · rw [if_pos same] at found
        exact notNext found
      · rw [if_neg same] at found
        split_ifs at found with configured
        have different := elsewhere other _ same configured found
        have theirs := sound.owner other _ found
        exact different (theirs.1.symm.trans mine)

theorem TokenSound.fresh_iff (token : settings.TokenSound registry change) :
    fresh registry change = true ↔ change.model ∉ registry.changes.drop change.preparedAt := by
  have split := congrArg (List.count change.model)
    (List.take_append_drop change.preparedAt registry.changes)
  rw [List.count_append, ← token.revision] at split
  have current : fresh registry change = true ↔
      registry.changes.count change.model = change.revision := by
    simp only [fresh, Bool.and_eq_true, decide_eq_true_eq, sound.revisions]
    exact ⟨fun both => both.1, fun same => ⟨same, (token.current same).1⟩⟩
  rw [current, ← List.count_eq_zero]
  omega

theorem Sound.publish
    (token : settings.TokenSound registry change) (isFresh : fresh registry change = true)
    (evicts : settings.Evicts registry change.model) :
    settings.Sound (settings.publish registry change) := by
  have current : registry.changes.count change.model = change.revision := by
    simp only [fresh, Bool.and_eq_true, decide_eq_true_eq, sound.revisions] at isFresh
    exact isFresh.1
  refine sound.changed token.canonical evicts (some change.router) _ _ ?_ ?_ ?_ ?_
  · intro other
    rw [Dict.find_insert, find_invalidateRouterCache]
    by_cases same : other = change.model
    · simp [same]
    · simp [same]
  · intro other different
    cases change.targetOverride with
    | none =>
      dsimp only
      rw [Dict.find_erase, if_neg different]
    | some name =>
      dsimp only
      rw [Dict.find_insert, if_neg different]
  · intro name found
    have target := token.target
    cases override : change.targetOverride with
    | none =>
      rw [override] at found
      dsimp only at found
      rw [Dict.find_erase, if_pos rfl] at found
      simp at found
    | some replaced =>
      rw [override] at found target
      dsimp only at found
      rw [Dict.find_insert, if_pos rfl, Option.some.injEq] at found
      rw [Option.getD_some] at target
      rw [← found, target]
      exact token.named
  · intro router same
    cases same
    refine ⟨?_, token.strategy ▸ token.named, token.owner, (token.current current).2⟩
    rw [token.strategy, ← token.target]
    have named := token.named
    rw [← token.target] at named
    unfold strategyOf routerSpec
    cases override : change.targetOverride with
    | none =>
      dsimp only
      rw [Dict.find_erase, if_pos rfl]
      rfl
    | some name =>
      rw [override, Option.getD_some] at named
      dsimp only
      rw [Dict.find_insert, if_pos rfl]
      simp [named]

theorem Sound.clear (resolves : settings.Resolves modelId)
    (evicts : settings.Evicts registry (settings.canonicalModelId modelId)) :
    settings.Sound (settings.clearRouterOverride registry modelId) := by
  refine sound.changed resolves.1 evicts none _ _ ?_ ?_ ?_ (by simp)
  · intro other
    rw [find_invalidateRouterCache]
    by_cases same : other = settings.canonicalModelId modelId
    · simp [same]
    · simp [same]
  · intro other different
    rw [Dict.find_erase, if_neg different]
  · intro name found
    rw [Dict.find_erase, if_pos rfl] at found
    simp at found

/-- One event in place keeps one live router for each model. -/
theorem Sound.step {event : RegistryEvent}
    (inPlace : settings.InPlace registry event)
    (stepped : settings.machine.step registry event = some next) : settings.Sound next := by
  cases event with
  | getRouter modelId =>
    cases stepped
    exact sound.getRouter inPlace
  | prepare modelId strategy =>
    cases stepped
    exact sound.prepare inPlace strategy
  | commit number =>
    rcases Option.map_eq_some_iff.mp stepped with ⟨change, there, rfl⟩
    unfold commitRouterStrategyChange
    split_ifs with isFresh
    · have token := sound.tokens change (List.mem_of_getElem? there)
      exact sound.publish token isFresh (inPlace change there isFresh)
    · exact sound
  | clear modelId =>
    cases stepped
    exact sound.clear inPlace.1 inPlace.2

end

theorem Sound.of_run {start : Registry} {events : List RegistryEvent}
    (sound : settings.Sound start) (along : settings.machine.Along settings.InPlace start events)
    (ran : settings.machine.run start events = some registry) : settings.Sound registry :=
  Machine.run_invariant_along settings.InPlace
    (fun _ _ _ sound inPlace stepped => Sound.step sound inPlace stepped) sound along ran

theorem Sound.getRouter_cached (sound : settings.Sound registry)
    (found : registry.cache.find modelId = some router) :
    (settings.getRouter registry modelId).2 = some router := by
  have home := (sound.home modelId router found).2
  simp [RegistrySettings.getRouter, home]

/-- Nothing of another model moves: its router, its override and its revision. -/
structure Untouched (registry next : Registry) (other : String) : Prop where
  cache : next.cache.find other = registry.cache.find other
  override : next.overrides.find other = registry.overrides.find other
  revision : next.revisions.read other = registry.revisions.read other

theorem untouched_of_getRouter {modelId other : String}
    (canonical : settings.canonicalModelId other = other)
    (different : settings.canonicalModelId modelId ≠ other) :
    Untouched registry (settings.getRouter registry modelId).1 other := by
  rcases getRouter_frame settings registry modelId with ⟨overrides, revisions, -, -, -⟩
  refine ⟨getRouter_other ?_ fun same => different same.symm, by rw [overrides], by rw [revisions]⟩
  rintro rfl
  exact different canonical

theorem untouched_of_changed {model other : String}
    (canonical : settings.canonicalModelId other = other)
    (different : model ≠ other) (evicts : settings.Evicts registry model)
    (finds : other ≠ model → cache.find other =
      Dict.find (settings.invalidateRouterCache registry.cache model) other)
    (nextCache : next.cache = cache)
    (overrides : other ≠ model → next.overrides.find other = registry.overrides.find other)
    (revisions : next.revisions = bumpRouterRevision registry.revisions model) :
    Untouched registry next other := by
  have flipped : other ≠ model := fun same => different same.symm
  refine ⟨?_, overrides flipped, ?_⟩
  · rw [nextCache, finds flipped, find_invalidateRouterCache, if_neg]
    rintro (same | configured)
    · exact flipped same
    · have here := evicts.2 _ (AList.mem_lookup_iff.mp configured) rfl
      exact flipped (canonical.symm.trans here)
  · rw [revisions, bumpRouterRevision, Dict.read_insert, if_neg flipped]

theorem untouched_of_step {event : RegistryEvent} {other : String}
    (inPlace : settings.InPlace registry event)
    (stepped : settings.machine.step registry event = some next)
    (canonical : settings.canonicalModelId other = other)
    (different : settings.subject registry event ≠ some other) :
    Untouched registry next other := by
  cases event with
  | getRouter modelId =>
    cases stepped
    exact untouched_of_getRouter canonical fun same => different (congrArg some same)
  | prepare modelId strategy =>
    cases stepped
    have looked : Untouched registry
        (settings.getRouter registry (settings.canonicalModelId modelId)).1 other := by
      apply untouched_of_getRouter canonical
      rw [inPlace.1]
      exact fun same => different (congrArg some same)
    unfold prepareRouterStrategyChange
    dsimp only
    split
    · exact looked
    · split
      · exact { looked with }
      · split
        · exact { looked with }
        · exact looked
  | commit number =>
    rcases Option.map_eq_some_iff.mp stepped with ⟨change, there, rfl⟩
    have elsewhere : change.model ≠ other := by
      intro same
      apply different
      simp [subject, there, same]
    unfold commitRouterStrategyChange
    split_ifs with isFresh
    · refine untouched_of_changed canonical elsewhere (inPlace change there isFresh) ?_ rfl ?_ rfl
      · intro flipped
        exact (Dict.find_insert _ _ _ _).trans (if_neg flipped)
      · intro flipped
        unfold publish
        cases change.targetOverride with
        | none =>
          dsimp only
          rw [Dict.find_erase, if_neg flipped]
        | some name =>
          dsimp only
          rw [Dict.find_insert, if_neg flipped]
    · exact ⟨rfl, rfl, rfl⟩
  | clear modelId =>
    cases stepped
    have elsewhere : settings.canonicalModelId modelId ≠ other :=
      fun same => different (congrArg some same)
    refine untouched_of_changed canonical elsewhere inPlace.2 (fun _ => rfl) rfl ?_ rfl
    intro flipped
    exact (Dict.find_erase _ _ _).trans (if_neg flipped)

end RegistrySettings

namespace Registry

variable {registry : Registry} {router : ModelRouter}

theorem mem_cachedRouters : router ∈ registry.cachedRouters ↔
    ∃ modelId, registry.cache.find modelId = some router := by
  constructor
  · intro member
    rcases List.mem_map.mp member with ⟨entry, entryMember, rfl⟩
    exact ⟨entry.1, AList.mem_lookup_iff.mpr entryMember⟩
  · rintro ⟨modelId, found⟩
    exact List.mem_map.mpr ⟨⟨modelId, router⟩, AList.mem_lookup_iff.mp found, rfl⟩

theorem mem_cachedRouters_of_unique {capable : ModelRouter → Bool}
    (member : router ∈ registry.uniqueRouters capable) : router ∈ registry.cachedRouters := by
  have grows : ∀ (routers seen : List ModelRouter),
      router ∈ routers.foldl (fun seen router => if router ∈ seen then seen
        else if capable router then seen ++ [router] else seen) seen →
      router ∈ seen ∨ router ∈ routers := by
    intro routers
    induction routers with
    | nil => exact fun seen member => Or.inl member
    | cons first rest ih =>
      intro seen member
      rcases ih _ member with before | later
      · dsimp only at before
        split_ifs at before
        · exact Or.inl before
        · rcases List.mem_append.mp before with earlier | last
          · exact Or.inl earlier
          · rw [List.mem_singleton.mp last]
            exact Or.inr List.mem_cons_self
        · exact Or.inl before
      · exact Or.inr (List.mem_cons_of_mem _ later)
  rcases grows _ _ member with none | cached
  · cases none
  · exact cached

end Registry

section Runs

variable {Params : Type} {settings : RegistrySettings Params} {registry : Registry}

/-- In a run of calls that are in place: every cached id has the router of its strategy, a replaced
router is out of reach, and a commit takes effect unless its model has changed. -/
theorem one_live_router_per_model {events : List RegistryEvent}
    (along : settings.machine.Along settings.InPlace {} events)
    (ran : settings.machine.run {} events = some registry) :
    (∀ modelId router, registry.cache.find modelId = some router →
      (settings.getRouter registry modelId).2 = some router ∧
        router.strategy = settings.getRouterName registry modelId) ∧
    (∀ router ∈ registry.retired, router ∉ registry.cachedRouters ∧
      ∀ capable, router ∉ registry.uniqueRouters capable) ∧
    (∀ (token : ℕ) change, registry.tokens[token]? = some change →
      ((settings.commitRouterStrategyChange registry change).2 = some change.router ↔
        change.model ∉ registry.changes.drop change.preparedAt) ∧
      ((settings.commitRouterStrategyChange registry change).2 = some change.router →
        (settings.commitRouterStrategyChange registry change).1.cache.find change.model =
          some change.router) ∧
      ((settings.commitRouterStrategyChange registry change).2 = none →
        (settings.commitRouterStrategyChange registry change).1 = registry)) ∧
    ∀ event next other, settings.InPlace registry event →
      settings.machine.step registry event = some next →
      settings.canonicalModelId other = other → settings.subject registry event ≠ some other →
      RegistrySettings.Untouched registry next other := by
  have sound : settings.Sound registry := RegistrySettings.Sound.empty.of_run along ran
  refine ⟨?_, ?_, ?_, ?_⟩
  · intro modelId router found
    refine ⟨sound.getRouter_cached found, ?_⟩
    rw [RegistrySettings.getRouterName_eq (sound.home modelId router found).1]
    exact (sound.strategy modelId router found).1
  · intro router member
    have unreachable : router ∉ registry.cachedRouters := by
      intro cached
      rcases Registry.mem_cachedRouters.mp cached with ⟨modelId, found⟩
      exact (sound.retired router member).2 modelId found
    exact ⟨unreachable, fun capable unique =>
      unreachable (Registry.mem_cachedRouters_of_unique unique)⟩
  · intro token change there
    have tokenSound := sound.tokens change (List.mem_of_getElem? there)
    rw [← RegistrySettings.TokenSound.fresh_iff sound tokenSound]
    unfold RegistrySettings.commitRouterStrategyChange
    split_ifs with isFresh
    · simp [isFresh, RegistrySettings.publish, Dict.find_insert]
    · simp [isFresh]
  · intro event next other inPlace stepped canonical different
    exact RegistrySettings.untouched_of_step inPlace stepped canonical different

/-- A registry without configuration entries, whose one alias `chat` of the
model `large` is configured, or known to the route table alone. -/
def oneAlias (configured : Bool) : RegistrySettings Unit where
  configs := ∅
  defaultRouter := "routewise"
  aliasToModel := if configured then (∅ : Dict String String).insert "chat" "large" else ∅
  hasSharedFixed := true
  tableCanonicalId := fun modelId => if modelId = "chat" then "large" else modelId
  builds := fun _ name _ => name ≠ ""
  hybrid := fun _ _ => false
  noParams := ()
  named := by simp

/-- A model is looked up by its configured alias and switched to the fixed
router; the RouteWise router it had is out of reach. -/
theorem one_live_router_per_model_configured_alias : ∃ registry, (oneAlias true).machine.run {}
        [.getRouter "chat", .prepare "large" (some "fixed"), .commit 0] = some registry ∧
      .built 0 "large" "routewise" ∈ registry.retired ∧
      .built 0 "large" "routewise" ∉ registry.cachedRouters := by
  have along : (oneAlias true).machine.Along (oneAlias true).InPlace {}
      [.getRouter "chat", .prepare "large" (some "fixed"), .commit 0] := by
    decide +kernel
  have retired : ((oneAlias true).machine.run {}
      [.getRouter "chat", .prepare "large" (some "fixed"), .commit 0]).map Registry.retired =
      some [.built 0 "large" "routewise"] := by
    decide +kernel
  rcases Option.map_eq_some_iff.mp retired with ⟨registry, ran, gone⟩
  have member : .built 0 "large" "routewise" ∈ registry.retired := by
    simp [gone]
  exact ⟨registry, ran, member, ((one_live_router_per_model along ran).2.1 _ member).1⟩

/-- Looked up by an alias that only the route table resolves, the replaced
router stays cached under that alias, where `get_router` would not find it. -/
theorem replaced_router_still_cached : ((oneAlias false).machine.run {}
        [.getRouter "chat", .prepare "large" (some "fixed"), .commit 0]).map
        (fun registry => (registry.retired, registry.cache.find "chat",
          ((oneAlias false).getRouter registry "chat").2,
          registry.cachedRouters)) =
      some ([.built 0 "large" "routewise"], some (.built 0 "large" "routewise"),
        some .sharedFixed, [.sharedFixed, .built 0 "large" "routewise"]) := by
  decide +kernel

end Runs

end HybridInference.Routing
