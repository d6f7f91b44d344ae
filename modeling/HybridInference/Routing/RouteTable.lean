import Mathlib.Algebra.Order.Field.Rat
import Mathlib.Data.List.Basic

/-!
# Route tables and their effective weights

`RouteConfig` of `routing.routers` with the identities of `routing.endpoints`,
and `_get_effective_adapters`: the weights a route selects by, after the
synchronous weight overrides, the disabled providers and the states of single
routes. A resolver that is not attached is `none`.

The offload policy of a model decides which of these routes selection holds back.
-/

namespace HybridInference.Routing

/-- What routing reads of an adapter's config. Two adapters are the same object
when they are equal, `identity` included. -/
structure RouteAdapter where
  identity : ℕ
  provider : String
  baseUrl : String := ""
  endpointId : Option String := none
  routeId : Option String := none
  deriving DecidableEq

/-- `value or default`, for a text that may be absent. -/
def textOr (value : Option String) (default : String) : String :=
  (value.filter (· ≠ "")).getD default

def endpointIdForAdapter (adapter : RouteAdapter) : String :=
  textOr adapter.endpointId adapter.provider

def routeIdForAdapter (adapter : RouteAdapter) : String :=
  textOr adapter.routeId (endpointIdForAdapter adapter)

structure RouteConfig where
  adapters : List (RouteAdapter × ℚ)
  /-- The weights as registered, with the endpoint ids of that time. -/
  rawAdapters : List (RouteAdapter × ℚ × String) := []
  canonicalModelId : Option String := none
  published : Bool := true

/-- The fields of `OffloadPolicy` that place a request. -/
structure OffloadPolicy where
  routeId : String
  maxInputTokens : Option ℤ

def OffloadPolicy.takesInput (policy : OffloadPolicy) (promptTokens : ℤ) : Bool :=
  policy.maxInputTokens.all fun limit => promptTokens ≤ limit

/-- `_offload_target` of a policy among adapters whose route ids `routeId` gives. -/
def offloadTarget {α : Type} (routeId : α → String) (policy : Option OffloadPolicy)
    (candidates : List (α × ℚ)) : Option (α × OffloadPolicy) :=
  policy.bind fun policy =>
    (candidates.find? fun entry => 0 < entry.2 && routeId entry.1 = policy.routeId).map
      fun entry => (entry.1, policy)

structure RouteResolvers where
  /-- `get_snapshot_for_model`, by model and endpoint. -/
  weightOverrides : Option (String → String → Option ℚ) := none
  disabledProviders : Option (String → Bool) := none
  /-- `is_excluded`, by model and route id. -/
  routeStates : Option (String → String → Bool) := none
  /-- `get_offload_policy`, by model; a policy that cannot be read is none. -/
  offloadPolicies : Option (String → Option OffloadPolicy) := none

namespace RouteResolvers

def disables (resolvers : RouteResolvers) (modelId : String) (adapter : RouteAdapter) : Bool :=
  (resolvers.disabledProviders.any fun isDisabled => isDisabled adapter.provider) ||
    resolvers.routeStates.any fun isExcluded => isExcluded modelId (routeIdForAdapter adapter)

def applyDisabledProviders (resolvers : RouteResolvers) (adapters : List (RouteAdapter × ℚ))
    (modelId : String) : List (RouteAdapter × ℚ) :=
  adapters.map fun entry => if resolvers.disables modelId entry.1 then (entry.1, 0) else entry

def getEffectiveAdapters (resolvers : RouteResolvers) (modelId : String) (route : RouteConfig) :
    List (RouteAdapter × ℚ) :=
  let overrideModelId := textOr route.canonicalModelId modelId
  match resolvers.weightOverrides with
  | none => resolvers.applyDisabledProviders route.adapters overrideModelId
  | some snapshot =>
    if route.rawAdapters.isEmpty then
      resolvers.applyDisabledProviders route.adapters overrideModelId
    else
      resolvers.applyDisabledProviders (route.rawAdapters.map fun entry =>
          (entry.1, (snapshot overrideModelId entry.2.2).getD entry.2.1))
        overrideModelId

end RouteResolvers

abbrev Routes := List (String × RouteConfig)

/-- `_published_routes_snapshot`: one canonical model and route for each published
route, the first key of a model only. -/
def publishedRoutesFrom (seen : List String) : Routes → List (String × RouteConfig)
  | [] => []
  | (routeKey, route) :: rest =>
    let canonical := textOr route.canonicalModelId routeKey
    if !route.published || seen.contains canonical then publishedRoutesFrom seen rest
    else (canonical, route) :: publishedRoutesFrom (canonical :: seen) rest

def publishedRoutesSnapshot (routes : Routes) : List (String × RouteConfig) :=
  publishedRoutesFrom [] routes

end HybridInference.Routing
