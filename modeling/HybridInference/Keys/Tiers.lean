import HybridInference.Keys.Muting
import HybridInference.Library.Json
import Mathlib.Data.Finset.Basic

/-!
# Tier reservations and disabled keys

The registry of `serving.adapters.dynamic_keys`, for one provider: the adapters with their
pools, the declared tiers of database rows by raw key and of configured keys by hash, and
the disabled hashes. Every adapter can be promoted to a pool.
-/

namespace HybridInference.Keys

open Library

structure Adapter where
  id : ℕ
  apiKey : Option String
  apiKeys : List String
  keyPoolProviderLabel : String
  keyPool : Option KeyPool
  /-- No key of the adapter was disabled when it was registered. -/
  heldNone : Bool := true

def stripKey (key : String) : String := String.ofList (Text.strip key.toList)

def strippedKeys (keys : List String) : List String :=
  (keys.map stripKey).filter fun key => key ≠ ""

namespace KeyPool

def snapshotKeys (pool : KeyPool) : List String :=
  (pool.keys.filter fun state => !state.removed).map KeyState.key

def snapshotMinRoles (pool : KeyPool) : List (String × Role) :=
  (pool.keys.filter fun state => !state.removed).map fun state => (state.key, state.minRole)

end KeyPool

namespace Adapter

def gatherStaticKeys (adapter : Adapter) : List String :=
  strippedKeys adapter.apiKey.toList ++ strippedKeys adapter.apiKeys

def ensureKeyPool (adapter : Adapter) : Adapter :=
  match adapter.keyPool with
  | some _ => adapter
  | none =>
    let seed := strippedKeys adapter.apiKeys
    let static := (strippedKeys adapter.apiKey.toList).filter fun key => key ∉ seed
    if (seed ++ static).isEmpty then adapter
    else
      { adapter with
        keyPool := some (.init (seed ++ static) adapter.keyPoolProviderLabel []) }

/-- `add_runtime_key`, and whether the key was attached. -/
def addRuntimeKey (adapter : Adapter) (key : String) (now : ℚ) : Adapter × Bool :=
  let normalized := stripKey key
  if normalized = "" then (adapter, false)
  else
    match adapter.keyPool with
    | none =>
      let seed := strippedKeys adapter.apiKey.toList
      let seed := if normalized ∈ seed then seed else seed ++ [normalized]
      ({ adapter with keyPool := some (.init seed adapter.keyPoolProviderLabel []) }, true)
    | some pool => ({ adapter with keyPool := some (pool.addKey normalized none now).1 }, true)

def removeKey (adapter : Adapter) (key : String) (now : ℚ) : Adapter × Bool :=
  match adapter.keyPool with
  | none => (adapter, false)
  | some pool =>
    let (pool, removed) := pool.removeKey key now
    ({ adapter with keyPool := some pool }, removed)

end Adapter

structure Registry where
  adapters : List Adapter := []
  dbInjectionDisabledAdapterIds : Finset ℕ := ∅
  dbInjectedKeys : Finset String := ∅
  disabledEnvKeyHashes : Finset String := ∅
  envKeyMinRoles : Dict String String := ∅
  dbKeyMinRoles : Dict String String := ∅
  /-- The keys that were added since they were last disabled. -/
  added : Finset String := ∅

def defaultMinRole : String := "free"

def roleRank (role : String) : ℕ := ((roleOf role).getD .free).rank

/-- `max` of two roles, the first one where they rank the same. -/
def maxRole (first second : String) : String :=
  if roleRank first < roleRank second then second else first

/-- A declaration other than `free`. -/
def declaredRole (declarations : Dict String String) (key : String) : Option String :=
  (declarations.find key).filter fun role => role ≠ defaultMinRole

def recordDeclaration (declarations : Dict String String) (key minRole : String) :
    Dict String String :=
  if minRole = defaultMinRole then declarations.erase key else declarations.insert key minRole

inductive KeyOperation where
  | registerAdapter (adapter : Adapter) (allowDbKeyInjection : Bool)
  | unregisterAdapter (id : ℕ)
  | loadEnvKeyMinRoles (roles : Dict String String)
  | loadDbKeyMinRoles (roles : Dict String String)
  | setEnvKeyMinRole (keyHash minRole : String)
  | declareDbKeyMinRoleNoRelax (rawKey minRole : String)
  | addKey (key : String) (minRole : Option String)
  | removeKey (key : String)
  | removeKeyFromPools (key : String)
  | disableEnvKey (key keyHash : String)
  | enableEnvKey (keyHash : String)
  | enforceDisabledStaticKeys (disabledHashes : Finset String)

namespace Registry

variable (envKeyHash : String → String)

def resolveMinRole (registry : Registry) (rawKey : String) : String :=
  match declaredRole registry.dbKeyMinRoles rawKey,
      declaredRole registry.envKeyMinRoles (envKeyHash rawKey) with
  | none, none => defaultMinRole
  | some role, none | none, some role => role
  | some first, some second => maxRole first second

def applyToPool (registry : Registry) (pool : KeyPool) (now : ℚ) : KeyPool :=
  pool.snapshotMinRoles.foldl (fun pool entry =>
    let resolved := registry.resolveMinRole envKeyHash entry.1
    if resolved ≠ entry.2.name then (pool.setKeyMinRole entry.1 (some resolved) now).1 else pool)
    pool

def applyToAdapter (registry : Registry) (now : ℚ) (adapter : Adapter) : Adapter :=
  let adapter :=
    if adapter.keyPool.isNone && adapter.gatherStaticKeys.any fun key =>
        registry.resolveMinRole envKeyHash key ≠ defaultMinRole then adapter.ensureKeyPool
    else adapter
  { adapter with
    keyPool := adapter.keyPool.map fun pool => registry.applyToPool envKeyHash pool now }

def applyMinRoles (registry : Registry) (now : ℚ) : Registry :=
  { registry with adapters := registry.adapters.map (registry.applyToAdapter envKeyHash now) }

def holdsNone (registry : Registry) (adapter : Adapter) : Bool :=
  match adapter.keyPool with
  | none => adapter.gatherStaticKeys.all fun key =>
    envKeyHash key ∉ registry.disabledEnvKeyHashes
  | some pool => pool.snapshotKeys.all fun key =>
    envKeyHash key ∉ registry.disabledEnvKeyHashes

def registerAdapterForProvider (registry : Registry) (adapter : Adapter)
    (allowDbKeyInjection : Bool) (now : ℚ) : Registry :=
  applyMinRoles envKeyHash
    { registry with
      adapters :=
        if registry.adapters.any fun other => other.id = adapter.id then registry.adapters
        else
          registry.adapters ++ [{ adapter with heldNone := registry.holdsNone envKeyHash adapter }]
      dbInjectionDisabledAdapterIds :=
        if allowDbKeyInjection then registry.dbInjectionDisabledAdapterIds.erase adapter.id
        else insert adapter.id registry.dbInjectionDisabledAdapterIds } now

def unregisterAdapterForProvider (registry : Registry) (id : ℕ) : Registry :=
  { registry with
    adapters := registry.adapters.filter fun adapter => adapter.id ≠ id
    dbInjectionDisabledAdapterIds := registry.dbInjectionDisabledAdapterIds.erase id }

def loadEnvKeyMinRoles (registry : Registry) (roles : Dict String String) (now : ℚ) : Registry :=
  applyMinRoles envKeyHash { registry with envKeyMinRoles := roles } now

/-- The declarations that are kept are those that are not empty and not `free`. -/
def loadDbKeyMinRoles (registry : Registry) (roles : Dict String String) (now : ℚ) : Registry :=
  applyMinRoles envKeyHash
    { registry with
      dbKeyMinRoles := roles.eraseAll
        (roles.keysWhere fun role => role = "" || role = defaultMinRole) } now

def setEnvKeyMinRole (registry : Registry) (keyHash minRole : String) (now : ℚ) : Registry × ℕ :=
  let registry := applyMinRoles envKeyHash
    { registry with
      envKeyMinRoles := recordDeclaration registry.envKeyMinRoles keyHash minRole } now
  (registry, registry.adapters.countP fun adapter => adapter.keyPool.any fun pool =>
    pool.snapshotKeys.any fun key => envKeyHash key = keyHash)

def declareDbKeyMinRoleNoRelax (registry : Registry) (rawKey minRole : String) (now : ℚ) :
    Registry × String :=
  let requested := (normalizeMinRole (some minRole)).name
  let cached := (registry.dbKeyMinRoles.find rawKey).getD defaultMinRole
  let effective := maxRole cached requested
  (applyMinRoles envKeyHash
    { registry with
      dbKeyMinRoles := recordDeclaration registry.dbKeyMinRoles rawKey effective } now,
    effective)

def attachKeyToAdapter (registry : Registry) (key : String) (now : ℚ) (adapter : Adapter) :
    Adapter × Bool :=
  let (attached, isAttached) :=
    match adapter.keyPool with
    | some pool => ({ adapter with keyPool := some (pool.addKey key none now).1 }, true)
    | none => adapter.addRuntimeKey key now
  if isAttached then
    ({ attached with
        keyPool := attached.keyPool.map fun pool =>
          (pool.snapshotKeys.filter fun existing =>
            existing ≠ key && envKeyHash existing ∈ registry.disabledEnvKeyHashes).foldl
              (fun pool existing => (pool.removeKey existing now).1) pool }, true)
  else (attached, false)

def addKeyToProvider (registry : Registry) (key : String) (minRole : Option String) (now : ℚ) :
    Registry × ℕ :=
  let registry := { registry with
    dbKeyMinRoles :=
      match minRole with
      | none => registry.dbKeyMinRoles
      | some minRole => recordDeclaration registry.dbKeyMinRoles key minRole }
  let moved := registry.adapters.map fun adapter =>
    if adapter.id ∈ registry.dbInjectionDisabledAdapterIds then (adapter, false)
    else registry.attachKeyToAdapter envKeyHash key now adapter
  (applyMinRoles envKeyHash
    { registry with
      adapters := moved.map Prod.fst
      dbInjectedKeys := insert key registry.dbInjectedKeys
      added := insert key registry.added } now,
    moved.countP Prod.snd)

def removeKeyFromPools (registry : Registry) (key : String) (now : ℚ) : Registry × ℕ :=
  let moved := registry.adapters.map fun adapter => adapter.removeKey key now
  ({ registry with adapters := moved.map Prod.fst }, moved.countP Prod.snd)

def removeKeyFromProvider (registry : Registry) (key : String) (now : ℚ) : Registry × ℕ :=
  if key ∉ registry.dbInjectedKeys then (registry, 0)
  else
    { registry with
      dbInjectedKeys := registry.dbInjectedKeys.erase key }.removeKeyFromPools key now

def disableEnvKeyForProvider (registry : Registry) (key keyHash : String) (now : ℚ) :
    Registry × ℕ :=
  let moved := registry.adapters.map fun adapter =>
    if adapter.keyPool.isNone && key ∉ adapter.gatherStaticKeys then (adapter, false)
    else adapter.ensureKeyPool.removeKey key now
  (applyMinRoles envKeyHash
    { registry with
      adapters := moved.map Prod.fst
      disabledEnvKeyHashes := insert keyHash registry.disabledEnvKeyHashes
      added := registry.added.erase key } now,
    moved.countP Prod.snd)

def findEnvKeyByHash (registry : Registry) (keyHash : String) : Option String :=
  (registry.adapters.flatMap Adapter.gatherStaticKeys).find? fun raw => envKeyHash raw = keyHash

def enableEnvKeyForProvider (registry : Registry) (keyHash : String) (now : ℚ) : Registry × ℕ :=
  let registry := { registry with
    disabledEnvKeyHashes := registry.disabledEnvKeyHashes.erase keyHash }
  match registry.findEnvKeyByHash envKeyHash keyHash with
  | none => (registry, 0)
  | some raw =>
    let moved := registry.adapters.map fun adapter =>
      if raw ∉ adapter.gatherStaticKeys then (adapter, false)
      else
        let adapter := adapter.ensureKeyPool
        match adapter.keyPool with
        | none => (adapter, false)
        | some pool => ({ adapter with keyPool := some (pool.addKey raw none now).1 }, true)
    (applyMinRoles envKeyHash { registry with adapters := moved.map Prod.fst } now,
      moved.countP Prod.snd)

/-- One adapter of `enforce_disabled_static_keys`. -/
def enforceOnAdapter (disabledHashes : Finset String) (now : ℚ) (adapter : Adapter) : Adapter :=
  let adapter :=
    if adapter.keyPool.isNone && adapter.gatherStaticKeys.any fun key =>
        envKeyHash key ∈ disabledHashes then adapter.ensureKeyPool
    else adapter
  { adapter with
    keyPool := adapter.keyPool.map fun pool =>
      (pool.snapshotKeys.filter fun existing => envKeyHash existing ∈ disabledHashes).foldl
        (fun pool existing => (pool.removeKey existing now).1) pool }

def enforceDisabledStaticKeys (registry : Registry) (disabledHashes : Finset String) (now : ℚ) :
    Registry :=
  if disabledHashes = ∅ then registry
  else
    applyMinRoles envKeyHash
      { registry with
        adapters := registry.adapters.map (enforceOnAdapter envKeyHash disabledHashes now) } now

def step (registry : Registry) (operation : KeyOperation × ℚ) : Option Registry :=
  some <| match operation with
  | (.registerAdapter adapter allowDbKeyInjection, now) =>
    registry.registerAdapterForProvider envKeyHash adapter allowDbKeyInjection now
  | (.unregisterAdapter id, _) => registry.unregisterAdapterForProvider id
  | (.loadEnvKeyMinRoles roles, now) => registry.loadEnvKeyMinRoles envKeyHash roles now
  | (.loadDbKeyMinRoles roles, now) => registry.loadDbKeyMinRoles envKeyHash roles now
  | (.setEnvKeyMinRole keyHash minRole, now) =>
    (registry.setEnvKeyMinRole envKeyHash keyHash minRole now).1
  | (.declareDbKeyMinRoleNoRelax rawKey minRole, now) =>
    (registry.declareDbKeyMinRoleNoRelax envKeyHash rawKey minRole now).1
  | (.addKey key minRole, now) => (registry.addKeyToProvider envKeyHash key minRole now).1
  | (.removeKey key, now) => (registry.removeKeyFromProvider key now).1
  | (.removeKeyFromPools key, now) => (registry.removeKeyFromPools key now).1
  | (.disableEnvKey key keyHash, now) =>
    (registry.disableEnvKeyForProvider envKeyHash key keyHash now).1
  | (.enableEnvKey keyHash, now) => (registry.enableEnvKeyForProvider envKeyHash keyHash now).1
  | (.enforceDisabledStaticKeys disabledHashes, now) =>
    registry.enforceDisabledStaticKeys envKeyHash disabledHashes now

def machine : Machine Registry (KeyOperation × ℚ) where
  step := step envKeyHash

end Registry

end HybridInference.Keys
