import HybridInference.Keys.TierRuns

/-!
# What deleting a database key does to a configured one

A pool holds one slot for a raw key, whoever brought it. Whether a key came from the database is
read from the set of the values that were injected, so a deletion spares a configured key of the
same value only when that value is not in the set, or when nothing served it anyway.
-/

namespace HybridInference.Keys

open Library

/-- The operations on one provider. An adapter is registered with the pool of its constructor, which
has one slot for a key. -/
inductive ProviderOperation where
  | keys (operation : KeyOperation)
      (oneSlot : ∀ adapter allow, operation = .registerAdapter adapter allow → adapter.Distinct)
  | markDbKey (key : String)
  | unregisterKnownProvider
  | loadDisabledEnvKeyHashes (hashes : Finset String)

namespace Registry

variable (envKeyHash : String → String)

def markDbKeyForProvider (registry : Registry) (key : String) : Registry :=
  { registry with dbInjectedKeys := insert key registry.dbInjectedKeys }

/-- `unregister_known_provider`: a provider with adapters stays as it is. -/
def unregisterKnownProvider (registry : Registry) : Registry :=
  if registry.adapters.isEmpty then
    { registry with
      dbInjectedKeys := ∅
      disabledEnvKeyHashes := ∅
      envKeyMinRoles := ∅
      dbKeyMinRoles := ∅ }
  else registry

/-- The hashes that `apply_db_keys_at_boot` finds in the store. -/
def loadDisabledEnvKeyHashes (registry : Registry) (hashes : Finset String) : Registry :=
  { registry with disabledEnvKeyHashes := hashes }

def providerMachine : Machine Registry (ProviderOperation × ℚ) where
  step registry operation :=
    match operation with
    | (.keys operation _, now) => registry.step envKeyHash (operation, now)
    | (.markDbKey key, _) => some (registry.markDbKeyForProvider key)
    | (.unregisterKnownProvider, _) => some registry.unregisterKnownProvider
    | (.loadDisabledEnvKeyHashes hashes, _) => some (registry.loadDisabledEnvKeyHashes hashes)

variable {envKeyHash} {registry next : Registry} {now : ℚ} {key : String}

def OneSlot (registry : Registry) : Prop := ∀ adapter ∈ registry.adapters, adapter.Distinct

theorem OneSlot.map {change : Adapter → Adapter} (oneSlot : registry.OneSlot)
    (kept : ∀ adapter, adapter.Distinct → (change adapter).Distinct)
    (moved : next.adapters = registry.adapters.map change) : next.OneSlot := by
  intro adapter member
  rw [moved] at member
  rcases List.mem_map.mp member with ⟨earlier, isEarlier, rfl⟩
  exact kept earlier (oneSlot earlier isEarlier)

theorem OneSlot.applyMinRoles (oneSlot : registry.OneSlot) :
    (registry.applyMinRoles envKeyHash now).OneSlot :=
  oneSlot.map (fun _ distinct => (applyToAdapter_narrowed distinct).distinct distinct) rfl

variable {adapter : Adapter}

theorem attach_distinct (distinct : adapter.Distinct) :
    (registry.attachKeyToAdapter envKeyHash key now adapter).1.Distinct := by
  have served : (registry.attachKeyToAdapter envKeyHash key now adapter).1 = adapter ∨ _ ∧ _ ∧ _ :=
    attach_served distinct
  rcases served with same | ⟨isDistinct, _⟩
  · rw [same]
    exact distinct
  · exact isDistinct

theorem enable_distinct (distinct : adapter.Distinct) :
    (if key ∉ adapter.gatherStaticKeys then (adapter, false)
      else match adapter.ensureKeyPool.keyPool with
      | none => (adapter.ensureKeyPool, false)
      | some pool => ({ adapter.ensureKeyPool with keyPool := some (pool.addKey key none now).1 },
          true)).1.Distinct := by
  have promoted := adapter.ensureKeyPool_narrowed.distinct distinct
  split_ifs
  · split
    · exact promoted
    · rename_i pool isPool
      rintro changed ⟨⟩
      exact (KeyPool.addKey_administered pool key none now).distinct (promoted pool isPool)
  · exact distinct

theorem enforce_distinct {hashes : Finset String} (distinct : adapter.Distinct) :
    (enforceOnAdapter envKeyHash hashes now adapter).Distinct := by
  have removes : ∀ promoted : Adapter, promoted.Distinct → Adapter.Distinct { promoted with
      keyPool := promoted.keyPool.map fun pool =>
        (pool.snapshotKeys.filter fun existing => envKeyHash existing ∈ hashes).foldl
          (fun pool existing => (pool.removeKey existing now).1) pool } := by
    intro promoted isDistinct changed isChanged
    rcases Option.map_eq_some_iff.mp isChanged with ⟨pool, isPool, rfl⟩
    exact KeyPool.foldl_removeKey_distinct (isDistinct pool isPool)
  unfold enforceOnAdapter
  split_ifs
  · exact removes _ (adapter.ensureKeyPool_narrowed.distinct distinct)
  · exact removes _ distinct

theorem removeKeyFromPools_adapters (registry : Registry) (key : String) (now : ℚ) :
    (registry.removeKeyFromPools key now).1.adapters =
      registry.adapters.map fun adapter => (adapter.removeKey key now).1 :=
  List.map_map

theorem removed_oneSlot {reduced : Registry} (oneSlot : reduced.OneSlot) :
    (reduced.removeKeyFromPools key now).1.OneSlot :=
  oneSlot.map (fun _ distinct => (Adapter.removeKey_narrowed distinct).distinct distinct)
    (removeKeyFromPools_adapters reduced key now)

theorem OneSlot.step {operation : KeyOperation} (oneSlot : registry.OneSlot)
    (registered : ∀ adapter allow, operation = .registerAdapter adapter allow → adapter.Distinct)
    (stepped : registry.step envKeyHash (operation, now) = some next) : next.OneSlot := by
  cases operation with
  | registerAdapter adapter allow =>
    cases stepped
    apply OneSlot.applyMinRoles
    intro other member
    dsimp only at member
    split_ifs at member
    · exact oneSlot other member
    · rcases List.mem_append.mp member with earlier | new
      · exact oneSlot other earlier
      · rw [List.mem_singleton.mp new]
        exact registered adapter allow rfl
  | unregisterAdapter id =>
    cases stepped
    intro adapter member
    exact oneSlot adapter (List.mem_filter.mp member).1
  | loadEnvKeyMinRoles roles | loadDbKeyMinRoles roles | setEnvKeyMinRole keyHash minRole
  | declareDbKeyMinRoleNoRelax rawKey minRole =>
    cases stepped
    exact OneSlot.applyMinRoles oneSlot
  | addKey added minRole =>
    cases stepped
    apply OneSlot.applyMinRoles
    refine OneSlot.map oneSlot (fun adapter distinct => ?_) List.map_map
    dsimp only [Function.comp_apply]
    split_ifs
    · exact distinct
    · exact attach_distinct distinct
  | removeKey removed =>
    cases stepped
    change (registry.removeKeyFromProvider removed now).1.OneSlot
    unfold removeKeyFromProvider
    split_ifs
    · exact removed_oneSlot oneSlot
    · exact oneSlot
  | removeKeyFromPools removed =>
    cases stepped
    exact removed_oneSlot oneSlot
  | disableEnvKey disabled keyHash =>
    cases stepped
    apply OneSlot.applyMinRoles
    refine OneSlot.map oneSlot (fun adapter distinct => ?_) List.map_map
    dsimp only [Function.comp_apply]
    split_ifs
    · exact distinct
    · have promoted := adapter.ensureKeyPool_narrowed.distinct distinct
      exact (Adapter.removeKey_narrowed promoted).distinct promoted
  | enableEnvKey keyHash =>
    cases stepped
    unfold enableEnvKeyForProvider
    dsimp only
    split
    · exact oneSlot
    · apply OneSlot.applyMinRoles
      exact OneSlot.map oneSlot (fun adapter distinct => enable_distinct distinct) List.map_map
  | enforceDisabledStaticKeys hashes =>
    cases stepped
    change (registry.enforceDisabledStaticKeys envKeyHash hashes now).OneSlot
    unfold enforceDisabledStaticKeys
    split_ifs
    · exact oneSlot
    · apply OneSlot.applyMinRoles
      exact OneSlot.map oneSlot (fun adapter distinct => enforce_distinct distinct) rfl

theorem oneSlot_of_run {past : List (ProviderOperation × ℚ)}
    (ran : (providerMachine envKeyHash).run {} past = some registry) : registry.OneSlot := by
  refine Machine.run_invariant ?_ (by simp [OneSlot]) ran
  rintro earlier ⟨operation, now⟩ next oneSlot stepped
  cases operation with
  | keys operation registered => exact OneSlot.step oneSlot registered stepped
  | markDbKey key =>
    cases stepped
    exact oneSlot
  | unregisterKnownProvider =>
    cases stepped
    unfold unregisterKnownProvider
    split_ifs <;> exact oneSlot
  | loadDisabledEnvKeyHashes hashes =>
    cases stepped
    exact oneSlot

def KeepsEnvKey (envKeyHash : String → String) (registry next : Registry) (key : String) : Prop :=
  ∀ (index : ℕ) (adapter after : Adapter), registry.adapters[index]? = some adapter →
    next.adapters[index]? = some after → key ∈ adapter.gatherStaticKeys →
    envKeyHash key ∉ registry.disabledEnvKeyHashes → (after.Serves key ↔ adapter.Serves key)

theorem removeKey_of_not_serves (idle : ¬adapter.Serves key) :
    (adapter.removeKey key now).1 = adapter := by
  unfold Adapter.removeKey
  cases isPool : adapter.keyPool with
  | none => rfl
  | some pool =>
    unfold Adapter.Serves at idle
    rw [isPool] at idle
    have missing : pool.findSlot (fun state => state.key = key && !state.removed) = none := by
      unfold KeyPool.findSlot
      rw [List.find?_eq_none]
      rintro ⟨state, index⟩ member
      rw [List.mem_zipIdx_iff_getElem?] at member
      intro found
      simp only [Bool.and_eq_true, decide_eq_true_eq, Bool.not_eq_true'] at found
      exact idle ⟨state, List.mem_of_getElem? member, found.2, found.1⟩
    dsimp only
    unfold KeyPool.removeKey
    rw [missing]
    rw [← isPool]

theorem removeKey_of_noPool (noPool : adapter.keyPool = none) :
    (adapter.removeKey key now).1 = adapter := by
  unfold Adapter.removeKey
  rw [noPool]

theorem removeKeyFromPools_getElem? {index : ℕ} {adapter after : Adapter}
    (before : registry.adapters[index]? = some adapter)
    (isAfter : (registry.removeKeyFromPools key now).1.adapters[index]? = some after) :
    after = (adapter.removeKey key now).1 := by
  rw [removeKeyFromPools_adapters, List.getElem?_map, before, Option.map_some,
    Option.some.injEq] at isAfter
  exact isAfter.symm

/-- A deletion cannot reach a configured key: it was not injected, is disabled, or no adapter
configured with it has a pool serving it. -/
def OutOfReach (envKeyHash : String → String) (registry : Registry) (key : String) : Prop :=
  key ∉ registry.dbInjectedKeys ∨ envKeyHash key ∈ registry.disabledEnvKeyHashes ∨
    ∀ adapter ∈ registry.adapters, key ∈ adapter.gatherStaticKeys →
      adapter.keyPool = none ∨ ¬adapter.Serves key

/-- After every run of operations, the deletion of a database key leaves the configured key as live
as it was exactly when it cannot reach it. -/
theorem deletion_keeps_env_key_iff (envKeyHash : String → String)
    (past : List (ProviderOperation × ℚ)) (registry : Registry)
    (ran : (providerMachine envKeyHash).run {} past = some registry) (key : String) (now : ℚ) :
    KeepsEnvKey envKeyHash registry (registry.removeKeyFromProvider key now).1 key ↔
      OutOfReach envKeyHash registry key := by
  have oneSlot := oneSlot_of_run ran
  constructor
  · intro keeps
    by_contra reached
    unfold OutOfReach at reached
    push Not at reached
    rcases reached with ⟨injected, enabled, adapter, member, static, pooled, serves⟩
    rcases List.getElem?_of_mem member with ⟨index, before⟩
    have isAfter : (registry.removeKeyFromProvider key now).1.adapters[index]? =
        some (adapter.removeKey key now).1 := by
      unfold removeKeyFromProvider
      rw [if_neg (not_not.mpr injected), removeKeyFromPools_adapters, List.getElem?_map, before]
      rfl
    exact Adapter.not_serves_of_removeKey (oneSlot adapter member) pooled
      ((keeps index adapter _ before isAfter static enabled).mpr serves)
  · rintro spared index adapter after before isAfter static enabled
    unfold removeKeyFromProvider at isAfter
    split_ifs at isAfter with injected
    · rw [removeKeyFromPools_getElem? before isAfter]
      rcases spared with absent | disabled | idle
      · exact absurd injected absent
      · exact absurd disabled enabled
      · rcases idle adapter (List.mem_of_getElem? before) static with noPool | unserved
        · rw [removeKey_of_noPool noPool]
        · rw [removeKey_of_not_serves unserved]
    · rw [before, Option.some.injEq] at isAfter
      rw [isAfter]

def markedKey : List (ProviderOperation × ℚ) :=
  [(.keys (.registerAdapter singleKeyAdapter true) (by rintro _ _ ⟨⟩ _ isPool; cases isPool), 0),
    (.markDbKey "sk-one", 1)]

theorem deletion_keeps_env_key_marked :
    ∃ registry, (providerMachine id).run {} markedKey = some registry ∧
      KeepsEnvKey id registry (registry.removeKeyFromProvider "sk-one" 2).1 "sk-one" := by
  have runs : ∃ registry, (providerMachine id).run {} markedKey = some registry := ⟨_, rfl⟩
  rcases runs with ⟨registry, ran⟩
  refine ⟨registry, ran, ?_⟩
  apply (deletion_keeps_env_key_iff id markedKey registry ran "sk-one" 2).mpr
  right
  right
  have pools : ∀ registry, (providerMachine id).run {} markedKey = some registry →
      registry.adapters.all (fun adapter => adapter.keyPool.isNone) = true := by
    rintro _ ⟨⟩
    decide +kernel
  intro adapter member _
  left
  exact Option.isNone_iff_eq_none.mp (List.all_eq_true.mp (pools registry ran) adapter member)

def addedKey : List (ProviderOperation × ℚ) :=
  [(.keys (.registerAdapter singleKeyAdapter true) (by rintro _ _ ⟨⟩ _ isPool; cases isPool), 0),
    (.keys (.addKey "sk-one" none) (by rintro _ _ ⟨⟩), 1)]

/-- Deleting a key that was added with an environment key's value takes the environment key. -/
theorem deletion_takes_env_key :
    ¬∀ past registry, (providerMachine id).run {} past = some registry → ∀ key now,
      KeepsEnvKey id registry (registry.removeKeyFromProvider key now).1 key := by
  intro all
  have taken : ∃ registry adapter after pool left_,
      (providerMachine id).run {} addedKey = some registry ∧ registry.adapters[0]? = some adapter ∧
        (registry.removeKeyFromProvider "sk-one" 2).1.adapters[0]? = some after ∧
        "sk-one" ∈ adapter.gatherStaticKeys ∧ "sk-one" ∉ registry.disabledEnvKeyHashes ∧
        adapter.keyPool = some pool ∧ after.keyPool = some left_ ∧
        "sk-one" ∈ pool.snapshotKeys ∧ "sk-one" ∉ left_.snapshotKeys :=
    ⟨_, _, _, _, _, rfl, rfl, rfl, by decide +kernel, by decide +kernel, rfl, rfl,
      by decide +kernel, by decide +kernel⟩
  rcases taken with ⟨registry, adapter, after, pool, left_, ran, before, isAfter, static, enabled,
    isPool, isLeft, live, gone⟩
  have keeps := all addedKey registry ran "sk-one" 2 0 adapter after before isAfter static enabled
  unfold Adapter.Serves at keeps
  rw [isPool, isLeft] at keeps
  exact gone (KeyPool.mem_snapshotKeys.mpr (keeps.mpr (KeyPool.mem_snapshotKeys.mp live)))

end Registry

end HybridInference.Keys
