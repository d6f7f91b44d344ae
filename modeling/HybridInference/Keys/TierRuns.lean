import HybridInference.Keys.TierSweep

/-!
# Reservations over every run of the registry

Every operation that can create a pool, attach a key or change a declaration ends in the
sweep, and the others take keys away, so the tiers hold after each of them. A disabled key
comes back only by being enabled or added.
-/

namespace HybridInference.Keys

open Library

namespace Registry

variable {envKeyHash : String → String} {registry : Registry} {now : ℚ}

/-- Every adapter's keys are distinct, in their tiers and enabled. -/
structure RegistrySound (envKeyHash : String → String) (registry : Registry) : Prop where
  distinct : ∀ adapter ∈ registry.adapters, adapter.Distinct
  tiered : ∀ adapter ∈ registry.adapters, Tiered envKeyHash registry adapter
  enabled : ∀ adapter ∈ registry.adapters, Enabled envKeyHash registry adapter

theorem applyMinRoles_sound (distinct : ∀ adapter ∈ registry.adapters, adapter.Distinct)
    (enabled : ∀ adapter ∈ registry.adapters, Enabled envKeyHash registry adapter) :
    RegistrySound envKeyHash (registry.applyMinRoles envKeyHash now) := by
  have cases {adapter : Adapter}
      (member : adapter ∈ (registry.applyMinRoles envKeyHash now).adapters) :
      ∃ earlier ∈ registry.adapters, registry.applyToAdapter envKeyHash now earlier = adapter :=
    List.mem_map.mp member
  refine ⟨?_, ?_, ?_⟩
  · intro adapter member
    rcases cases member with ⟨earlier, isEarlier, rfl⟩
    exact (applyToAdapter_narrowed (distinct earlier isEarlier)).distinct
      (distinct earlier isEarlier)
  · intro adapter member
    rcases cases member with ⟨earlier, isEarlier, rfl⟩
    have tiered : Tiered envKeyHash registry (registry.applyToAdapter envKeyHash now earlier) :=
      applyToAdapter_tiered (distinct earlier isEarlier)
    exact ⟨tiered.live, tiered.static⟩
  · intro adapter member
    rcases cases member with ⟨earlier, isEarlier, rfl⟩
    have kept : Enabled envKeyHash registry (registry.applyToAdapter envKeyHash now earlier) :=
      (enabled earlier isEarlier).narrowed (applyToAdapter_narrowed (distinct earlier isEarlier))
    exact ⟨kept.live⟩

theorem RegistrySound.narrow (sound : RegistrySound envKeyHash registry)
    {change : Adapter → Adapter}
    (narrowed : ∀ adapter ∈ registry.adapters, Adapter.Narrowed adapter (change adapter)) :
    (∀ adapter ∈ registry.adapters.map change, adapter.Distinct) ∧
      ∀ adapter ∈ registry.adapters.map change, Enabled envKeyHash registry adapter := by
  constructor
  · intro adapter member
    rcases List.mem_map.mp member with ⟨earlier, isEarlier, rfl⟩
    exact (narrowed earlier isEarlier).distinct (sound.distinct earlier isEarlier)
  · intro adapter member
    rcases List.mem_map.mp member with ⟨earlier, isEarlier, rfl⟩
    exact (sound.enabled earlier isEarlier).narrowed (narrowed earlier isEarlier)

variable {adapter : Adapter}

theorem holdsNone_iff : registry.holdsNone envKeyHash adapter = true ↔
    ∀ key, adapter.Serves key → envKeyHash key ∉ registry.disabledEnvKeyHashes := by
  unfold holdsNone Adapter.Serves
  cases adapter.keyPool with
  | none => simp
  | some pool => simp only [List.all_eq_true, decide_eq_true_eq, KeyPool.mem_snapshotKeys]

theorem register_sound {allowDbKeyInjection : Bool}
    (sound : RegistrySound envKeyHash registry) (distinct : adapter.Distinct) :
    RegistrySound envKeyHash
      (registry.registerAdapterForProvider envKeyHash adapter allowDbKeyInjection now) := by
  have cases {other : Adapter}
      (member : other ∈ if registry.adapters.any fun other => other.id = adapter.id then
          registry.adapters
        else registry.adapters ++
          [{ adapter with heldNone := registry.holdsNone envKeyHash adapter }]) :
      other ∈ registry.adapters ∨
        other = { adapter with heldNone := registry.holdsNone envKeyHash adapter } := by
    split_ifs at member
    · exact Or.inl member
    · simpa using member
  refine applyMinRoles_sound ?_ ?_
  · intro other member
    rcases cases member with earlier | rfl
    · exact sound.distinct other earlier
    · exact distinct
  · intro other member
    rcases cases member with earlier | rfl
    · exact ⟨(sound.enabled other earlier).live⟩
    · constructor
      intro heldNone key serves disabled
      exact absurd disabled (holdsNone_iff.mp heldNone key serves)

theorem unregister_sound {id : ℕ} (sound : RegistrySound envKeyHash registry) :
    RegistrySound envKeyHash (registry.unregisterAdapterForProvider id) := by
  have earlier {adapter : Adapter}
      (member : adapter ∈ (registry.unregisterAdapterForProvider id).adapters) :
      adapter ∈ registry.adapters := (List.mem_filter.mp member).1
  refine ⟨?_, ?_, ?_⟩
  · exact fun adapter member => sound.distinct adapter (earlier member)
  · intro adapter member
    have tiered := sound.tiered adapter (earlier member)
    exact ⟨tiered.live, tiered.static⟩
  · exact fun adapter member => ⟨(sound.enabled adapter (earlier member)).live⟩

theorem declare_sound {envKeyMinRoles dbKeyMinRoles : Dict String String}
    (sound : RegistrySound envKeyHash registry) :
    RegistrySound envKeyHash (applyMinRoles envKeyHash
      { registry with
        envKeyMinRoles := envKeyMinRoles
        dbKeyMinRoles := dbKeyMinRoles } now) :=
  applyMinRoles_sound sound.distinct fun adapter member =>
    ⟨(sound.enabled adapter member).live⟩

variable {key : String}

theorem removeKeyFromPools_sound (sound : RegistrySound envKeyHash registry) :
    RegistrySound envKeyHash (registry.removeKeyFromPools key now).1 := by
  have moved : (registry.removeKeyFromPools key now).1.adapters =
      registry.adapters.map fun adapter => (adapter.removeKey key now).1 :=
    List.map_map
  have narrowed := sound.narrow (fun adapter member =>
    @Adapter.removeKey_narrowed adapter key now (sound.distinct adapter member))
  refine ⟨moved ▸ narrowed.1, ?_, ?_⟩
  · rw [moved]
    intro adapter member
    rcases List.mem_map.mp member with ⟨earlier, isEarlier, rfl⟩
    have tiered := sound.tiered earlier isEarlier
    unfold Adapter.removeKey
    split
    · exact ⟨tiered.live, tiered.static⟩
    · next pool isPool =>
      refine ⟨?_, fun none => by cases none⟩
      intro changed isChanged state live isLive
      cases isChanged
      exact tiered.live pool isPool state (KeyPool.live_of_removeKey
        (sound.distinct earlier isEarlier pool isPool) live isLive).1 isLive
  · rw [moved]
    exact fun adapter member => ⟨(narrowed.2 adapter member).live⟩

theorem removeKey_sound (sound : RegistrySound envKeyHash registry) :
    RegistrySound envKeyHash (registry.removeKeyFromProvider key now).1 := by
  unfold removeKeyFromProvider
  split_ifs
  · apply removeKeyFromPools_sound
    refine ⟨sound.distinct, ?_, fun adapter member => ⟨(sound.enabled adapter member).live⟩⟩
    intro adapter member
    have tiered := sound.tiered adapter member
    exact ⟨tiered.live, tiered.static⟩
  · exact sound

theorem dropped_live {pool : KeyPool} {hashes : Finset String} {state : KeyState}
    (distinct : (pool.keys.map KeyState.key).Nodup)
    (live : state ∈ ((pool.snapshotKeys.filter fun existing =>
      existing ≠ key && envKeyHash existing ∈ hashes).foldl
        (fun pool existing => (pool.removeKey existing now).1) pool).keys)
    (isLive : state.removed = false) (disabled : envKeyHash state.key ∈ hashes) :
    state.key = key := by
  rcases KeyPool.live_of_foldl_removeKey distinct live isLive with ⟨earlier, kept⟩
  by_contra different
  apply kept
  rw [List.mem_filter]
  exact ⟨KeyPool.mem_snapshotKeys.mpr ⟨state, earlier, isLive, rfl⟩, by simp [different, disabled]⟩

theorem attach_served (distinct : adapter.Distinct) :
    (registry.attachKeyToAdapter envKeyHash key now adapter).1 = adapter ∨
      (registry.attachKeyToAdapter envKeyHash key now adapter).1.Distinct ∧
        (registry.attachKeyToAdapter envKeyHash key now adapter).1.keyPool ≠ none ∧
        ∀ other, (registry.attachKeyToAdapter envKeyHash key now adapter).1.Serves other →
          envKeyHash other ∈ registry.disabledEnvKeyHashes → other = key := by
  have drops {attached : Adapter} {pool : KeyPool} (isPool : attached.keyPool = some pool)
      (isDistinct : (pool.keys.map KeyState.key).Nodup) {next : Adapter}
      (isNext : next = { attached with
        keyPool := attached.keyPool.map fun pool =>
          (pool.snapshotKeys.filter fun existing =>
            existing ≠ key && envKeyHash existing ∈ registry.disabledEnvKeyHashes).foldl
              (fun pool existing => (pool.removeKey existing now).1) pool }) :
      next.Distinct ∧ next.keyPool ≠ none ∧
        ∀ other, next.Serves other → envKeyHash other ∈ registry.disabledEnvKeyHashes →
          other = key := by
    rw [isPool, Option.map_some] at isNext
    subst isNext
    refine ⟨?_, by simp, ?_⟩
    · rintro changed isChanged
      cases isChanged
      exact KeyPool.foldl_removeKey_distinct isDistinct
    · rintro other ⟨state, live, isLive, rfl⟩ disabled
      exact dropped_live isDistinct live isLive disabled
  unfold attachKeyToAdapter
  rcases isPool : adapter.keyPool with _ | pool
  · simp only [Adapter.addRuntimeKey, isPool]
    by_cases blank : stripKey key = ""
    · rw [if_pos blank]
      exact Or.inl rfl
    · rw [if_neg blank]
      exact Or.inr (drops rfl (KeyPool.init_distinct ..) rfl)
  · right
    exact drops rfl ((KeyPool.addKey_administered pool key none now).distinct
      (distinct pool isPool)) rfl

theorem attachAll_sound (distinct : ∀ adapter ∈ registry.adapters, adapter.Distinct)
    (enabled : ∀ adapter ∈ registry.adapters, Enabled envKeyHash registry adapter)
    (member : adapter ∈ (registry.adapters.map fun adapter =>
      if adapter.id ∈ registry.dbInjectionDisabledAdapterIds then (adapter, false)
      else registry.attachKeyToAdapter envKeyHash key now adapter).map Prod.fst) :
    adapter.Distinct ∧
      Enabled envKeyHash { registry with added := insert key registry.added } adapter := by
  simp only [List.map_map, List.mem_map, Function.comp_apply] at member
  rcases member with ⟨earlier, isEarlier, rfl⟩
  have kept : Enabled envKeyHash { registry with added := insert key registry.added } earlier :=
    ⟨fun heldNone other serves disabled =>
      have before := (enabled earlier isEarlier).live heldNone other serves disabled
      ⟨before.1, Finset.mem_insert_of_mem before.2⟩⟩
  split_ifs
  · exact ⟨distinct earlier isEarlier, kept⟩
  · rcases attach_served (distinct earlier isEarlier) with same | ⟨isDistinct, pooled, served⟩
    · rw [same]
      exact ⟨distinct earlier isEarlier, kept⟩
    · refine ⟨isDistinct, ⟨?_⟩⟩
      intro _ other serves disabled
      rw [served other serves disabled]
      exact ⟨pooled, Finset.mem_insert_self ..⟩

theorem addKey_sound {minRole : Option String} (sound : RegistrySound envKeyHash registry) :
    RegistrySound envKeyHash (registry.addKeyToProvider envKeyHash key minRole now).1 := by
  refine applyMinRoles_sound ?_ ?_
  · intro adapter member
    exact (attachAll_sound sound.distinct
      (fun other isOther => ⟨(sound.enabled other isOther).live⟩) member).1
  · intro adapter member
    have enabled := (attachAll_sound sound.distinct
      (fun other isOther => ⟨(sound.enabled other isOther).live⟩) member).2
    exact ⟨enabled.live⟩

theorem disableEnvKey_sound (injective : Function.Injective envKeyHash)
    (sound : RegistrySound envKeyHash registry) :
    RegistrySound envKeyHash
      (registry.disableEnvKeyForProvider envKeyHash key (envKeyHash key) now).1 := by
  have moved {adapter : Adapter} (isDistinct : adapter.Distinct) :
      Adapter.Narrowed adapter (if adapter.keyPool.isNone && key ∉ adapter.gatherStaticKeys then
        (adapter, false) else adapter.ensureKeyPool.removeKey key now).1 ∧
      ¬ (if adapter.keyPool.isNone && key ∉ adapter.gatherStaticKeys then
        (adapter, false) else adapter.ensureKeyPool.removeKey key now).1.Serves key := by
    have promoted := adapter.ensureKeyPool_narrowed
    split_ifs with skipped
    · simp only [Bool.and_eq_true, Option.isNone_iff_eq_none, decide_eq_true_eq] at skipped
      refine ⟨.refl adapter, ?_⟩
      simp only [Adapter.Serves, skipped.1]
      exact skipped.2
    · have pooled : adapter.ensureKeyPool.keyPool ≠ none := by
        by_cases isPooled : adapter.keyPool = none
        · have static : key ∈ adapter.gatherStaticKeys := by
            by_contra notStatic
            exact skipped (by simp [isPooled, notStatic])
          exact Adapter.ensureKeyPool_pooled static
        · exact promoted.pooled isPooled
      exact ⟨promoted.trans (Adapter.removeKey_narrowed (promoted.distinct isDistinct)),
        Adapter.not_serves_of_removeKey (promoted.distinct isDistinct) pooled⟩
  unfold disableEnvKeyForProvider
  dsimp only
  refine applyMinRoles_sound ?_ ?_
  · intro adapter member
    simp only [List.map_map, List.mem_map, Function.comp_apply] at member
    rcases member with ⟨earlier, isEarlier, rfl⟩
    exact (moved (sound.distinct earlier isEarlier)).1.distinct (sound.distinct earlier isEarlier)
  · intro adapter member
    simp only [List.map_map, List.mem_map, Function.comp_apply] at member
    rcases member with ⟨earlier, isEarlier, rfl⟩
    rcases moved (sound.distinct earlier isEarlier) with ⟨narrowed, gone⟩
    constructor
    intro heldNone other serves disabled
    have different : other ≠ key := fun same => gone (same ▸ serves)
    have before := ((sound.enabled earlier isEarlier).narrowed narrowed).live heldNone other serves
      ((Finset.mem_insert.mp disabled).resolve_left fun same => different (injective same))
    exact ⟨before.1, Finset.mem_erase.mpr ⟨different, before.2⟩⟩

theorem enableEnvKey_sound {keyHash : String} (sound : RegistrySound envKeyHash registry) :
    RegistrySound envKeyHash (registry.enableEnvKeyForProvider envKeyHash keyHash now).1 := by
  unfold enableEnvKeyForProvider
  dsimp only
  split
  · refine ⟨sound.distinct, ?_, ?_⟩
    · intro adapter member
      have tiered := sound.tiered adapter member
      exact ⟨tiered.live, tiered.static⟩
    · intro adapter member
      constructor
      intro heldNone key serves disabled
      exact (sound.enabled adapter member).live heldNone key serves
        (Finset.mem_of_mem_erase disabled)
  · next raw found =>
    have isRaw : envKeyHash raw = keyHash := by simpa using List.find?_some found
    have readded {adapter : Adapter} (isDistinct : adapter.Distinct)
        (static : raw ∈ adapter.gatherStaticKeys) :
        ∃ pool, adapter.ensureKeyPool.keyPool = some pool ∧
          ((pool.addKey raw none now).1.keys.map KeyState.key).Nodup ∧
          ∀ state ∈ (pool.addKey raw none now).1.keys, state.removed = false →
            adapter.Serves state.key ∨ state.key = raw := by
      have promoted := adapter.ensureKeyPool_narrowed
      rcases Option.ne_none_iff_exists'.mp (Adapter.ensureKeyPool_pooled static) with ⟨pool, isPool⟩
      refine ⟨pool, isPool, (KeyPool.addKey_administered pool raw none now).distinct
        (promoted.distinct isDistinct pool isPool), ?_⟩
      intro state member isLive
      rcases KeyPool.live_of_addKey member isLive with earlier | same
      · left
        apply promoted.serves
        simp only [Adapter.Serves, isPool]
        exact ⟨state, earlier, isLive, rfl⟩
      · exact Or.inr same
    refine applyMinRoles_sound ?_ ?_
    · intro adapter member
      simp only [List.map_map, List.mem_map, Function.comp_apply] at member
      rcases member with ⟨earlier, isEarlier, rfl⟩
      split_ifs with static
      · rcases readded (sound.distinct earlier isEarlier) static with ⟨pool, isPool, isDistinct, -⟩
        simp only [isPool]
        intro changed isChanged
        cases isChanged
        exact isDistinct
      · exact sound.distinct earlier isEarlier
    · intro adapter member
      simp only [List.map_map, List.mem_map, Function.comp_apply] at member
      rcases member with ⟨earlier, isEarlier, rfl⟩
      have enabled := sound.enabled earlier isEarlier
      split_ifs with static
      · rcases readded (sound.distinct earlier isEarlier) static with ⟨pool, isPool, -, served⟩
        simp only [isPool]
        constructor
        rintro heldNone key ⟨state, member, isLive, rfl⟩ disabled
        refine ⟨Option.some_ne_none _, ?_⟩
        rcases served state member isLive with serves | same
        · have kept : earlier.heldNone = true :=
            earlier.ensureKeyPool_narrowed.heldNone.symm.trans heldNone
          exact (enabled.live kept _ serves (Finset.mem_of_mem_erase disabled)).2
        · rw [same, isRaw] at disabled
          exact absurd rfl (Finset.ne_of_mem_erase disabled)
      · constructor
        intro heldNone key serves disabled
        exact enabled.live heldNone key serves (Finset.mem_of_mem_erase disabled)

theorem enforce_sound {disabledHashes : Finset String} (sound : RegistrySound envKeyHash registry) :
    RegistrySound envKeyHash
      (registry.enforceDisabledStaticKeys envKeyHash disabledHashes now) := by
  have removes {adapter : Adapter} (isDistinct : adapter.Distinct) :
      Adapter.Narrowed adapter { adapter with
        keyPool := adapter.keyPool.map fun pool =>
          (pool.snapshotKeys.filter fun existing => envKeyHash existing ∈ disabledHashes).foldl
            (fun pool existing => (pool.removeKey existing now).1) pool } := by
    rcases isPool : adapter.keyPool with _ | pool
    · rw [Option.map_none, ← isPool]
      exact .refl adapter
    · refine Adapter.narrowed_pool isPool ?_ KeyPool.foldl_removeKey_distinct isDistinct
      intro distinct state member isLive
      exact ⟨state, (KeyPool.live_of_foldl_removeKey distinct member isLive).1, isLive, rfl⟩
  have narrowed : ∀ adapter ∈ registry.adapters,
      Adapter.Narrowed adapter (enforceOnAdapter envKeyHash disabledHashes now adapter) := by
    intro adapter member
    have isDistinct := sound.distinct adapter member
    unfold enforceOnAdapter
    dsimp only
    split_ifs
    · have promoted := adapter.ensureKeyPool_narrowed
      exact promoted.trans (removes (promoted.distinct isDistinct))
    · exact removes isDistinct
  unfold enforceDisabledStaticKeys
  split_ifs
  · exact sound
  · have kept := sound.narrow narrowed
    exact applyMinRoles_sound kept.1 fun adapter member => ⟨(kept.2 adapter member).live⟩

def Proper (envKeyHash : String → String) : KeyOperation → Prop
  | .registerAdapter adapter _ => adapter.Distinct
  | .disableEnvKey key keyHash => keyHash = envKeyHash key
  | _ => True

/-- One operation keeps the tiers. -/
theorem RegistrySound.step {operation : KeyOperation × ℚ} {next : Registry}
    (injective : Function.Injective envKeyHash) (sound : RegistrySound envKeyHash registry)
    (proper : Proper envKeyHash operation.1)
    (stepped : (machine envKeyHash).step registry operation = some next) :
    RegistrySound envKeyHash next := by
  rcases operation with ⟨operation, now⟩
  cases operation with
  | registerAdapter adapter allowDbKeyInjection =>
    cases stepped
    exact register_sound sound proper
  | unregisterAdapter id =>
    cases stepped
    exact unregister_sound sound
  | loadEnvKeyMinRoles roles | loadDbKeyMinRoles roles | setEnvKeyMinRole keyHash minRole
  | declareDbKeyMinRoleNoRelax rawKey minRole =>
    cases stepped
    exact declare_sound sound
  | addKey key minRole =>
    cases stepped
    exact addKey_sound sound
  | removeKey key =>
    cases stepped
    exact removeKey_sound sound
  | removeKeyFromPools key =>
    cases stepped
    exact removeKeyFromPools_sound sound
  | disableEnvKey key keyHash =>
    have same : keyHash = envKeyHash key := proper
    subst same
    cases stepped
    exact disableEnvKey_sound injective sound
  | enableEnvKey keyHash =>
    cases stepped
    exact enableEnvKey_sound sound
  | enforceDisabledStaticKeys disabledHashes =>
    cases stepped
    exact enforce_sound sound

theorem roleRank_maxRole (first second : String) :
    roleRank (maxRole first second) = max (roleRank first) (roleRank second) := by
  unfold maxRole
  split_ifs with below
  · rw [max_eq_right below.le]
  · rw [max_eq_left (not_lt.mp below)]

theorem rank_tierOf (key : String) :
    (registry.tierOf envKeyHash key).rank = roleRank (registry.resolveMinRole envKeyHash key) := rfl

theorem declared_le_tierOf {key role : String}
    (declared : declaredRole registry.dbKeyMinRoles key = some role ∨
      declaredRole registry.envKeyMinRoles (envKeyHash key) = some role) :
    roleRank role ≤ (registry.tierOf envKeyHash key).rank := by
  rw [rank_tierOf, resolveMinRole]
  split
  · next noRow noEnv =>
    rw [noRow, noEnv] at declared
    rcases declared with none | none <;> cases none
  · next other row noEnv =>
    rw [row, noEnv] at declared
    rcases declared with same | none
    · cases same
      exact le_refl _
    · cases none
  · next other noRow env =>
    rw [noRow, env] at declared
    rcases declared with none | same
    · cases none
    · cases same
      exact le_refl _
  · next first second row env =>
    rw [row, env] at declared
    rw [roleRank_maxRole]
    rcases declared with same | same
    · cases same
      exact le_max_left _ _
    · cases same
      exact le_max_right _ _

theorem tierOf_declared (key : String) : registry.tierOf envKeyHash key = .free ∨ ∃ role,
      (declaredRole registry.dbKeyMinRoles key = some role ∨
        declaredRole registry.envKeyMinRoles (envKeyHash key) = some role) ∧
      registry.tierOf envKeyHash key = normalizeMinRole (some role) := by
  unfold tierOf resolveMinRole
  split
  · exact Or.inl rfl
  · next role row _ => exact Or.inr ⟨role, Or.inl row, rfl⟩
  · next role _ env => exact Or.inr ⟨role, Or.inr env, rfl⟩
  · next first second row env =>
    right
    unfold maxRole
    split_ifs
    · exact ⟨second, Or.inr env, rfl⟩
    · exact ⟨first, Or.inl row, rfl⟩

/-- What the tiers promise of one adapter. -/
structure Enforced (envKeyHash : String → String) (registry : Registry) (adapter : Adapter) :
    Prop where
  tiers : ∀ pool, adapter.keyPool = some pool → ∀ state ∈ pool.keys, state.removed = false →
    state.minRole = registry.tierOf envKeyHash state.key
  strictest : ∀ key role, (declaredRole registry.dbKeyMinRoles key = some role ∨
      declaredRole registry.envKeyMinRoles (envKeyHash key) = some role) →
    roleRank role ≤ (registry.tierOf envKeyHash key).rank
  declared : ∀ key, registry.tierOf envKeyHash key = .free ∨ ∃ role,
    (declaredRole registry.dbKeyMinRoles key = some role ∨
      declaredRole registry.envKeyMinRoles (envKeyHash key) = some role) ∧
    registry.tierOf envKeyHash key = normalizeMinRole (some role)
  unreserved : adapter.keyPool = none → ∀ key ∈ adapter.gatherStaticKeys,
    registry.resolveMinRole envKeyHash key = defaultMinRole
  disabledLive : adapter.heldNone = true → ∀ pool, adapter.keyPool = some pool →
    ∀ state ∈ pool.keys, state.removed = false →
    envKeyHash state.key ∈ registry.disabledEnvKeyHashes → state.key ∈ registry.added
  disabledStatic : adapter.heldNone = true → adapter.keyPool = none →
    ∀ key ∈ adapter.gatherStaticKeys, envKeyHash key ∉ registry.disabledEnvKeyHashes

/-- Over every run that starts with an empty registry. -/
theorem key_tiers_enforced (envKeyHash : String → String)
    (injective : Function.Injective envKeyHash) (operations : List (KeyOperation × ℚ))
    (proper : ∀ operation ∈ operations, Proper envKeyHash operation.1) (registry : Registry)
    (ran : (machine envKeyHash).run {} operations = some registry) :
    ∀ adapter ∈ registry.adapters, Enforced envKeyHash registry adapter := by
  have initial : RegistrySound envKeyHash {} := by
    refine ⟨?_, ?_, ?_⟩ <;> simp
  have sound : RegistrySound envKeyHash registry :=
    Machine.run_invariant_along (fun _ operation => Proper envKeyHash operation.1)
      (fun _ _ _ sound isProper stepped => sound.step injective isProper stepped)
      initial (Machine.along_of_forall_mem _ proper) ran
  intro adapter member
  have tiered := sound.tiered adapter member
  have enabled := sound.enabled adapter member
  refine ⟨tiered.live, fun _ _ declared => declared_le_tierOf declared, tierOf_declared,
    tiered.static, ?_, ?_⟩
  · intro heldNone pool isPool state live isLive disabled
    refine (enabled.live heldNone state.key ?_ disabled).2
    simp only [Adapter.Serves, isPool]
    exact ⟨state, live, isLive, rfl⟩
  · intro heldNone noPool key isStatic disabled
    refine (enabled.live heldNone key ?_ disabled).1 noPool
    simp only [Adapter.Serves, noPool]
    exact isStatic

def singleKeyAdapter : Adapter where
  id := 0
  apiKey := some "sk-one"
  apiKeys := []
  keyPoolProviderLabel := "provider"
  keyPool := none

def reservedThenDisabled : List (KeyOperation × ℚ) :=
  [(.registerAdapter singleKeyAdapter true, 0), (.setEnvKeyMinRole "sk-one" "pro", 1),
    (.disableEnvKey "sk-one" "sk-one", 2), (.addKey "sk-two" (some "internal"), 3)]

theorem key_tiers_enforced_reserved_then_disabled :
    ∃ registry, (machine id).run {} reservedThenDisabled = some registry ∧
      registry.adapters.map (fun adapter => adapter.keyPool.map KeyPool.snapshotMinRoles) =
        [some [("sk-two", .internal)]] ∧
      ∀ adapter ∈ registry.adapters, Enforced id registry adapter := by
  have ends : ((machine id).run {} reservedThenDisabled).map (fun registry =>
      registry.adapters.map fun adapter => adapter.keyPool.map KeyPool.snapshotMinRoles) =
      some [some [("sk-two", .internal)]] := by
    decide +kernel
  rcases Option.map_eq_some_iff.mp ends with ⟨registry, ran, pools⟩
  refine ⟨registry, ran, pools, key_tiers_enforced id Function.injective_id reservedThenDisabled ?_
    registry ran⟩
  intro operation member
  simp only [reservedThenDisabled, List.mem_cons, List.not_mem_nil, or_false] at member
  rcases member with rfl | rfl | rfl | rfl
  · intro pool isPool
    cases isPool
  · trivial
  · rfl
  · trivial

end Registry

end HybridInference.Keys
