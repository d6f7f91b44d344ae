import HybridInference.Keys.Tiers

/-!
# What the operations do to one adapter

The keys that an adapter can serve are the live keys of its pool, or without a pool its
static keys. The sweep leaves them as they are and gives each its tier; a promotion changes
how they are served and not which.
-/

namespace HybridInference.Keys

open Library

namespace KeyPool

variable {pool : KeyPool} {key : String} {now : ℚ} {state : KeyState}

theorem live_of_addKey (live : state ∈ (pool.addKey key none now).1.keys)
    (isLive : state.removed = false) : state ∈ pool.keys ∨ state.key = key := by
  unfold addKey at live
  split at live
  · next earlier index found =>
    rcases findSlot_eq_some found with ⟨-, same⟩
    have member : state ∈ pool.keys.set index
        { earlier with removed := false, minRole := tierOnAdd earlier none } := by
      split_ifs at live
      · exact live
      · exact live
    rcases List.mem_or_eq_of_mem_set member with earlierState | rfl
    · exact Or.inl earlierState
    · exact Or.inr (by simpa using same)
  · have member : state ∈ pool.keys ++ [{ key := key, minRole := normalizeMinRole none }] := live
    rcases List.mem_append.mp member with earlierState | isNew
    · exact Or.inl earlierState
    · rw [List.mem_singleton.mp isNew]
      exact Or.inr rfl

theorem live_of_setKeyMinRole {minRole : Option String}
    (live : state ∈ (pool.setKeyMinRole key minRole now).1.keys) (isLive : state.removed = false) :
    ∃ earlier ∈ pool.keys, earlier.removed = false ∧ earlier.key = state.key ∧
      (state.key = key → state.minRole = normalizeMinRole minRole) ∧
      (state.key ≠ key → state.minRole = earlier.minRole) := by
  unfold setKeyMinRole at live
  dsimp only at live
  split_ifs at live with changes
  · have member : state ∈ pool.keys.map fun state =>
        if retiers key (normalizeMinRole minRole) state then
          { state with minRole := normalizeMinRole minRole } else state := live
    rcases List.mem_map.mp member with ⟨earlier, isEarlier, rfl⟩
    by_cases retiered : retiers key (normalizeMinRole minRole) earlier = true
    · rw [if_pos retiered] at isLive ⊢
      simp only [retiers, Bool.and_eq_true, decide_eq_true_eq] at retiered
      exact ⟨earlier, isEarlier, isLive, rfl, fun _ => rfl,
        fun different => absurd retiered.1.1 different⟩
    · rw [if_neg retiered] at isLive ⊢
      refine ⟨earlier, isEarlier, isLive, rfl, ?_, fun _ => rfl⟩
      intro same
      simpa [retiers, same, isLive] using retiered
  · refine ⟨state, live, isLive, rfl, ?_, fun _ => rfl⟩
    intro same
    have unchanged : ¬ retiers key (normalizeMinRole minRole) state = true := by
      intro retiered
      exact changes (List.any_eq_true.mpr ⟨state, live, retiered⟩)
    simpa [retiers, same, isLive] using unchanged

theorem live_of_removeKey (distinct : (pool.keys.map KeyState.key).Nodup)
    (live : state ∈ (pool.removeKey key now).1.keys) (isLive : state.removed = false) :
    state ∈ pool.keys ∧ state.key ≠ key := by
  unfold removeKey at live
  split at live
  · next missing =>
    refine ⟨live, ?_⟩
    rintro same
    have other := findSlot_eq_none missing state live
    simp [same, isLive] at other
  · next earlier index found =>
    rcases findSlot_eq_some found with ⟨slot, same⟩
    simp only [Bool.and_eq_true, decide_eq_true_eq] at same
    have member : state ∈ pool.keys.set index { earlier with removed := true } := live
    rcases List.mem_iff_getElem?.mp member with ⟨other, atOther⟩
    rw [getElem?_set_of_some slot] at atOther
    split_ifs at atOther with here
    · cases atOther
      cases isLive
    · refine ⟨List.mem_of_getElem? atOther, ?_⟩
      intro sameKey
      have first : (pool.keys.map KeyState.key)[index]? = some key := by
        rw [List.getElem?_map, slot, Option.map_some, same.1]
      have second : (pool.keys.map KeyState.key)[other]? = some key := by
        rw [List.getElem?_map, atOther, Option.map_some, sameKey]
      exact here ((List.getElem?_inj (by simpa using (List.getElem?_eq_some_iff.mp first).1)
        distinct).mp (first.trans second.symm))

variable {keys : List String}

theorem live_of_init {label : String}
    (live : state ∈ (init keys label []).keys) : state.key ∈ keys ∧ state.removed = false := by
  have deduped : ∀ (rest kept : List String) (key : String),
      key ∈ rest.foldl (fun kept key => if kept.contains key then kept else kept ++ [key]) kept →
      key ∈ kept ∨ key ∈ rest := by
    intro rest
    induction rest with
    | nil => exact fun _ _ member => Or.inl member
    | cons first rest ih =>
      intro kept key member
      rw [List.foldl_cons] at member
      rcases ih _ key member with earlier | later
      · split_ifs at earlier
        · exact Or.inl earlier
        · rcases List.mem_append.mp earlier with isKept | isFirst
          · exact Or.inl isKept
          · rw [List.mem_singleton.mp isFirst]
            exact Or.inr (List.mem_cons_self ..)
      · exact Or.inr (List.mem_cons_of_mem _ later)
  simp only [init, List.mem_map] at live
  rcases live with ⟨key, isKey, rfl⟩
  rcases deduped keys [] key isKey with none | member
  · cases none
  · exact ⟨member, rfl⟩

section

variable (distinct : (pool.keys.map KeyState.key).Nodup)

include distinct

theorem removeKey_distinct : ((pool.removeKey key now).1.keys.map KeyState.key).Nodup :=
  (removeKey_administered pool key now).distinct distinct

theorem live_of_foldl_removeKey
    (live : state ∈ (keys.foldl (fun pool key => (pool.removeKey key now).1) pool).keys)
    (isLive : state.removed = false) : state ∈ pool.keys ∧ state.key ∉ keys := by
  induction keys generalizing pool with
  | nil => exact ⟨live, List.not_mem_nil⟩
  | cons first rest ih =>
    rcases ih (removeKey_distinct distinct) live with ⟨earlier, notLater⟩
    rcases live_of_removeKey distinct earlier isLive with ⟨before, different⟩
    refine ⟨before, ?_⟩
    rw [List.mem_cons, not_or]
    exact ⟨different, notLater⟩

theorem foldl_removeKey_distinct :
    (((keys.foldl fun pool key => (pool.removeKey key now).1) pool).keys.map
      KeyState.key).Nodup := by
  induction keys generalizing pool with
  | nil => exact distinct
  | cons first rest ih => exact ih (removeKey_distinct distinct)

end

theorem mem_snapshotKeys : key ∈ pool.snapshotKeys ↔
    ∃ state ∈ pool.keys, state.removed = false ∧ state.key = key := by
  simp [snapshotKeys, and_assoc]

end KeyPool

namespace Registry

variable {envKeyHash : String → String} {registry : Registry} {now : ℚ}

def tierOf (envKeyHash : String → String) (registry : Registry) (key : String) : Role :=
  normalizeMinRole (some (registry.resolveMinRole envKeyHash key))

theorem normalizeMinRole_name (role : Role) : normalizeMinRole (some role.name) = role := by
  simp [normalizeMinRole, roleOf_name]

theorem applyToPool_sound {pool : KeyPool} (distinct : (pool.keys.map KeyState.key).Nodup) :
    ((registry.applyToPool envKeyHash pool now).keys.map KeyState.key).Nodup ∧
      ∀ state ∈ (registry.applyToPool envKeyHash pool now).keys, state.removed = false →
        state.minRole = registry.tierOf envKeyHash state.key ∧
          ∃ earlier ∈ pool.keys, earlier.removed = false ∧ earlier.key = state.key := by
  have swept : ∀ (entries : List (String × Role)) (current : KeyPool),
      (current.keys.map KeyState.key).Nodup →
      (∀ state ∈ current.keys, state.removed = false →
        (state.minRole = registry.tierOf envKeyHash state.key ∨
          (state.key, state.minRole) ∈ entries) ∧
        ∃ earlier ∈ pool.keys, earlier.removed = false ∧ earlier.key = state.key) →
      ∀ next, entries.foldl (fun pool entry =>
        let resolved := registry.resolveMinRole envKeyHash entry.1
        if resolved ≠ entry.2.name then (pool.setKeyMinRole entry.1 (some resolved) now).1
        else pool) current = next →
      (next.keys.map KeyState.key).Nodup ∧ ∀ state ∈ next.keys, state.removed = false →
        state.minRole = registry.tierOf envKeyHash state.key ∧
          ∃ earlier ∈ pool.keys, earlier.removed = false ∧ earlier.key = state.key := by
    intro entries
    induction entries with
    | nil =>
      rintro current isDistinct sound next rfl
      refine ⟨isDistinct, ?_⟩
      intro state member isLive
      rcases sound state member isLive with ⟨tiered | none, earlier⟩
      · exact ⟨tiered, earlier⟩
      · cases none
    | cons entry rest ih =>
      rcases entry with ⟨key, role⟩
      intro current isDistinct sound next swept
      rw [List.foldl_cons] at swept
      dsimp only at swept
      by_cases same : registry.resolveMinRole envKeyHash key = role.name
      · rw [if_neg (not_not.mpr same)] at swept
        refine ih current isDistinct ?_ next swept
        intro state member isLive
        rcases sound state member isLive with ⟨tiered, earlier⟩
        refine ⟨?_, earlier⟩
        rcases tiered with tiered | listed
        · exact Or.inl tiered
        · rcases List.mem_cons.mp listed with here | later
          · simp only [Prod.mk.injEq] at here
            left
            rw [tierOf, here.1, here.2, same, normalizeMinRole_name]
          · exact Or.inr later
      · rw [if_pos same] at swept
        refine ih _ ((KeyPool.setKeyMinRole_administered current key _ now).distinct isDistinct)
          ?_ next swept
        intro state member isLive
        rcases KeyPool.live_of_setKeyMinRole member isLive with
          ⟨before, isBefore, wasLive, sameKey, retiered, kept⟩
        rcases sound before isBefore wasLive with ⟨tiered, earlier⟩
        rw [sameKey] at tiered earlier
        refine ⟨?_, earlier⟩
        by_cases isKey : state.key = key
        · left
          rw [retiered isKey, tierOf, isKey]
        · rw [kept isKey]
          rcases tiered with tiered | listed
          · exact Or.inl tiered
          · rcases List.mem_cons.mp listed with here | later
            · simp only [Prod.mk.injEq] at here
              exact absurd here.1 isKey
            · exact Or.inr later
  refine swept pool.snapshotMinRoles pool distinct ?_ _ rfl
  intro state member isLive
  refine ⟨Or.inr ?_, state, member, isLive, rfl⟩
  simp only [KeyPool.snapshotMinRoles, List.mem_map, List.mem_filter]
  exact ⟨state, ⟨member, by simp [isLive]⟩, rfl⟩

end Registry

namespace Adapter

variable {adapter next : Adapter} {key : String} {now : ℚ}

def Serves (adapter : Adapter) (key : String) : Prop :=
  match adapter.keyPool with
  | none => key ∈ adapter.gatherStaticKeys
  | some pool => ∃ state ∈ pool.keys, state.removed = false ∧ state.key = key

def Distinct (adapter : Adapter) : Prop :=
  ∀ pool, adapter.keyPool = some pool → (pool.keys.map KeyState.key).Nodup

/-- The adapter serves with no key that it did not serve with before. -/
structure Narrowed (adapter next : Adapter) : Prop where
  heldNone : next.heldNone = adapter.heldNone
  static : next.gatherStaticKeys = adapter.gatherStaticKeys
  serves : ∀ key, next.Serves key → adapter.Serves key
  pooled : adapter.keyPool ≠ none → next.keyPool ≠ none
  distinct : adapter.Distinct → next.Distinct

theorem Narrowed.refl (adapter : Adapter) : Narrowed adapter adapter :=
  ⟨rfl, rfl, fun _ serves => serves, fun pooled => pooled, fun distinct => distinct⟩

theorem Narrowed.trans {last : Adapter} (first : Narrowed adapter next)
    (second : Narrowed next last) : Narrowed adapter last :=
  ⟨second.heldNone.trans first.heldNone, second.static.trans first.static,
    fun key serves => first.serves key (second.serves key serves),
    fun pooled => second.pooled (first.pooled pooled),
    fun distinct => second.distinct (first.distinct distinct)⟩

theorem narrowed_pool {pool changed : KeyPool} (isPool : adapter.keyPool = some pool)
    (live : (pool.keys.map KeyState.key).Nodup → ∀ state ∈ changed.keys, state.removed = false →
      ∃ earlier ∈ pool.keys, earlier.removed = false ∧ earlier.key = state.key)
    (distinct : (pool.keys.map KeyState.key).Nodup → (changed.keys.map KeyState.key).Nodup)
    (isDistinct : adapter.Distinct) :
    Narrowed adapter { adapter with keyPool := some changed } := by
  refine ⟨rfl, rfl, ?_, ?_, ?_⟩
  · rintro key ⟨state, member, isLive, rfl⟩
    simp only [Serves, isPool]
    exact live (isDistinct pool isPool) state member isLive
  · simp
  · intro _ other isOther
    cases isOther
    exact distinct (isDistinct pool isPool)

theorem mem_gatherStaticKeys : key ∈ adapter.gatherStaticKeys ↔
    key ∈ strippedKeys adapter.apiKey.toList ∨ key ∈ strippedKeys adapter.apiKeys := by
  rw [gatherStaticKeys, List.mem_append]

theorem ensureKeyPool_narrowed (adapter : Adapter) : Narrowed adapter adapter.ensureKeyPool := by
  unfold ensureKeyPool
  split
  · exact .refl adapter
  · next noPool =>
    dsimp only
    split_ifs
    · exact .refl adapter
    · refine ⟨rfl, rfl, ?_, ?_, ?_⟩
      · rintro key ⟨state, member, isLive, rfl⟩
        simp only [Serves, noPool, mem_gatherStaticKeys]
        rcases List.mem_append.mp (KeyPool.live_of_init member).1 with isSeed | isStatic
        · exact Or.inr isSeed
        · exact Or.inl (List.mem_filter.mp isStatic).1
      · simp
      · intro _ pool isPool
        cases isPool
        exact KeyPool.init_distinct ..

theorem ensureKeyPool_pooled (static : key ∈ adapter.gatherStaticKeys) :
    adapter.ensureKeyPool.keyPool ≠ none := by
  unfold ensureKeyPool
  split
  · next pool isPool => simp [isPool]
  · dsimp only
    split_ifs with empty
    · rw [List.isEmpty_iff, List.append_eq_nil_iff] at empty
      rcases mem_gatherStaticKeys.mp static with isStatic | isSeed
      · have kept : key ∈ (strippedKeys adapter.apiKey.toList).filter fun key =>
            key ∉ strippedKeys adapter.apiKeys := by
          rw [List.mem_filter]
          exact ⟨isStatic, by simp [empty.1]⟩
        rw [empty.2] at kept
        cases kept
      · rw [empty.1] at isSeed
        cases isSeed
    · simp

theorem removeKey_narrowed (distinct : adapter.Distinct) :
    Narrowed adapter (adapter.removeKey key now).1 := by
  unfold removeKey
  split
  · exact .refl adapter
  · next pool isPool =>
    refine narrowed_pool isPool ?_ KeyPool.removeKey_distinct distinct
    intro isDistinct state member isLive
    exact ⟨state, (KeyPool.live_of_removeKey isDistinct member isLive).1, isLive, rfl⟩

theorem not_serves_of_removeKey (distinct : adapter.Distinct) (pooled : adapter.keyPool ≠ none) :
    ¬ (adapter.removeKey key now).1.Serves key := by
  unfold removeKey
  split
  · next noPool => exact absurd noPool pooled
  · next pool isPool =>
    rintro ⟨state, member, isLive, same⟩
    exact (KeyPool.live_of_removeKey (distinct pool isPool) member isLive).2 same

end Adapter

namespace Registry

variable {envKeyHash : String → String} {registry : Registry} {adapter : Adapter} {now : ℚ}

/-- An adapter's keys stand in the tiers that they were configured for. -/
structure Tiered (envKeyHash : String → String) (registry : Registry) (adapter : Adapter) :
    Prop where
  live : ∀ pool, adapter.keyPool = some pool → ∀ state ∈ pool.keys, state.removed = false →
    state.minRole = registry.tierOf envKeyHash state.key
  static : adapter.keyPool = none → ∀ key ∈ adapter.gatherStaticKeys,
    registry.resolveMinRole envKeyHash key = defaultMinRole

/-- A disabled environment key is served only once it was added again. -/
structure Enabled (envKeyHash : String → String) (registry : Registry) (adapter : Adapter) :
    Prop where
  live : adapter.heldNone = true → ∀ key, adapter.Serves key →
    envKeyHash key ∈ registry.disabledEnvKeyHashes →
    adapter.keyPool ≠ none ∧ key ∈ registry.added

theorem Enabled.narrowed {next : Adapter} (enabled : Enabled envKeyHash registry adapter)
    (narrowed : Adapter.Narrowed adapter next) : Enabled envKeyHash registry next := by
  constructor
  intro heldNone key serves disabled
  rcases enabled.live (narrowed.heldNone ▸ heldNone) key (narrowed.serves key serves) disabled with
    ⟨pooled, added⟩
  exact ⟨narrowed.pooled pooled, added⟩

theorem applyToPool_narrowed (distinct : adapter.Distinct) :
    Adapter.Narrowed adapter { adapter with
      keyPool := adapter.keyPool.map fun pool => registry.applyToPool envKeyHash pool now } := by
  rcases isPool : adapter.keyPool with _ | pool
  · rw [Option.map_none, ← isPool]
    exact .refl adapter
  · exact Adapter.narrowed_pool isPool (fun isDistinct state member isLive =>
        ((applyToPool_sound isDistinct).2 state member isLive).2)
      (fun isDistinct => (applyToPool_sound isDistinct).1) distinct

theorem applyToAdapter_narrowed (distinct : adapter.Distinct) :
    Adapter.Narrowed adapter (registry.applyToAdapter envKeyHash now adapter) := by
  unfold applyToAdapter
  split_ifs
  · have promoted := adapter.ensureKeyPool_narrowed
    exact promoted.trans (applyToPool_narrowed (promoted.distinct distinct))
  · exact applyToPool_narrowed distinct

theorem applyToAdapter_tiered (distinct : adapter.Distinct) :
    Tiered envKeyHash registry (registry.applyToAdapter envKeyHash now adapter) := by
  have live {earlier : Adapter} (isDistinct : earlier.Distinct) :
      ∀ pool, (earlier.keyPool.map fun pool => registry.applyToPool envKeyHash pool now) =
        some pool → ∀ state ∈ pool.keys, state.removed = false →
        state.minRole = registry.tierOf envKeyHash state.key := by
    intro pool isPool state member isLive
    rcases Option.map_eq_some_iff.mp isPool with ⟨before, isBefore, rfl⟩
    exact ((applyToPool_sound (isDistinct before isBefore)).2 state member isLive).1
  unfold applyToAdapter
  split_ifs with reserved
  · have promoted := adapter.ensureKeyPool_narrowed
    refine ⟨live (promoted.distinct distinct), ?_⟩
    intro noPool
    rw [Bool.and_eq_true, List.any_eq_true] at reserved
    rcases reserved.2 with ⟨key, isStatic, -⟩
    exact absurd (Option.map_eq_none_iff.mp noPool) (Adapter.ensureKeyPool_pooled isStatic)
  · refine ⟨live distinct, ?_⟩
    intro noPool key isStatic
    have isNone := Option.map_eq_none_iff.mp noPool
    by_contra different
    apply reserved
    rw [Bool.and_eq_true, List.any_eq_true]
    exact ⟨by simp [isNone], key, isStatic, by simpa using different⟩

end Registry

end HybridInference.Keys
