import HybridInference.Keys.Pool

/-!
# What the key pool hands out

Over every run of the pool's operations: a credential has one slot; what
`acquire` hands out is usable by its caller, binding or not; `can_serve_role`
answers what `acquire` would.
-/

namespace HybridInference.Keys

open Library

namespace KeyPool

variable {pool next : KeyPool} {now : ℚ} {role affinityKey : Option String} {exclude : List ℕ}

variable {state : KeyState} {index : ℕ}

theorem mem_candidates : (state, index) ∈ pool.candidates now role exclude ↔
      pool.keys[index]? = some state ∧ state.usable now role = true ∧ index ∉ exclude := by
  simp [candidates, List.mem_zipIdx_iff_getElem?]

theorem pickFirstAvailable_usable (picked : pool.pickFirstAvailable now role exclude = some index) :
    ∃ state, pool.keys[index]? = some state ∧ state.usable now role = true ∧ index ∉ exclude := by
  rcases Option.map_eq_some_iff.mp picked with ⟨⟨state, found⟩, chosen, rfl⟩
  exact ⟨state, mem_candidates.mp (List.argmax_mem chosen)⟩

theorem pickFirstAvailable_isSome
    (found : pool.keys[index]? = some state) (usable : state.usable now role = true)
    (open_ : index ∉ exclude) : (pool.pickFirstAvailable now role exclude).isSome = true := by
  have candidate : (state, index) ∈ pool.candidates now role exclude :=
    mem_candidates.mpr ⟨found, usable, open_⟩
  unfold pickFirstAvailable
  rw [Option.isSome_map, Option.isSome_iff_ne_none]
  intro empty
  rw [List.argmax_eq_none.mp empty] at candidate
  cases candidate

theorem pickFirstAvailable_congr (same : next.keys = pool.keys) :
    next.pickFirstAvailable now role exclude = pool.pickFirstAvailable now role exclude := by
  unfold pickFirstAvailable candidates
  rw [same]

theorem canServeRole_iff : pool.canServeRole role now = true ↔
      ∃ (index : ℕ) (state : KeyState), pool.keys[index]? = some state ∧
        state.usable now role = true := by
  constructor
  · intro serves
    rcases Option.isSome_iff_exists.mp serves with ⟨index, picked⟩
    rcases pickFirstAvailable_usable picked with ⟨state, found, usable, -⟩
    exact ⟨index, state, found, usable⟩
  · rintro ⟨index, state, found, usable⟩
    exact pickFirstAvailable_isSome found usable (by simp)

section Acquire

variable {key : String} {lease : Lease}

def Hands (pool : KeyPool) (now : ℚ) (role : Option String) (exclude : List ℕ) (key : String)
    (lease : Lease) : Prop :=
  ∃ state, pool.keys[lease.keyIndex]? = some state ∧ state.key = key ∧
    state.usable now role = true ∧ lease.keyIndex ∉ exclude ∧ lease.role = role

theorem maybeSweep_keys : (pool.maybeSweep now).keys = pool.keys := by
  unfold maybeSweep
  split_ifs <;> rfl

theorem bind_keys (index : ℕ) : (pool.bind affinityKey role index now).keys = pool.keys := by
  unfold bind
  split <;> rfl

theorem handOut_eq_some {handed : String × Lease}
    (out : pool.handOut index affinityKey role = some (next, handed)) :
    ∃ state, pool.keys[index]? = some state ∧ handed.1 = state.key ∧
      handed.2 = { keyIndex := index, affinityKey := affinityKey, role := role } ∧
      next.keys = pool.keys.set index { state with requestCount := state.requestCount + 1 } := by
  rcases Option.map_eq_some_iff.mp out with ⟨state, found, rest⟩
  cases rest
  exact ⟨state, found, rfl, rfl, rfl⟩

theorem handOut_isSome (affinityKey role : Option String) (found : pool.keys[index]? = some state) :
    ∃ next handed, pool.handOut index affinityKey role = some (next, handed) := by
  unfold handOut
  rw [found]
  exact ⟨_, _, rfl⟩

theorem acquirePicked_hands
    (acquired : pool.acquirePicked affinityKey role exclude now = (next, .ok (key, lease))) :
    pool.Hands now role exclude key lease := by
  unfold acquirePicked at acquired
  split at acquired
  · next index picked =>
    rcases pickFirstAvailable_usable picked with ⟨state, found, usable, open_⟩
    split at acquired
    · next handed out =>
      cases acquired
      rcases handOut_eq_some out with ⟨other, foundOther, keyEq, leaseEq, -⟩
      rw [bind_keys] at foundOther
      rw [foundOther, Option.some.injEq] at found
      subst found
      subst leaseEq
      exact ⟨other, foundOther, keyEq.symm, usable, open_, rfl⟩
    · cases acquired
  · split_ifs at acquired
    · cases acquired
    · cases acquired
    · cases acquired

theorem honors_iff {existing : Affinity} : pool.honors now role exclude existing = true ↔
      now < existing.expiresAt ∧ existing.role = role ∧ existing.keyIndex ∉ exclude ∧
        ∃ bound, pool.keys[existing.keyIndex]? = some bound ∧ bound.usable now role = true := by
  simp [honors, Option.any_eq_true, and_assoc]

theorem acquire_hands
    (acquired : pool.acquire affinityKey role exclude now = (next, .ok (key, lease))) :
    pool.Hands now role exclude key lease := by
  have swept : ∀ {found : KeyPool}, found.keys = pool.keys →
      found.Hands now role exclude key lease → pool.Hands now role exclude key lease := by
    intro found same hands
    rwa [Hands, same] at hands
  unfold acquire at acquired
  dsimp only at acquired
  split at acquired
  · exact swept maybeSweep_keys (acquirePicked_hands acquired)
  · next affinity existing _ =>
    split_ifs at acquired with honored
    · rcases honors_iff.mp honored with ⟨-, -, open_, bound, found, usable⟩
      split at acquired
      · next handed out =>
        cases acquired
        rcases handOut_eq_some out with ⟨other, foundOther, keyEq, leaseEq, -⟩
        rw [foundOther, Option.some.injEq] at found
        subst found
        subst leaseEq
        exact swept maybeSweep_keys ⟨other, foundOther, keyEq.symm, usable, open_, rfl⟩
      · cases acquired
    · have hands := acquirePicked_hands acquired
      exact swept maybeSweep_keys hands

theorem acquirePicked_ok (serves : (pool.pickFirstAvailable now role exclude).isSome = true) :
    ∃ next handed, pool.acquirePicked affinityKey role exclude now = (next, .ok handed) := by
  rcases Option.isSome_iff_exists.mp serves with ⟨index, picked⟩
  rcases pickFirstAvailable_usable picked with ⟨state, found, -, -⟩
  have bound : (pool.bind affinityKey role index now).keys[index]? = some state := by
    rw [bind_keys]
    exact found
  rcases handOut_isSome affinityKey role bound with ⟨next, handed, out⟩
  unfold acquirePicked
  rw [picked]
  dsimp only
  rw [out]
  exact ⟨next, handed, rfl⟩

theorem acquire_ok_iff (affinityKey : Option String) :
    (∃ next handed, pool.acquire affinityKey role [] now = (next, .ok handed)) ↔
      pool.canServeRole role now = true := by
  constructor
  · rintro ⟨next, ⟨key, lease⟩, acquired⟩
    rcases acquire_hands acquired with ⟨state, found, -, usable, -⟩
    exact canServeRole_iff.mpr ⟨lease.keyIndex, state, found, usable⟩
  · intro serves
    have swept : ∀ {found : KeyPool}, found.keys = pool.keys →
        (found.pickFirstAvailable now role []).isSome = true := by
      intro found same
      rw [pickFirstAvailable_congr same]
      exact serves
    unfold acquire
    dsimp only
    split
    · exact acquirePicked_ok (swept maybeSweep_keys)
    · next affinity existing _ =>
      split_ifs with honored
      · rcases honors_iff.mp honored with ⟨-, -, -, bound, found, -⟩
        rcases handOut_isSome affinityKey role found with ⟨next, handed, out⟩
        rw [out]
        exact ⟨next, handed, rfl⟩
      · apply acquirePicked_ok
        apply swept
        exact maybeSweep_keys

end Acquire

def PointsAtChoice (pool : KeyPool) (now : ℚ) : Prop :=
  ∀ affinityKey entry, pool.affinity.find affinityKey = some entry →
    (∃ bound, pool.keys[entry.keyIndex]? = some bound ∧ bound.removed = false ∧
      roleMayUse entry.role bound = true) ∧
    ∀ preferred, pool.pickFirstAvailable now entry.role [] = some preferred →
      preferred = entry.keyIndex

theorem not_repointed {entry : Affinity} (kept : pool.repointed now entry = false) :
    (∃ bound, pool.keys[entry.keyIndex]? = some bound ∧ bound.removed = false ∧
      roleMayUse entry.role bound = true) ∧
    ∀ preferred, pool.pickFirstAvailable now entry.role [] = some preferred →
      preferred = entry.keyIndex := by
  unfold repointed at kept
  split at kept
  · cases kept
  · next bound found =>
    split_ifs at kept with stale
    rw [Bool.or_eq_true, Bool.not_eq_true', not_or, Bool.not_eq_true, Bool.not_eq_false] at stale
    refine ⟨⟨bound, found, stale⟩, ?_⟩
    intro preferred picked
    rw [picked] at kept
    simpa using kept

theorem dropRepointedAffinities_points (pool : KeyPool) (now : ℚ) :
    (pool.dropRepointedAffinities now).PointsAtChoice now := by
  intro affinityKey entry bound
  simp only [dropRepointedAffinities, Dict.find_eraseAll] at bound
  split_ifs at bound with dropped
  apply not_repointed
  by_contra stale
  rw [Bool.not_eq_false] at stale
  apply dropped
  refine List.mem_map.mpr ⟨⟨affinityKey, entry⟩, List.mem_filter.mpr ⟨?_, stale⟩, rfl⟩
  exact AList.mem_lookup_iff.mp bound

theorem findSlot_eq_some {condition : KeyState → Bool}
    (found : pool.findSlot condition = some (state, index)) :
    pool.keys[index]? = some state ∧ condition state = true := by
  have holds := List.find?_some found
  exact ⟨List.mem_zipIdx_iff_getElem?.mp (List.mem_of_find?_eq_some found), holds⟩

theorem findSlot_eq_none {condition : KeyState → Bool} (missing : pool.findSlot condition = none) :
    ∀ state ∈ pool.keys, condition state = false := by
  intro state member
  rcases List.getElem?_of_mem member with ⟨index, found⟩
  have outside := List.find?_eq_none.mp missing (state, index)
    (List.mem_zipIdx_iff_getElem?.mpr found)
  simpa using outside

/-- What an administrative operation did to the slots, and that it re-evaluated
the bindings if it changed anything. -/
structure Administered (pool next : KeyPool) (now : ℚ) : Prop where
  distinct : (pool.keys.map KeyState.key).Nodup → (next.keys.map KeyState.key).Nodup
  points : next.keys ≠ pool.keys → next.PointsAtChoice now

theorem distinct_set {keys : List KeyState} {old new : KeyState}
    (found : keys[index]? = some old) (same : new.key = old.key)
    (distinct : (keys.map KeyState.key).Nodup) :
    ((keys.set index new).map KeyState.key).Nodup := by
  have found_key : (keys.map KeyState.key)[index]? = some old.key := by
    rw [List.getElem?_map, found]
    rfl
  rw [List.map_set, same, set_eq_self_of_some found_key]
  exact distinct

theorem addKey_administered (pool : KeyPool) (key : String) (minRole : Option String) (now : ℚ) :
    Administered pool (pool.addKey key minRole now).1 now := by
  unfold addKey
  split
  · next state index found =>
    rcases findSlot_eq_some found with ⟨slot, -⟩
    dsimp only
    split_ifs with edited
    · exact ⟨distinct_set slot rfl, fun _ => dropRepointedAffinities_points _ _⟩
    · rw [Bool.or_eq_true, decide_eq_true_eq, not_or, Bool.not_eq_true, not_not] at edited
      have unchanged : ({ state with removed := false, minRole := tierOnAdd state minRole } :
          KeyState) = state := by
        rw [← edited.2, ← edited.1]
      refine ⟨distinct_set slot rfl, ?_⟩
      intro changed
      rw [unchanged] at changed
      exact absurd (set_eq_self_of_some slot) changed
  · next missing =>
    refine ⟨?_, fun _ => dropRepointedAffinities_points _ _⟩
    intro distinct
    change ((pool.keys ++ [_]).map KeyState.key).Nodup
    rw [List.map_append, List.map_singleton, ← List.concat_eq_append]
    refine distinct.concat ?_
    intro present
    rcases List.mem_map.mp present with ⟨state, member, sameKey⟩
    have other := findSlot_eq_none missing state member
    simp [sameKey] at other

theorem setKeyMinRole_administered (pool : KeyPool) (key : String) (minRole : Option String)
    (now : ℚ) : Administered pool (pool.setKeyMinRole key minRole now).1 now := by
  unfold setKeyMinRole
  dsimp only
  split_ifs
  · refine ⟨?_, fun _ => dropRepointedAffinities_points _ _⟩
    intro distinct
    have sameKeys : ∀ state : KeyState, (if retiers key (normalizeMinRole minRole) state then
          { state with minRole := normalizeMinRole minRole } else state).key = state.key := by
      intro state
      split_ifs
      · rfl
      · rfl
    simpa [dropRepointedAffinities, Function.comp_def, sameKeys] using distinct
  · exact ⟨id, fun changed => absurd rfl changed⟩

theorem removeKey_administered (pool : KeyPool) (key : String) (now : ℚ) :
    Administered pool (pool.removeKey key now).1 now := by
  unfold removeKey
  split
  · exact ⟨id, fun changed => absurd rfl changed⟩
  · next state index found =>
    rcases findSlot_eq_some found with ⟨slot, -⟩
    exact ⟨distinct_set slot rfl, fun _ => dropRepointedAffinities_points _ _⟩

section Distinct

variable {lease : Lease} {statusCode : Option ℕ} {tried : List ℕ} {outcome : ReleaseOutcome}

theorem init_distinct (keys : List String) (providerLabel : String)
    (minRoles : List (String × String)) :
    ((init keys providerLabel minRoles).keys.map KeyState.key).Nodup := by
  have deduped : ∀ (keys kept : List String), kept.Nodup →
      (keys.foldl (fun kept key => if kept.contains key then kept else kept ++ [key])
        kept).Nodup := by
    intro keys
    induction keys with
    | nil => exact fun _ distinct => distinct
    | cons key rest ih =>
      intro kept distinct
      rw [List.foldl_cons]
      apply ih
      split_ifs with known
      · exact distinct
      · rw [← List.concat_eq_append]
        exact distinct.concat (by simpa using known)
  simpa [init, Function.comp_def] using deduped keys [] List.nodup_nil

theorem release_distinct (released : pool.release lease statusCode tried now = some (next, outcome))
    (distinct : (pool.keys.map KeyState.key).Nodup) : (next.keys.map KeyState.key).Nodup := by
  unfold release at released
  split at released
  · cases released
    exact distinct
  · cases released
  · next code state slot =>
    split_ifs at released
    · unfold releaseFailure at released
      dsimp only at released
      split_ifs at released
      · cases released
        exact distinct_set slot rfl distinct
      · split at released <;> cases released
        · exact distinct_set slot rfl distinct
        · exact distinct_set slot rfl distinct
    · cases released
      exact distinct_set slot rfl distinct
    · cases released
      exact distinct

theorem acquirePicked_distinct (distinct : (pool.keys.map KeyState.key).Nodup) :
    ((pool.acquirePicked affinityKey role exclude now).1.keys.map KeyState.key).Nodup := by
  unfold acquirePicked
  split
  · split
    · next out =>
      rcases handOut_eq_some out with ⟨state, slot, -, -, keysEq⟩
      rw [bind_keys] at slot keysEq
      rw [keysEq]
      exact distinct_set slot rfl distinct
    · exact distinct
  · split_ifs
    · exact distinct
    · exact distinct
    · exact distinct

theorem acquire_distinct (distinct : (pool.keys.map KeyState.key).Nodup) :
    ((pool.acquire affinityKey role exclude now).1.keys.map KeyState.key).Nodup := by
  have swept : ((pool.maybeSweep now).keys.map KeyState.key).Nodup := by
    rwa [maybeSweep_keys]
  unfold acquire
  dsimp only
  split
  · exact acquirePicked_distinct swept
  · split_ifs
    · split
      · next out =>
        rcases handOut_eq_some out with ⟨state, slot, -, -, keysEq⟩
        rw [keysEq]
        exact distinct_set slot rfl swept
      · exact swept
    · exact acquirePicked_distinct swept

end Distinct

end KeyPool

structure PoolWorld where
  pool : KeyPool
  clock : ℚ
  deriving DecidableEq

inductive PoolEvent where
  | acquire (affinityKey role : Option String) (exclude : List ℕ) (now : ℚ)
  | release (lease : Lease) (statusCode : Option ℕ) (tried : List ℕ) (now : ℚ)
  | addKey (key : String) (minRole : Option String) (now : ℚ)
  | setKeyMinRole (key : String) (minRole : Option String) (now : ℚ)
  | removeKey (key : String) (now : ℚ)

def PoolEvent.now : PoolEvent → ℚ
  | .acquire _ _ _ now | .release _ _ _ now | .addKey _ _ now | .setKeyMinRole _ _ now
  | .removeKey _ now => now

def PoolEvent.administers : PoolEvent → Bool
  | .acquire .. | .release .. => false
  | .addKey .. | .setKeyMinRole .. | .removeKey .. => true

/-- The pool an operation leaves; `none` for a lease that names no slot. -/
def KeyPool.after (pool : KeyPool) : PoolEvent → Option KeyPool
  | .acquire affinityKey role exclude now => some (pool.acquire affinityKey role exclude now).1
  | .release lease statusCode tried now => (pool.release lease statusCode tried now).map Prod.fst
  | .addKey key minRole now => some (pool.addKey key minRole now).1
  | .setKeyMinRole key minRole now => some (pool.setKeyMinRole key minRole now).1
  | .removeKey key now => some (pool.removeKey key now).1

def poolMachine : Machine PoolWorld PoolEvent where
  step world event :=
    if world.clock ≤ event.now then
      (world.pool.after event).map fun pool => { pool := pool, clock := event.now }
    else none

section Runs

variable {world next : PoolWorld} {event : PoolEvent}

theorem poolMachine_step_eq_some : poolMachine.step world event = some next ↔
      world.clock ≤ event.now ∧ next.clock = event.now ∧
        world.pool.after event = some next.pool := by
  rcases next with ⟨nextPool, nextClock⟩
  unfold poolMachine
  dsimp only
  split_ifs with later
  · simp only [Option.map_eq_some_iff, PoolWorld.mk.injEq, later, true_and]
    constructor
    · rintro ⟨pool, reached, rfl, rfl⟩
      exact ⟨rfl, reached⟩
    · rintro ⟨rfl, reached⟩
      exact ⟨nextPool, reached, rfl, rfl⟩
  · simp [later]

/-- What administering a pool may change of it. -/
theorem administered_of_step (stepped : poolMachine.step world event = some next)
    (administers : event.administers = true) :
    KeyPool.Administered world.pool next.pool event.now := by
  rcases poolMachine_step_eq_some.mp stepped with ⟨-, -, reached⟩
  cases event with
  | acquire => cases administers
  | release => cases administers
  | addKey key minRole now =>
    rw [← Option.some.inj reached]
    exact world.pool.addKey_administered key minRole now
  | setKeyMinRole key minRole now =>
    rw [← Option.some.inj reached]
    exact world.pool.setKeyMinRole_administered key minRole now
  | removeKey key now =>
    rw [← Option.some.inj reached]
    exact world.pool.removeKey_administered key now

theorem distinct_step (distinct : (world.pool.keys.map KeyState.key).Nodup)
    (stepped : poolMachine.step world event = some next) :
    (next.pool.keys.map KeyState.key).Nodup := by
  by_cases administers : event.administers = true
  · exact (administered_of_step stepped administers).distinct distinct
  · rcases poolMachine_step_eq_some.mp stepped with ⟨-, -, reached⟩
    cases event with
    | acquire affinityKey role exclude now =>
      rw [← Option.some.inj reached]
      exact KeyPool.acquire_distinct distinct
    | release lease statusCode tried now =>
      rcases Option.map_eq_some_iff.mp reached with ⟨⟨pool, outcome⟩, released, rfl⟩
      exact KeyPool.release_distinct released distinct
    | addKey | setKeyMinRole | removeKey =>
      simp [PoolEvent.administers] at administers

/-- Every run of the pool: distinct live credentials, keys handed out to callers they are open to,
`can_serve_role` exact, and bindings kept at a key selection would choose. -/
theorem keyPool_selection {keys : List String} {providerLabel : String}
    {minRoles : List (String × String)} {clock : ℚ} {events : List PoolEvent}
    (ran : poolMachine.run { pool := .init keys providerLabel minRoles, clock := clock } events =
      some world) :
    (∀ (i j : ℕ) (first second : KeyState), world.pool.keys[i]? = some first →
      world.pool.keys[j]? = some second → first.removed = false → second.removed = false →
        first.key = second.key → i = j) ∧
    (∀ affinityKey role exclude now, world.clock ≤ now → ∀ pool key lease,
      world.pool.acquire affinityKey role exclude now = (pool, .ok (key, lease)) →
      ∃ state : KeyState, world.pool.keys[lease.keyIndex]? = some state ∧ state.key = key ∧
        state.removed = false ∧ state.cooldownUntil ≤ now ∧ lease.keyIndex ∉ exclude ∧
        roleMayUse role state = true) ∧
    (∀ affinityKey role now, world.clock ≤ now → (world.pool.canServeRole role now = true ↔
        ∃ pool handed, world.pool.acquire affinityKey role [] now = (pool, .ok handed))) ∧
    (∀ event next, poolMachine.step world event = some next → event.administers = true →
      next.pool.keys ≠ world.pool.keys → next.pool.PointsAtChoice event.now) := by
  have distinct : (world.pool.keys.map KeyState.key).Nodup := by
    refine Machine.run_invariant (fun _ _ _ holds stepped => distinct_step holds stepped) ?_ ran
    exact KeyPool.init_distinct keys providerLabel minRoles
  refine ⟨?_, ?_, ?_, ?_⟩
  · intro i j first second atFirst atSecond _ _ same
    have firstKey : (world.pool.keys.map KeyState.key)[i]? = some first.key := by
      simp [atFirst]
    have secondKey : (world.pool.keys.map KeyState.key)[j]? = some first.key := by
      simp [atSecond, same]
    have inside := (List.getElem?_eq_some_iff.mp firstKey).1
    exact (List.getElem?_inj inside distinct).mp (firstKey.trans secondKey.symm)
  · intro affinityKey role exclude now _ pool key lease acquired
    rcases KeyPool.acquire_hands acquired with ⟨state, found, sameKey, usable, open_, -⟩
    simp only [KeyState.usable, Bool.and_eq_true, Bool.not_eq_true', decide_eq_true_eq] at usable
    exact ⟨state, found, sameKey, usable.1.1, usable.1.2, open_, usable.2⟩
  · intro affinityKey role now _
    exact (KeyPool.acquire_ok_iff affinityKey).symm
  · intro event next stepped administers changed
    exact (administered_of_step stepped administers).points changed

/-- A caller bound to a shared key, after a key is reserved for its role: the
binding is gone and the next `acquire` is served. -/
theorem keyPool_selection_reserved_key_added : ∃ world,
      poolMachine.run { pool := .init ["a", "b", "a"] "provider" [], clock := 0 }
          [.acquire (some "u") (some "pro") [] 1, .addKey "r" (some "pro") 2] = some world ∧
        world.pool.affinity.find "u" = none ∧
        ∃ pool handed, world.pool.acquire (some "u") (some "pro") [] 3 = (pool, .ok handed) := by
  have ran : poolMachine.run { pool := .init ["a", "b", "a"] "provider" [], clock := 0 }
      [.acquire (some "u") (some "pro") [] 1, .addKey "r" (some "pro") 2] = some _ :=
    (Option.some_get (by decide +kernel)).symm
  refine ⟨_, ran, by decide +kernel, ?_⟩
  exact ((keyPool_selection ran).2.2.1 (some "u") (some "pro") 3 (by decide +kernel)).mp
    (by decide +kernel)

end Runs

end HybridInference.Keys
