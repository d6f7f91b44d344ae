import HybridInference.Library.ListUpdate
import HybridInference.Library.Machine
import Mathlib.Data.Rat.Floor

/-!
# Provider quota snapshots

One source of `ProviderQuotaSnapshotStore` of `routing.routewise.quota`. A
refresh awaits its fetcher, so it starts at one step and lands at a later one,
and several may be in flight. Landing clears the local increments, which forgets
the requests granted while the fetch was in flight. `Outstanding` is what the increments should be:
the requests granted since the fetch behind the snapshot started and not refunded.
-/

namespace HybridInference.RouteWise

open Library

structure QuotaSnapshot where
  used : ℚ
  limit : ℚ
  deriving DecidableEq

structure QuotaStore where
  snapshot : Option QuotaSnapshot := none
  localIncrement : ℕ := 0
  deriving DecidableEq

namespace QuotaStore

def consume (store : QuotaStore) : QuotaStore × Bool :=
  match store.snapshot with
  | none => (store, false)
  | some snapshot =>
    if snapshot.limit ≤ snapshot.used + store.localIncrement then (store, false)
    else ({ store with localIncrement := store.localIncrement + 1 }, true)

def refund (store : QuotaStore) : QuotaStore × Bool :=
  if store.localIncrement = 0 then (store, false)
  else ({ store with localIncrement := store.localIncrement - 1 }, true)

/-- `_store_provider_results`, for results that hold a usage of the source. -/
def storeProviderResults (_store : QuotaStore) (snapshot : QuotaSnapshot) : QuotaStore :=
  { snapshot := some snapshot, localIncrement := 0 }

end QuotaStore

structure Fetch where
  startedAt : ℕ
  inFlight : Bool
  deriving DecidableEq

structure QuotaWorld where
  store : QuotaStore := {}
  refunded : List Bool := []
  fetches : List Fetch := []
  snapshotSince : ℕ := 0
  deriving DecidableEq

inductive QuotaEvent where
  | consume
  | refund (request : ℕ)
  | startFetch
  | landFetch (fetch : ℕ) (snapshot : QuotaSnapshot)
  | failFetch (fetch : ℕ)

namespace QuotaWorld

def step (world : QuotaWorld) : QuotaEvent → Option QuotaWorld
  | .consume =>
    match world.store.consume with
    | (store, true) => some { world with store := store, refunded := world.refunded ++ [false] }
    | (store, false) => some { world with store := store }
  | .refund request =>
    if world.refunded[request]? = some false then
      some { world with
        store := world.store.refund.1
        refunded := world.refunded.set request true }
    else none
  | .startFetch =>
    some { world with fetches := world.fetches ++ [⟨world.refunded.length, true⟩] }
  | .landFetch index snapshot =>
    match world.fetches[index]? with
    | some ⟨startedAt, true⟩ =>
      some { world with
        store := world.store.storeProviderResults snapshot
        fetches := world.fetches.set index ⟨startedAt, false⟩
        snapshotSince := startedAt }
    | _ => none
  | .failFetch index =>
    match world.fetches[index]? with
    | some ⟨startedAt, true⟩ =>
      some { world with fetches := world.fetches.set index ⟨startedAt, false⟩ }
    | _ => none

def grantedSince (world : QuotaWorld) (count : ℕ) : ℕ :=
  (world.refunded.drop count).countP fun refunded => !refunded

def outstanding (world : QuotaWorld) : ℕ := world.grantedSince world.snapshotSince

end QuotaWorld

def quotaMachine : Machine QuotaWorld QuotaEvent where
  step := QuotaWorld.step

namespace QuotaWorld

def WithinSnapshot (world : QuotaWorld) : Prop :=
  ∀ snapshot, world.store.snapshot = some snapshot →
    (world.outstanding : ℤ) ≤ ⌈max 0 (snapshot.limit - snapshot.used)⌉

/-- A step forgets no request: grants since the fetch fit in the snapshot, and a refund gives back
at most what its request took. -/
structure Remembers (world : QuotaWorld) (event : QuotaEvent) (next : QuotaWorld) : Prop where
  within : next.WithinSnapshot
  counted : next.outstanding ≤ next.store.localIncrement
  givesBack : ∀ request, event = .refund request →
    world.store.localIncrement - next.store.localIncrement ≤
      if world.snapshotSince ≤ request then 1 else 0

/-- A fetch lands with no request outstanding that was granted since it started, and a refund's
grant precedes the fetch or no increment is left. -/
def Undisturbed (world : QuotaWorld) : QuotaEvent → Prop
  | .consume | .startFetch | .failFetch _ => True
  | .refund request => world.refunded[request]? = some false →
      world.snapshotSince ≤ request ∨ world.store.localIncrement = 0
  | .landFetch index _ => ∀ startedAt, world.fetches[index]? = some ⟨startedAt, true⟩ →
      world.grantedSince startedAt = 0

/-- The increment since the snapshot is what is still outstanding. -/
structure Reconciled (world : QuotaWorld) : Prop where
  counted : world.store.localIncrement = world.outstanding
  within : world.WithinSnapshot
  since_le : world.snapshotSince ≤ world.refunded.length
  started_le : ∀ fetch ∈ world.fetches, fetch.startedAt ≤ world.refunded.length

section Steps

variable {world next : QuotaWorld} {event : QuotaEvent}

theorem reconciled_empty : Reconciled {} where
  counted := rfl
  within := by simp [WithinSnapshot]
  since_le := le_rfl
  started_le := by simp

theorem grantedSince_concat {count : ℕ} {refunded : List Bool} (inside : count ≤ refunded.length) :
    ((refunded ++ [false]).drop count).countP (fun refunded => !refunded) =
      (refunded.drop count).countP (fun refunded => !refunded) + 1 := by
  rw [List.drop_append_of_le_length inside, List.countP_append]
  simp

theorem grantedSince_set {count request : ℕ} {refunded : List Bool}
    (granted : refunded[request]? = some false) :
    ((refunded.set request true).drop count).countP (fun refunded => !refunded) +
        (if count ≤ request then 1 else 0) =
      (refunded.drop count).countP (fun refunded => !refunded) := by
  by_cases later : count ≤ request
  · have dropped : (refunded.set request true).drop count =
        (refunded.drop count).set (request - count) true := by
      rw [List.drop_set, if_neg (by omega)]
    have found : (refunded.drop count)[request - count]? = some false := by
      rw [List.getElem?_drop, Nat.add_sub_cancel' later]
      exact granted
    have counted := countP_set_of_some (fun refunded => !refunded) true found
    rw [dropped, if_pos later]
    simpa using counted
  · rw [List.drop_set, if_pos (by omega), if_neg later, Nat.add_zero]

theorem Reconciled.consume (reconciled : Reconciled world)
    (stepped : quotaMachine.step world .consume = some next) : Reconciled next := by
  simp only [quotaMachine, step, QuotaStore.consume] at stepped
  cases current : world.store.snapshot with
  | none =>
    simp only [current, Option.some.injEq] at stepped
    exact stepped ▸ reconciled
  | some snapshot =>
    simp only [current] at stepped
    by_cases full : snapshot.limit ≤ snapshot.used + world.store.localIncrement
    · simp only [full, if_true, Option.some.injEq] at stepped
      exact stepped ▸ reconciled
    · simp only [full, if_false, Option.some.injEq] at stepped
      subst stepped
      have grown := grantedSince_concat reconciled.since_le
      have counted := reconciled.counted
      simp only [outstanding, grantedSince] at counted
      refine ⟨?_, ?_, ?_, ?_⟩
      · simp only [outstanding, grantedSince, grown, counted]
      · intro other same
        simp only [Option.some.injEq] at same
        subst same
        simp only [outstanding, grantedSince, grown, ← counted]
        have below : (world.store.localIncrement : ℚ) < max 0 (snapshot.limit - snapshot.used) := by
          apply lt_max_of_lt_right
          linarith [not_le.mp full]
        have ceiled := Int.lt_ceil.mpr (by exact_mod_cast below :
          ((world.store.localIncrement : ℤ) : ℚ) < max 0 (snapshot.limit - snapshot.used))
        push_cast
        omega
      · simpa using Nat.le_succ_of_le reconciled.since_le
      · intro fetch member
        simpa using Nat.le_succ_of_le (reconciled.started_le fetch member)

theorem Reconciled.remembers (reconciled : Reconciled next)
    (notRefund : ∀ request, event ≠ .refund request) : Remembers world event next where
  within := reconciled.within
  counted := le_of_eq reconciled.counted.symm
  givesBack := fun request isRefund => absurd isRefund (notRefund request)

theorem Reconciled.setFetches (reconciled : Reconciled world) {index startedAt : ℕ}
    (found : world.fetches[index]? = some ⟨startedAt, true⟩) :
    ∀ fetch ∈ world.fetches.set index ⟨startedAt, false⟩,
      fetch.startedAt ≤ world.refunded.length := by
  intro fetch member
  rcases List.mem_or_eq_of_mem_set member with earlier | rfl
  · exact reconciled.started_le fetch earlier
  · have started := reconciled.started_le _ (List.mem_of_getElem? found)
    exact started

theorem step_landFetch {index : ℕ} {snapshot : QuotaSnapshot} :
    quotaMachine.step world (.landFetch index snapshot) = some next ↔
      ∃ startedAt, world.fetches[index]? = some ⟨startedAt, true⟩ ∧
        next = { world with
          store := { snapshot := some snapshot, localIncrement := 0 }
          fetches := world.fetches.set index ⟨startedAt, false⟩
          snapshotSince := startedAt } := by
  simp only [quotaMachine, step]
  rcases world.fetches[index]? with _ | ⟨startedAt, _ | _⟩
  · simp
  · simp
  · simp [QuotaStore.storeProviderResults, eq_comm]

theorem step_failFetch {index : ℕ} : quotaMachine.step world (.failFetch index) = some next ↔
      ∃ startedAt, world.fetches[index]? = some ⟨startedAt, true⟩ ∧
        next = { world with fetches := world.fetches.set index ⟨startedAt, false⟩ } := by
  simp only [quotaMachine, step]
  rcases world.fetches[index]? with _ | ⟨startedAt, _ | _⟩
  · simp
  · simp
  · simp [eq_comm]

variable {request : ℕ}

theorem step_refund : quotaMachine.step world (.refund request) = some next ↔
      world.refunded[request]? = some false ∧
        next = { world with
          store := { world.store with localIncrement := world.store.localIncrement - 1 }
          refunded := world.refunded.set request true } := by
  have store : world.store.refund.1 =
      { world.store with localIncrement := world.store.localIncrement - 1 } := by
    unfold QuotaStore.refund
    split_ifs with empty
    · rcases world with ⟨⟨snapshot, localIncrement⟩, _, _, _⟩
      simp_all
    · rfl
  simp only [quotaMachine, step, store]
  split_ifs with granted
  · simp [granted, eq_comm]
  · simp [granted]

theorem Reconciled.outstanding_refund (reconciled : Reconciled world)
    (granted : world.refunded[request]? = some false) :
    QuotaWorld.outstanding { world with
        store := { world.store with localIncrement := world.store.localIncrement - 1 }
        refunded := world.refunded.set request true } +
      (if world.snapshotSince ≤ request then 1 else 0) = world.store.localIncrement := by
  rw [reconciled.counted]
  exact grantedSince_set granted

theorem Reconciled.refund (reconciled : Reconciled world)
    (stepped : quotaMachine.step world (.refund request) = some next)
    (undisturbed : world.Undisturbed (.refund request)) :
    Reconciled next ∧ Remembers world (.refund request) next := by
  rcases step_refund.mp stepped with ⟨granted, rfl⟩
  have changed := reconciled.outstanding_refund granted
  have counted : world.store.localIncrement - 1 =
      QuotaWorld.outstanding { world with
        store := { world.store with localIncrement := world.store.localIncrement - 1 }
        refunded := world.refunded.set request true } := by
    rcases undisturbed granted with later | empty
    · rw [if_pos later] at changed
      omega
    · split_ifs at changed <;> omega
  have within : WithinSnapshot { world with
      store := { world.store with localIncrement := world.store.localIncrement - 1 }
      refunded := world.refunded.set request true } := by
    intro snapshot current
    have before := reconciled.within snapshot current
    have fewer := reconciled.counted
    rw [← counted]
    omega
  refine ⟨⟨counted, within, ?_, ?_⟩, within, le_of_eq counted.symm, ?_⟩
  · simpa using reconciled.since_le
  · simpa using reconciled.started_le
  · intro other same
    cases same
    dsimp only
    rcases undisturbed granted with later | empty
    · omega
    · rw [empty]
      exact Nat.zero_le _

theorem Reconciled.step (reconciled : Reconciled world)
    (stepped : quotaMachine.step world event = some next) :
    (world.Undisturbed event → Reconciled next) ∧
      (Remembers world event next ↔ world.Undisturbed event) := by
  cases event with
  | consume =>
    have after := reconciled.consume stepped
    exact ⟨fun _ => after, fun _ => trivial, fun _ => after.remembers (by simp)⟩
  | startFetch =>
    have after : Reconciled next := by
      cases stepped
      refine ⟨reconciled.counted, reconciled.within, reconciled.since_le, ?_⟩
      intro fetch member
      rcases List.mem_append.mp member with earlier | isNew
      · exact reconciled.started_le fetch earlier
      · rw [List.mem_singleton] at isNew
        rw [isNew]
    exact ⟨fun _ => after, fun _ => trivial, fun _ => after.remembers (by simp)⟩
  | failFetch index =>
    have after : Reconciled next := by
      rcases step_failFetch.mp stepped with ⟨startedAt, found, rfl⟩
      exact ⟨reconciled.counted, reconciled.within, reconciled.since_le,
        reconciled.setFetches found⟩
    exact ⟨fun _ => after, fun _ => trivial, fun _ => after.remembers (by simp)⟩
  | landFetch index snapshot =>
    rcases step_landFetch.mp stepped with ⟨startedAt, found, rfl⟩
    have after : world.Undisturbed (.landFetch index snapshot) →
        Reconciled { world with
          store := { snapshot := some snapshot, localIncrement := 0 }
          fetches := world.fetches.set index ⟨startedAt, false⟩
          snapshotSince := startedAt } := by
      intro undisturbed
      have none_granted := undisturbed startedAt found
      refine ⟨none_granted.symm, ?_, ?_, reconciled.setFetches found⟩
      · intro other _
        have nonneg : (0 : ℤ) ≤ ⌈max 0 (other.limit - other.used)⌉ :=
          Int.ceil_nonneg (le_max_left _ _)
        calc (world.grantedSince startedAt : ℤ) = 0 := by rw [none_granted]; rfl
          _ ≤ ⌈max 0 (other.limit - other.used)⌉ := nonneg
      · exact reconciled.started_le _ (List.mem_of_getElem? found)
    refine ⟨after, ?_, fun undisturbed => (after undisturbed).remembers (by simp)⟩
    intro remembers other foundOther
    rw [found] at foundOther
    cases foundOther
    exact Nat.le_zero.mp remembers.counted
  | refund request =>
    refine ⟨fun undisturbed => (reconciled.refund stepped undisturbed).1, ?_,
      fun undisturbed => (reconciled.refund stepped undisturbed).2⟩
    intro remembers granted
    have given := remembers.givesBack request rfl
    rcases step_refund.mp stepped with ⟨-, rfl⟩
    dsimp only at given
    split_ifs at given with later
    · exact Or.inl later
    · right
      omega

theorem undisturbed_of_step_eq_none (idle : quotaMachine.step world event = none) :
    world.Undisturbed event := by
  cases event with
  | consume => trivial
  | startFetch => trivial
  | failFetch => trivial
  | refund request =>
    intro granted
    simp [quotaMachine, step, granted] at idle
  | landFetch index snapshot =>
    intro startedAt found
    simp [quotaMachine, step, found] at idle

end Steps

end QuotaWorld

open QuotaWorld

/-- No request of a run is forgotten exactly when no fetch lands over requests granted during it,
and no refund comes for one that an earlier fetch has counted. -/
theorem quota_remembers_iff (events : List QuotaEvent) :
    quotaMachine.Along (fun world event => ∀ next, quotaMachine.step world event = some next →
        Remembers world event next) {} events ↔
      quotaMachine.Along Undisturbed {} events := by
  refine Machine.along_congr ?_
    (fun _ _ _ reconciled undisturbed stepped => (reconciled.step stepped).1 undisturbed)
    reconciled_empty
  intro world event reconciled
  cases stepped : quotaMachine.step world event with
  | none => simp [undisturbed_of_step_eq_none stepped]
  | some next =>
    simp only [Option.some.injEq, forall_eq']
    exact (reconciled.step stepped).2

/-- A request granted while a fetch was in flight is not counted once the fetch
lands, and a second one is granted against a limit of one. -/
theorem quota_forgets_granted_in_flight : ¬ ∀ events : List QuotaEvent,
      quotaMachine.Along (fun world event => ∀ next, quotaMachine.step world event = some next →
        Remembers world event next) {} events := by
  intro claim
  have ran : quotaMachine.run {} [.startFetch, .landFetch 0 ⟨0, 1⟩, .startFetch, .consume,
      .landFetch 1 ⟨0, 1⟩] = some _ := (Option.some_get (by decide +kernel)).symm
  have remembers := Machine.along_at (claim ([.startFetch, .landFetch 0 ⟨0, 1⟩, .startFetch,
    .consume, .landFetch 1 ⟨0, 1⟩] ++ [.consume])) ran _
    (Option.some_get (by decide +kernel)).symm
  have within := remembers.within ⟨0, 1⟩ (by decide +kernel)
  revert within
  decide +kernel

end HybridInference.RouteWise
