import HybridInference.Prefill.Tracker

/-!
# Prefill accounting

The three maps of the tracker are sums over the leases that were not released.
A charge may depend on any hint, and the hints change all the time, but a lease
remembers what it was charged, so a release takes off exactly that.
-/

namespace HybridInference.Prefill

open Library

def owed (counts : PrefillLease → Bool) (amount : PrefillLease → ℤ) (lease : PrefillLease) : ℤ :=
  if !lease.released && counts lease then amount lease else 0

def onEndpoint (endpointId : String) (lease : PrefillLease) : Bool :=
  lease.endpointId = endpointId

def elephantOn (endpointId : String) (lease : PrefillLease) : Bool :=
  lease.endpointId = endpointId && lease.elephant

def ofCaller (caller : String × String) (lease : PrefillLease) : Bool :=
  lease.endpointId = caller.1 && lease.affinityKey = some caller.2

/-- The charge an `acquire` carries is not negative. -/
def AcquireCall.Charged : AcquireCall → Prop
  | .estimated _ charged | .gated _ charged _ => 0 ≤ charged
  | .returned => True

/-- The loads are the sums over the open leases. -/
structure Accounted (world : PrefillWorld) : Prop where
  charged : ∀ call ∈ world.calls, call.Charged
  nonneg : ∀ lease ∈ world.leases, 0 ≤ lease.tokens
  backlog : ∀ endpointId, world.tracker.backlog.read endpointId =
    tally (owed (onEndpoint endpointId) PrefillLease.tokens) world.leases
  elephants : ∀ endpointId, world.tracker.elephants.read endpointId =
    tally (owed (elephantOn endpointId) fun _ => 1) world.leases
  byCaller : ∀ caller, world.tracker.byCaller.read caller =
    tally (owed (ofCaller caller) PrefillLease.tokens) world.leases

section Sums

variable {counts : PrefillLease → Bool} {amount : PrefillLease → ℤ} {leases : List PrefillLease}
  {lease : PrefillLease} {index : ℕ}

theorem tally_owed_release (found : leases[index]? = some lease) (out : lease.released = false) :
    tally (owed counts amount) (leases.set index { lease with released := true }) =
      tally (owed counts amount) leases - if counts lease then amount lease else 0 := by
  have traded := tally_set (owed counts amount) { lease with released := true } found
  have gone : owed counts amount { lease with released := true } = 0 := by simp [owed]
  have was : owed counts amount lease = if counts lease then amount lease else 0 := by
    simp [owed, out]
  omega

theorem owed_nonneg (counts : PrefillLease → Bool) (nonneg : ∀ lease ∈ leases, 0 ≤ amount lease) :
    ∀ lease ∈ leases, 0 ≤ owed counts amount lease := by
  intro lease member
  unfold owed
  split_ifs
  · exact nonneg lease member
  · exact Int.le_refl 0

theorem owed_le_tally (counts : PrefillLease → Bool) (amount : PrefillLease → ℤ)
    (nonneg : ∀ lease ∈ leases, 0 ≤ amount lease)
    (found : leases[index]? = some lease) (out : lease.released = false)
    (counted : counts lease = true) : amount lease ≤ tally (owed counts amount) leases := by
  have le := measure_le_tally (owed_nonneg counts nonneg) found
  simpa [owed, out, counted] using le

end Sums

section Steps

variable {world next : PrefillWorld}

theorem uncachedEstimate_nonneg (tracker : PrefillLoadTracker) (endpointId : String) (tokens : ℤ)
    (affinityKey fingerprint : Option String) (messages : Option (Anchor → Bool)) (now : ℚ) :
    0 ≤ tracker.uncachedEstimate endpointId tokens affinityKey fingerprint messages now := by
  unfold PrefillLoadTracker.uncachedEstimate
  dsimp only
  split
  · omega
  · split
    · omega
    · split_ifs <;> omega

section

variable (accounted : Accounted world)

include accounted

theorem Accounted.acquire (request : AcquireRequest) (now : ℚ) :
    Accounted { world with
      calls := world.calls ++ [.estimated request (world.tracker.uncachedEstimate request.endpointId
          (max request.tokens 0) request.affinityKey none none now)] } := by
  refine { accounted with charged := ?_ }
  intro call member
  rcases List.mem_append.mp member with earlier | last
  · exact accounted.charged call earlier
  · rw [List.mem_singleton.mp last]
    exact uncachedEstimate_nonneg _ _ _ _ _ _ _

theorem Accounted.setCall {index : ℕ} {call : AcquireCall}
    (charged : call.Charged) : Accounted { world with calls := world.calls.set index call } := by
  refine { accounted with charged := ?_ }
  intro other member
  rcases List.mem_or_eq_of_mem_set member with earlier | rfl
  · exact accounted.charged other earlier
  · exact charged

theorem Accounted.charge (lease : PrefillLease)
    (nonneg : 0 ≤ lease.tokens) (out : lease.released = false) :
    Accounted
      { tracker := world.tracker.charge lease.endpointId lease.affinityKey lease.tokens
          lease.elephant
        calls := world.calls
        leases := world.leases ++ [lease] } := by
  constructor
  · exact accounted.charged
  · intro other member
    rcases List.mem_append.mp member with earlier | last
    · exact accounted.nonneg other earlier
    · rw [List.mem_singleton.mp last]
      exact nonneg
  · intro endpointId
    rw [tally_append, tally_singleton, ← accounted.backlog endpointId]
    simp only [PrefillLoadTracker.charge, Dict.read_insert, owed, out, onEndpoint]
    by_cases same : endpointId = lease.endpointId
    · simp [same]
    · simp [same, Ne.symm same]
  · intro endpointId
    rw [tally_append, tally_singleton, ← accounted.elephants endpointId]
    simp only [PrefillLoadTracker.charge, owed, out, elephantOn]
    by_cases same : endpointId = lease.endpointId
    · cases elephant : lease.elephant <;> simp [same, Dict.read_insert]
    · cases elephant : lease.elephant <;> simp [same, Ne.symm same, Dict.read_insert]
  · intro caller
    rw [tally_append, tally_singleton, ← accounted.byCaller caller]
    simp only [PrefillLoadTracker.charge, owed, out, ofCaller]
    cases key : lease.affinityKey with
    | none => simp
    | some affinityKey =>
      simp only [Dict.read_insert]
      by_cases same : caller = (lease.endpointId, affinityKey)
      · simp [same]
      · have different : ¬(lease.endpointId = caller.1 ∧ affinityKey = caller.2) :=
          fun equal => same (Prod.ext equal.1.symm equal.2.symm)
        simp only [same, if_false, Bool.not_false, Bool.true_and, Option.some.injEq,
          Bool.and_eq_true, decide_eq_true_eq]
        rw [if_neg different, add_zero]

section

variable {index : ℕ} {lease : PrefillLease} (found : world.leases[index]? = some lease)
  (out : lease.released = false)

include found out

theorem Accounted.remainders : 0 ≤ world.tracker.backlog.read lease.endpointId - lease.tokens ∧
      (lease.elephant = true → 0 ≤ world.tracker.elephants.read lease.endpointId - 1) ∧
      (∀ key, lease.affinityKey = some key →
        0 ≤ world.tracker.byCaller.read (lease.endpointId, key) - lease.tokens) := by
  refine ⟨?_, ?_, ?_⟩
  · rw [accounted.backlog]
    have := owed_le_tally (onEndpoint lease.endpointId) _ accounted.nonneg found out
      (by simp [onEndpoint])
    omega
  · intro elephant
    rw [accounted.elephants]
    have := owed_le_tally (elephantOn lease.endpointId) (fun _ => 1)
      (by simp) found out (by simp [elephantOn, elephant])
    omega
  · intro key affinityKey
    rw [accounted.byCaller]
    have := owed_le_tally (ofCaller (lease.endpointId, key)) _ accounted.nonneg found out
      (by simp [ofCaller, affinityKey])
    omega

theorem Accounted.discharge :
    Accounted { world with
      tracker := world.tracker.discharge lease
      leases := world.leases.set index { lease with released := true } } := by
  rcases accounted.remainders found out with ⟨remaining, left, owing⟩
  constructor
  · exact accounted.charged
  · intro other member
    rcases List.mem_or_eq_of_mem_set member with earlier | rfl
    · exact accounted.nonneg other earlier
    · exact accounted.nonneg lease (List.mem_of_getElem? found)
  · intro endpointId
    rw [tally_owed_release found out, ← accounted.backlog endpointId]
    simp only [PrefillLoadTracker.discharge, Dict.read_settle _ _ _ remaining, onEndpoint]
    by_cases same : endpointId = lease.endpointId
    · simp [same]
    · simp [same, Ne.symm same]
  · intro endpointId
    rw [tally_owed_release found out, ← accounted.elephants endpointId]
    simp only [PrefillLoadTracker.discharge, elephantOn]
    by_cases elephant : lease.elephant = true
    · simp only [elephant, if_true, Dict.read_settle _ _ _ (left elephant)]
      by_cases same : endpointId = lease.endpointId
      · simp [same]
      · simp [same, Ne.symm same]
    · simp [elephant]
  · intro caller
    rw [tally_owed_release found out, ← accounted.byCaller caller]
    simp only [PrefillLoadTracker.discharge, ofCaller]
    rcases Option.eq_none_or_eq_some lease.affinityKey with key | ⟨affinityKey, key⟩
    · simp [key]
    · simp only [key, Dict.read_settle _ _ _ (owing affinityKey key)]
      by_cases same : caller = (lease.endpointId, affinityKey)
      · simp [same]
      · have different : ¬(lease.endpointId = caller.1 ∧ affinityKey = caller.2) :=
          fun equal => same (Prod.ext equal.1.symm equal.2.symm)
        simp only [same, if_false, Option.some.injEq, Bool.and_eq_true, decide_eq_true_eq]
        rw [if_neg different, sub_zero]

end

end

theorem release_reads (tracker : PrefillLoadTracker) (settings : PrefillSettings)
    (lease : PrefillLease) (prefillConfirmed : Bool) (now : ℚ) :
    (tracker.release settings lease prefillConfirmed now).backlog =
        (tracker.discharge lease).backlog ∧
      (tracker.release settings lease prefillConfirmed now).elephants =
        (tracker.discharge lease).elephants ∧
      (tracker.release settings lease prefillConfirmed now).byCaller =
        (tracker.discharge lease).byCaller := by
  unfold PrefillLoadTracker.release
  cases lease.affinityKey with
  | none => exact ⟨rfl, rfl, rfl⟩
  | some key =>
    cases prefillConfirmed with
    | false => exact ⟨rfl, rfl, rfl⟩
    | true => exact ⟨rfl, rfl, rfl⟩

/-- One step keeps the sums. -/
theorem Accounted.step {event : PrefillEvent} (accounted : Accounted world)
    (stepped : prefillMachine.step world event = some next) : Accounted next := by
  cases event <;> simp only [prefillMachine, PrefillWorld.step] at stepped
  case acquire request now =>
    cases stepped
    exact accounted.acquire request now
  case gate call settings now =>
    split at stepped
    · next request charged found =>
        cases stepped
        have nonneg : 0 ≤ charged := accounted.charged _ (List.mem_of_getElem? found)
        exact accounted.setCall nonneg
    · simp at stepped
  case charge call =>
    split at stepped
    · next request charged elephant found =>
        cases stepped
        have nonneg : 0 ≤ charged := accounted.charged _ (List.mem_of_getElem? found)
        have returned : AcquireCall.Charged .returned := trivial
        exact (accounted.setCall returned).charge
          { endpointId := request.endpointId
            tokens := charged
            elephant := elephant
            affinityKey := request.affinityKey
            released := false
            promptTokens := max request.tokens 0
            fingerprint := request.fingerprint
            anchor := request.anchor } nonneg rfl
    · simp at stepped
  case release index settings prefillConfirmed now =>
    split at stepped
    · simp at stepped
    · next lease found =>
        split_ifs at stepped with released <;> cases stepped
        · exact accounted
        · have discharged := accounted.discharge found (by simpa using released)
          rcases release_reads world.tracker settings lease prefillConfirmed now with
            ⟨backlog, elephants, byCaller⟩
          refine { discharged with backlog := ?_, elephants := ?_, byCaller := ?_ }
          · rw [backlog]
            exact discharged.backlog
          · rw [elephants]
            exact discharged.elephants
          · rw [byCaller]
            exact discharged.byCaller
  case forgetEndpoint endpointId =>
    cases stepped
    exact { accounted with }

theorem Accounted.of_run {fixedElephantTokens : Option ℤ} {events : List PrefillEvent}
    (ran : prefillMachine.run (.fresh fixedElephantTokens) events = some world) :
    Accounted world := by
  refine Machine.run_invariant (fun _ _ _ accounted stepped => accounted.step stepped) ?_ ran
  constructor <;> simp [PrefillWorld.fresh]

theorem Accounted.own_le_backlog (accounted : Accounted world) (endpointId key : String) :
    0 ≤ world.tracker.byCaller.read (endpointId, key) ∧
      world.tracker.byCaller.read (endpointId, key) ≤ world.tracker.backlog.read endpointId := by
  rw [accounted.byCaller, accounted.backlog]
  refine ⟨tally_nonneg (owed_nonneg _ accounted.nonneg), tally_le_tally ?_⟩
  intro lease member
  have := accounted.nonneg lease member
  unfold owed ofCaller onEndpoint
  by_cases same : lease.endpointId = endpointId
  · split_ifs <;> simp_all
  · simp [same]

theorem Accounted.foreignLoad_eq (accounted : Accounted world) (endpointId : String)
    (affinityKey : Option String) :
    world.tracker.foreignLoad endpointId affinityKey =
      tally (owed (fun lease => onEndpoint endpointId lease &&
        !(affinityKey.isSome && lease.affinityKey = affinityKey)) PrefillLease.tokens)
        world.leases := by
  unfold PrefillLoadTracker.foreignLoad
  cases affinityKey with
  | none =>
    rw [accounted.backlog, sub_zero]
    apply tally_congr
    intro lease _
    simp [owed]
  | some key =>
    dsimp only
    rw [accounted.backlog, accounted.byCaller, sub_eq_iff_eq_add, ← tally_add]
    apply tally_congr
    intro lease _
    by_cases out : lease.released = false <;>
      by_cases here : lease.endpointId = endpointId <;>
        by_cases own : lease.affinityKey = some key <;>
          simp [owed, onEndpoint, ofCaller, out, here, own]

/-- Prefill accounting is exact in every reachable state: each map is the sum over the unreleased
leases, and a release leaves the remainder. -/
theorem prefill_accounting_exact {fixedElephantTokens : Option ℤ} {events : List PrefillEvent}
    (ran : prefillMachine.run (.fresh fixedElephantTokens) events = some world) :
    (∀ endpointId, world.tracker.backlog.read endpointId = ((world.leases.filter fun lease =>
          !lease.released && lease.endpointId = endpointId).map PrefillLease.tokens).sum ∧
      world.tracker.elephants.read endpointId = ((world.leases.filter fun lease =>
          !lease.released && (lease.endpointId = endpointId && lease.elephant)).length : ℤ) ∧
      ∀ key, world.tracker.byCaller.read (endpointId, key) = ((world.leases.filter fun lease =>
          !lease.released && (lease.endpointId = endpointId && lease.affinityKey = some key)).map
            PrefillLease.tokens).sum) ∧
    (∀ endpointId key, 0 ≤ world.tracker.byCaller.read (endpointId, key) ∧
      world.tracker.byCaller.read (endpointId, key) ≤ world.tracker.backlog.read endpointId) ∧
    (∀ endpointId affinityKey, 0 ≤ world.tracker.foreignLoad endpointId affinityKey) ∧
    (∀ (index : ℕ) (lease : PrefillLease) settings prefillConfirmed now next,
      world.leases[index]? = some lease → lease.released = false →
      prefillMachine.step world (.release index settings prefillConfirmed now) = some next →
      (0 ≤ world.tracker.backlog.read lease.endpointId - lease.tokens ∧
        next.tracker.backlog.read lease.endpointId =
          world.tracker.backlog.read lease.endpointId - lease.tokens) ∧
      (lease.elephant = true → 0 ≤ world.tracker.elephants.read lease.endpointId - 1 ∧
        next.tracker.elephants.read lease.endpointId =
          world.tracker.elephants.read lease.endpointId - 1) ∧
      (∀ key, lease.affinityKey = some key →
        0 ≤ world.tracker.byCaller.read (lease.endpointId, key) - lease.tokens ∧
        next.tracker.byCaller.read (lease.endpointId, key) =
          world.tracker.byCaller.read (lease.endpointId, key) - lease.tokens)) ∧
    ((∀ lease ∈ world.leases, lease.released = true) →
      ∀ endpointId, world.tracker.backlog.read endpointId = 0 ∧
        world.tracker.elephants.read endpointId = 0 ∧
        ∀ key, world.tracker.byCaller.read (endpointId, key) = 0) := by
  have accounted := Accounted.of_run ran
  refine ⟨?_, accounted.own_le_backlog, ?_, ?_, ?_⟩
  · intro endpointId
    refine ⟨?_, ?_, ?_⟩
    · rw [sum_map_filter PrefillLease.tokens]
      exact accounted.backlog endpointId
    · have count := sum_map_filter (fun _ => (1 : ℤ))
        (fun lease : PrefillLease => !lease.released && elephantOn endpointId lease) world.leases
      rw [accounted.elephants]
      refine count.symm.trans ?_
      simp [elephantOn]
    · intro key
      rw [sum_map_filter PrefillLease.tokens]
      exact accounted.byCaller (endpointId, key)
  · intro endpointId affinityKey
    rw [accounted.foreignLoad_eq]
    exact tally_nonneg (owed_nonneg _ accounted.nonneg)
  · intro index lease settings prefillConfirmed now next found out stepped
    rcases accounted.remainders found out with ⟨remaining, left, owing⟩
    simp only [prefillMachine, PrefillWorld.step, found, out, Bool.false_eq_true, if_false,
      Option.some.injEq] at stepped
    subst stepped
    rcases release_reads world.tracker settings lease prefillConfirmed now with
      ⟨backlog, elephants, byCaller⟩
    refine ⟨⟨remaining, ?_⟩, ?_, ?_⟩
    · rw [backlog]
      simp [PrefillLoadTracker.discharge, Dict.read_settle _ _ _ remaining]
    · intro elephant
      refine ⟨left elephant, ?_⟩
      rw [elephants]
      simp [PrefillLoadTracker.discharge, elephant, Dict.read_settle _ _ _ (left elephant)]
    · intro key affinityKey
      refine ⟨owing key affinityKey, ?_⟩
      rw [byCaller]
      simp [PrefillLoadTracker.discharge, affinityKey,
        Dict.read_settle _ _ _ (owing key affinityKey)]
  · intro released endpointId
    rw [accounted.backlog, accounted.elephants]
    refine ⟨tally_eq_zero ?_, tally_eq_zero ?_, ?_⟩
    · intro lease member
      simp [owed, released lease member]
    · intro lease member
      simp [owed, released lease member]
    · intro key
      rw [accounted.byCaller]
      apply tally_eq_zero
      intro lease member
      simp [owed, released lease member]

/-- Two turns of one caller on one endpoint, the first released twice: the
second turn's charge is all that is left, though it was discounted by a hint
that is forgotten by then. -/
theorem prefill_accounting_exact_double_release :
    let events : List PrefillEvent :=
      [.acquire ⟨"e", 1000, some "k", none, none⟩ 0, .gate 0 {} 0, .charge 0,
        .release 0 {} true 1, .acquire ⟨"e", 1500, some "k", none, none⟩ 2,
        .forgetEndpoint "e", .gate 1 {} 3, .charge 1, .release 0 {} false 4]
    ∃ world, prefillMachine.run (.fresh none) events = some world ∧ world.tracker.backlog.read "e" =
          ((world.leases.filter fun lease =>
            !lease.released && lease.endpointId = "e").map PrefillLease.tokens).sum ∧
        world.tracker.backlog.read "e" = 500 := by
  intro events
  have ran : (prefillMachine.run (.fresh none) events).isSome = true := by
    decide +kernel
  rcases Option.isSome_iff_exists.mp ran with ⟨world, reached⟩
  refine ⟨world, reached, ((prefill_accounting_exact reached).1 "e").1, ?_⟩
  have read : (prefillMachine.run (.fresh none) events).map
          (fun world => world.tracker.backlog.read "e") = some 500 := by
    decide +kernel
  rw [reached] at read
  exact Option.some.inj read

end Steps

end HybridInference.Prefill
