import HybridInference.Routing.Call
import HybridInference.Prefill.Accounting
import HybridInference.Library.ListUpdate

/-!
# A call hands back what it took

`Holds resources claims lease` says what a call owes: the claims at the given
positions are out, each other one was handed back once, and no lease is
unreleased but the given one. Events of other requests do not change it, and where a call stands
says what it owes: the claim of the primary until the call ends or retries it, the claim of a
fallback while it is tried, and the lease of the attempt on the wire.
-/

namespace HybridInference.Routing

open Library Health Prefill

def Spent (breaker : CircuitBreaker) (token : ℕ) : Prop :=
  token < breaker.nextProbeToken ∧ breaker.probeToken ≠ some token

section Probes

variable {config : BreakerConfig} {policy : CircuitOpenPolicy} {scan : ResetScan}

theorem breaker_step_probe {world next : BreakerWorld} {event : BreakerEvent}
    (stepped : (breakerMachine config policy scan).step world event = some next) :
    world.breaker.nextProbeToken ≤ next.breaker.nextProbeToken ∧
      (next.breaker.probeToken = world.breaker.probeToken ∨ next.breaker.probeToken = none ∨
        next.breaker.probeToken = some world.breaker.nextProbeToken) := by
  cases event with
  | beginDispatch now =>
    rcases step_beginDispatch.mp stepped with ⟨-, rfl⟩
    rcases CircuitBreaker.beginDispatch_unchanged_or_token config world.breaker now with
      unchanged | ⟨token, issued⟩
    · simp [unchanged]
    · rcases CircuitBreaker.beginDispatch_token issued with ⟨-, claimed, -⟩
      simp [claimed, CircuitBreaker.claimProbe]
  | endDispatch token =>
    rcases step_endDispatch.mp stepped with rfl
    simp only [CircuitBreaker.endDispatch]
    split_ifs
    · exact ⟨le_refl _, Or.inr (Or.inl rfl)⟩
    · exact ⟨le_refl _, Or.inl rfl⟩
  | onSuccess =>
    rcases step_onSuccess.mp stepped with rfl
    cases state : world.breaker.state <;>
      simp [CircuitBreaker.onSuccess, CircuitBreaker.releaseProbe, state]
  | onFailure failure =>
    rcases step_onFailure.mp stepped with ⟨-, -, rfl⟩
    cases reached : (world.breaker.countFailure failure.caller).byStreak config ||
        CircuitBreaker.byAvailability config failure.availability with
    | false =>
      rw [CircuitBreaker.onFailure_below config policy scan reached]
      exact ⟨le_refl _, Or.inl rfl⟩
    | true =>
      rcases CircuitBreaker.onFailure_reached config policy scan reached with ⟨_, _, _, framed⟩
      simp only [framed]
      exact ⟨le_refl _, Or.inl rfl⟩
  | finishPage index delivery mono =>
    rcases step_finishPage.mp stepped with ⟨scheduled, -, -, -, rfl⟩
    rcases world.breaker.finishPage_frame scheduled.page delivery mono with ⟨_, _, _, framed⟩
    rw [framed]
    exact ⟨le_refl _, Or.inl rfl⟩

variable {alpha : ℚ} {endpoint next : Endpoint} {event : EndpointEvent} {token : ℕ}

theorem stepBreaker_world {breakerEvent : BreakerEvent}
    (stepped : endpoint.stepBreaker config policy scan breakerEvent = some next) :
    (breakerMachine config policy scan).step endpoint.world breakerEvent = some next.world := by
  rcases stepBreaker_eq_some.mp stepped with ⟨world, breakerStepped, rfl⟩
  exact breakerStepped

theorem endpoint_step_breaker
    (stepped : (endpointMachine alpha config policy scan).step endpoint event = some next) :
    next.world = endpoint.world ∨
      ∃ breakerEvent, (breakerMachine config policy scan).step endpoint.world breakerEvent =
        some next.world := by
  simp only [endpointMachine] at stepped
  cases event with
  | recordSuccess =>
    simp only [Endpoint.step, Endpoint.recordSuccess] at stepped
    have breakerStepped := stepBreaker_world stepped
    exact Or.inr ⟨_, breakerStepped⟩
  | recordFailure report =>
    simp only [Endpoint.step, Endpoint.recordFailure] at stepped
    split_ifs at stepped
    · cases stepped
      exact Or.inl rfl
    · have breakerStepped := stepBreaker_world stepped
      exact Or.inr ⟨_, breakerStepped⟩
    · have breakerStepped := stepBreaker_world stepped
      exact Or.inr ⟨_, breakerStepped⟩
  | beginDispatch now | finishPage index delivery mono =>
    exact Or.inr ⟨_, stepBreaker_world stepped⟩
  | endDispatch claim =>
    rcases claim with _ | _ | token
    · cases stepped
      exact Or.inl rfl
    · cases stepped
      exact Or.inl rfl
    · exact Or.inr ⟨_, stepBreaker_world stepped⟩

theorem endpoint_step_nextProbeToken
    (stepped : (endpointMachine alpha config policy scan).step endpoint event = some next) :
    endpoint.breaker.nextProbeToken ≤ next.breaker.nextProbeToken := by
  rcases endpoint_step_breaker stepped with same | ⟨_, breakerStepped⟩
  · exact (congrArg (fun world => world.breaker.nextProbeToken) same).ge
  · exact (breaker_step_probe breakerStepped).1

theorem Spent.step (spent : Spent endpoint.breaker token)
    (stepped : (endpointMachine alpha config policy scan).step endpoint event = some next) :
    Spent next.breaker token := by
  rcases spent with ⟨issued, free⟩
  refine ⟨issued.trans_le (endpoint_step_nextProbeToken stepped), ?_⟩
  rcases endpoint_step_breaker stepped with same | ⟨_, breakerStepped⟩
  · rw [Endpoint.breaker, same]
    exact free
  · rcases (breaker_step_probe breakerStepped).2 with kept | freed | given
    · rw [Endpoint.breaker, kept]
      exact free
    · rw [Endpoint.breaker, freed]
      simp
    · rw [Endpoint.breaker, given]
      intro equal
      exact issued.ne' (Option.some.inj equal)

theorem spent_of_endDispatch (issued : token < endpoint.breaker.nextProbeToken)
    (stepped : (endpointMachine alpha config policy scan).step endpoint
      (.endDispatch (some (some token))) = some next) : Spent next.breaker token := by
  refine ⟨issued.trans_le (endpoint_step_nextProbeToken stepped), ?_⟩
  simp only [endpointMachine, Endpoint.step] at stepped
  rcases stepBreaker_eq_some.mp stepped with ⟨world, breakerStepped, rfl⟩
  rcases step_endDispatch.mp breakerStepped with rfl
  simp only [Endpoint.breaker, CircuitBreaker.endDispatch]
  split_ifs with held
  · simp [CircuitBreaker.releaseProbe]
  · exact held

theorem issued_of_beginDispatch {now : ℚ}
    (decided : (endpoint.breaker.beginDispatch config now).2 = (true, some token))
    (stepped : (endpointMachine alpha config policy scan).step endpoint (.beginDispatch now) =
      some next) : token < next.breaker.nextProbeToken := by
  rcases CircuitBreaker.beginDispatch_token decided with ⟨rfl, claimed, -⟩
  rcases stepBreaker_eq_some.mp stepped with ⟨world, breakerStepped, rfl⟩
  rcases step_beginDispatch.mp breakerStepped with ⟨-, rfl⟩
  change _ < (endpoint.breaker.beginDispatch config now).1.nextProbeToken
  rw [claimed]
  exact Nat.lt_succ_self _

end Probes

/-- What a call owes: the claims at `claims` are out and the others handed back once, and the lease
at `lease` is not released. -/
structure Holds (resources : Resources) (claims : List ℕ) (lease : Option ℕ) : Prop where
  accounted : Accounted resources.prefill
  distinct : claims.Nodup
  taken : ∀ index ∈ claims, index < resources.claims.length
  ended : ∀ (index : ℕ) claim, resources.claims[index]? = some claim →
    claim.ended = if index ∈ claims then 0 else 1
  probes : ∀ claim ∈ resources.claims, ∀ token, claim.probeToken = some token →
    token < (resources.registry claim.endpointId).breaker.nextProbeToken ∧
      (claim.ended ≠ 0 → Spent (resources.registry claim.endpointId).breaker token)
  released : ∀ index ∈ resources.leases, ∃ found, resources.prefill.leases[index]? = some found ∧
    (found.released = true ∨ lease = some index)

namespace Holds

variable {health : HealthSettings} {resources next : Resources} {claims : List ℕ} {lease : Option ℕ}

theorem weaken (holds : Holds resources claims none) (lease : Option ℕ) :
    Holds resources claims lease := by
  refine { holds with released := ?_ }
  intro index member
  rcases holds.released index member with ⟨found, at_index, released | absent⟩
  · exact ⟨found, at_index, Or.inl released⟩
  · cases absent

variable {endpointId : String}

theorem stepEndpoint (holds : Holds resources claims lease)
    {event : EndpointEvent} (stepped : resources.stepEndpoint health endpointId event = some next) :
    Holds next claims lease := by
  simp only [Resources.stepEndpoint, Option.map_eq_some_iff] at stepped
  rcases stepped with ⟨endpoint, endpointStepped, rfl⟩
  refine { holds with probes := ?_ }
  intro claim member token given
  rcases holds.probes claim member token given with ⟨issued, spent⟩
  dsimp only
  by_cases here : claim.endpointId = endpointId
  · rw [here, Function.update_self]
    rw [here] at issued spent
    exact ⟨issued.trans_le (endpoint_step_nextProbeToken endpointStepped),
      fun handed => (spent handed).step endpointStepped⟩
  · rw [Function.update_of_ne here]
    exact ⟨issued, spent⟩

theorem prefill_step_leases {world after : PrefillWorld} {event : PrefillEvent}
    (stepped : prefillMachine.step world event = some after) {index : ℕ} {found : PrefillLease}
    (at_index : world.leases[index]? = some found) :
    ∃ kept, after.leases[index]? = some kept ∧ (found.released = true → kept.released = true) := by
  cases event <;> simp only [prefillMachine, PrefillWorld.step] at stepped
  case acquire request now | forgetEndpoint endpointId =>
    cases stepped
    exact ⟨found, at_index, id⟩
  case gate call settings now =>
    split at stepped <;> cases stepped
    exact ⟨found, at_index, id⟩
  case charge call =>
    split at stepped <;> cases stepped
    exact ⟨found, getElem?_concat_of_some at_index, id⟩
  case release released settings prefillConfirmed now =>
    split at stepped
    · cases stepped
    · next lease at_released =>
      split_ifs at stepped <;> cases stepped
      · exact ⟨found, at_index, id⟩
      · dsimp only
        rw [getElem?_set_of_some at_released]
        split_ifs
        · exact ⟨_, rfl, fun _ => rfl⟩
        · exact ⟨found, at_index, id⟩

theorem stepPrefill (holds : Holds resources claims lease) {event : PrefillEvent}
    (stepped : resources.stepPrefill event = some next) : Holds next claims lease := by
  simp only [Resources.stepPrefill, Option.map_eq_some_iff] at stepped
  rcases stepped with ⟨prefill, prefillStepped, rfl⟩
  refine { holds with accounted := holds.accounted.step prefillStepped, released := ?_ }
  intro index member
  rcases holds.released index member with ⟨found, at_index, out⟩
  rcases prefill_step_leases prefillStepped at_index with ⟨kept, at_kept, stays⟩
  exact ⟨kept, at_kept, out.imp_left stays⟩

variable {reading : Reading}

theorem release (holds : Holds resources claims lease) {given : Option ℕ} {confirmed : Bool}
    (owes : lease = none ∨ lease = given)
    (stepped : resources.release given confirmed reading = some next) :
    Holds next claims none := by
  cases given with
  | none =>
    simp only [Resources.release, Option.some.injEq] at stepped
    subst stepped
    rcases owes with rfl | rfl <;> exact holds
  | some index =>
    have kept := holds.stepPrefill stepped
    refine { kept with released := ?_ }
    intro other member
    rcases kept.released other member with ⟨found, at_other, released | out⟩
    · exact ⟨found, at_other, Or.inl released⟩
    · rcases owes with rfl | rfl
      · cases out
      · cases out
        refine ⟨found, at_other, Or.inl ?_⟩
        simp only [Resources.release, Resources.stepPrefill, Option.map_eq_some_iff] at stepped
        rcases stepped with ⟨prefill, prefillStepped, rfl⟩
        simp only [prefillMachine, PrefillWorld.step] at prefillStepped
        split at prefillStepped
        · cases prefillStepped
        · next lease at_lease =>
          split_ifs at prefillStepped with released <;> cases prefillStepped
          · rw [at_lease] at at_other
            exact Option.some.inj at_other ▸ released
          · dsimp only at at_other
            rw [getElem?_set_of_some at_lease, if_pos rfl] at at_other
            exact Option.some.inj at_other ▸ rfl

theorem acquire (holds : Holds resources claims none) {request : AcquireRequest}
    {acquired : Resources × ℕ} (stepped : resources.acquire request reading = some acquired) :
    Holds acquired.1 claims (some acquired.2) := by
  simp only [Resources.acquire, Option.map_eq_some_iff] at stepped
  rcases stepped with ⟨prefill, ran, rfl⟩
  have accounted : Accounted prefill :=
    Machine.run_invariant (fun _ _ _ accounted stepped => accounted.step stepped)
      holds.accounted ran
  simp only [Machine.run, prefillMachine, PrefillWorld.step, Option.bind_some,
    List.getElem?_concat_length, List.set_append_right _ _ le_rfl, Nat.sub_self,
    List.set_cons_zero, Option.some.injEq] at ran
  subst ran
  refine
    { accounted := accounted
      distinct := holds.distinct
      taken := holds.taken
      ended := holds.ended
      probes := holds.probes
      released := ?_ }
  intro index member
  rcases List.mem_append.mp member with earlier | last
  · rcases (holds.weaken (some resources.prefill.leases.length)).released index earlier with
      ⟨found, at_index, out⟩
    exact ⟨found, getElem?_concat_of_some at_index, out⟩
  · rw [List.mem_singleton.mp last]
    exact ⟨_, List.getElem?_concat_length, Or.inr rfl⟩

theorem beginDispatch (holds : Holds resources claims lease) {dispatched : Resources × Option ℕ}
    (stepped : resources.beginDispatch health endpointId reading = some dispatched) :
    Holds dispatched.1 (dispatched.2.toList ++ claims) lease := by
  simp only [Resources.beginDispatch, Option.map_eq_some_iff] at stepped
  rcases stepped with ⟨after, endpointStepped, rfl⟩
  have kept := holds.stepEndpoint endpointStepped
  simp only [Resources.stepEndpoint, Option.map_eq_some_iff] at endpointStepped
  rcases endpointStepped with ⟨endpoint, endpointStepped, rfl⟩
  split_ifs with admitted
  · refine
      { accounted := kept.accounted
        distinct := ?_
        taken := ?_
        ended := ?_
        probes := ?_
        released := kept.released }
    · refine List.nodup_cons.mpr ⟨?_, kept.distinct⟩
      intro member
      exact absurd (kept.taken _ member) (lt_irrefl _)
    · intro index member
      simp only [List.length_append, List.length_singleton]
      rcases List.mem_cons.mp member with rfl | earlier
      · exact Nat.lt_succ_self _
      · exact (kept.taken index earlier).trans (Nat.lt_succ_self _)
    · intro index claim at_index
      rcases getElem?_concat_cases at_index with earlier | ⟨rfl, rfl⟩
      · have inside := (List.getElem?_eq_some_iff.mp earlier).1
        rw [kept.ended index claim earlier]
        simp [inside.ne]
      · simp
    · intro claim member token given
      rcases List.mem_append.mp member with earlier | last
      · exact kept.probes claim earlier token given
      · rw [List.mem_singleton.mp last] at given ⊢
        refine ⟨?_, fun handed => absurd rfl handed⟩
        dsimp only
        rw [Function.update_self]
        exact issued_of_beginDispatch (Prod.ext admitted given) endpointStepped
  · exact kept

theorem endDispatch {claim : ℕ} (holds : Holds resources (claim :: claims) lease)
    (stepped : resources.endDispatch health (some claim) = some next) :
    Holds next claims lease := by
  simp only [Resources.endDispatch, Option.bind_eq_some_iff] at stepped
  rcases stepped with ⟨found, at_claim, endpointStepped⟩
  rcases List.nodup_cons.mp holds.distinct with ⟨other, distinct⟩
  simp only [Resources.stepEndpoint, Option.map_eq_some_iff] at endpointStepped
  rcases endpointStepped with ⟨endpoint, endpointStepped, rfl⟩
  refine
    { accounted := holds.accounted
      distinct := distinct
      taken := ?_
      ended := ?_
      probes := ?_
      released := holds.released }
  · intro index member
    simp only [List.length_set]
    exact holds.taken index (List.mem_cons_of_mem _ member)
  · intro index handed at_index
    dsimp only at at_index
    rw [getElem?_set_of_some at_claim] at at_index
    split_ifs at at_index with same
    · cases at_index
      have was := holds.ended claim found at_claim
      rw [if_pos List.mem_cons_self] at was
      rw [← same, if_neg other, was]
    · rw [holds.ended index handed at_index]
      simp [Ne.symm same]
  · intro handed member token given
    dsimp only
    rcases List.getElem?_of_mem member with ⟨index, at_index⟩
    dsimp only at at_index
    rw [getElem?_set_of_some at_claim] at at_index
    split_ifs at at_index with same
    · cases at_index
      have issued := (holds.probes found (List.mem_of_getElem? at_claim) token given).1
      dsimp only at given ⊢
      rw [Function.update_self]
      rw [given] at endpointStepped
      have spent := spent_of_endDispatch issued endpointStepped
      exact ⟨spent.1, fun _ => spent⟩
    · have before := holds.probes handed (List.mem_of_getElem? at_index) token given
      by_cases here : handed.endpointId = found.endpointId
      · rw [here, Function.update_self]
        rw [here] at before
        exact ⟨before.1.trans_le (endpoint_step_nextProbeToken endpointStepped),
          fun ended => (before.2 ended).step endpointStepped⟩
      · rw [Function.update_of_ne here]
        exact before

theorem endDispatch_toList {claim : Option ℕ}
    (holds : Holds resources (claim.toList ++ claims) lease)
    (stepped : resources.endDispatch health claim = some next) : Holds next claims lease := by
  cases claim with
  | none =>
    cases stepped
    exact holds
  | some claim => exact Holds.endDispatch holds stepped

theorem onFailure (holds : Holds resources claims lease) {mode : Mode} {error : AttemptError}
    (stepped : resources.onFailure health mode endpointId error reading = some next) :
    Holds next claims lease := by
  simp only [Resources.onFailure, Option.bind_eq_some_iff] at stepped
  rcases stepped with ⟨forgotten, forgets, endpointStepped⟩
  have kept : Holds forgotten claims lease := by
    split_ifs at forgets
    · exact holds.stepPrefill forgets
    · cases forgets
      exact holds
  exact kept.stepEndpoint endpointStepped

end Holds

def Call.attemptClaims (call : Call) (attempt : Attempt) : List ℕ :=
  (attempt.fallback.map Fallback.claim).toList ++ call.primaryClaim.toList

/-- The `finally` blocks outside an `await` release the lease, if there is one
left to release. -/
def Call.Unwinds (call : Call) (lease : Option ℕ) : Prop :=
  lease = none ∨ call.mode = .stream ∧ lease = call.lease

def Settled (session next : RouterSession) : Prop :=
  next.call = { session.call with stage := .ended } ∧ Holds next.resources [] none

def Seeks (session next : RouterSession) : Prop :=
  (∃ primary walk, next.call = { session.call with stage := .seeking primary walk }) ∧
    Holds next.resources session.call.primaryClaim.toList none

section Unwinding

variable {health : HealthSettings} {session next : RouterSession} {attempt : Attempt}
  {lease : Option ℕ} {reading : Reading}

theorem unwind_lease {claims : List ℕ} {after : Resources}
    (holds : Holds session.resources claims lease) (unwinds : session.call.Unwinds lease)
    (released : (if session.call.mode = .stream then
        session.resources.release session.call.lease false reading
      else some session.resources) = some after) : Holds after claims none := by
  rcases unwinds with rfl | ⟨streamed, rfl⟩
  · split_ifs at released
    · exact holds.release (Or.inl rfl) released
    · cases released
      exact holds
  · rw [if_pos streamed] at released
    exact holds.release (Or.inr rfl) released

theorem settled_of_finish (stepped : session.finish health reading = some next)
    (holds : Holds session.resources session.call.primaryClaim.toList lease)
    (unwinds : session.call.Unwinds lease) : Settled session next := by
  simp only [RouterSession.finish, Option.bind_eq_some_iff, Option.map_eq_some_iff] at stepped
  rcases stepped with ⟨after, released, final, handed, rfl⟩
  have free := unwind_lease holds unwinds released
  rw [← List.append_nil session.call.primaryClaim.toList] at free
  exact ⟨rfl, free.endDispatch_toList handed⟩

theorem holds_of_endFallback (stepped : session.endFallback health attempt reading = some next)
    (holds : Holds session.resources (session.call.attemptClaims attempt) lease)
    (unwinds : session.call.Unwinds lease) :
    next.call = session.call ∧ ∃ left, Holds next.resources session.call.primaryClaim.toList left ∧
        session.call.Unwinds left ∧ (attempt.fallback.isSome → left = none) := by
  simp only [RouterSession.endFallback] at stepped
  simp only [Call.attemptClaims] at holds
  cases taken : attempt.fallback with
  | none =>
    simp only [taken, Option.some.injEq] at stepped
    rw [taken] at holds
    subst stepped
    exact ⟨rfl, lease, holds, unwinds, by simp⟩
  | some fallback =>
    simp only [taken, Option.bind_eq_some_iff, Option.map_eq_some_iff] at stepped
    rw [taken] at holds
    rcases stepped with ⟨after, released, final, handed, rfl⟩
    have free := unwind_lease holds unwinds released
    exact ⟨rfl, none, free.endDispatch handed, Or.inl rfl, fun _ => rfl⟩

theorem settled_of_leave (stepped : session.leave health attempt reading = some next)
    (holds : Holds session.resources (session.call.attemptClaims attempt) lease)
    (unwinds : session.call.Unwinds lease) : Settled session next := by
  simp only [RouterSession.leave, Option.bind_eq_some_iff] at stepped
  rcases stepped with ⟨after, unwound, finished⟩
  rcases holds_of_endFallback unwound holds unwinds with ⟨same, left, owes, unwindsLeft, -⟩
  rw [← same] at owes unwindsLeft
  rcases settled_of_finish finished owes unwindsLeft with ⟨ended, free⟩
  exact ⟨by rw [ended, same], free⟩

theorem settled_or_seeks_of_failAttempt {error : AttemptError}
    (stepped : session.failAttempt health attempt error reading = some next)
    (holds : Holds session.resources (session.call.attemptClaims attempt) lease)
    (unwinds : session.call.Unwinds lease) :
    Settled session next ∨ session.call.chunksYielded = false ∧ Seeks session next := by
  unfold RouterSession.failAttempt at stepped
  cases taken : attempt.fallback with
  | none =>
    simp only [taken, Option.bind_eq_some_iff] at stepped
    rcases stepped with ⟨after, released, failed, recorded, finished⟩
    simp only [Call.attemptClaims, taken, Option.map_none, Option.toList_none,
      List.nil_append] at holds
    have owes := (unwind_lease holds unwinds released).onFailure recorded
    split_ifs at finished with stops
    · have settled := settled_of_finish finished owes (Or.inl rfl)
      exact Or.inl settled
    · cases finished
      rw [Bool.or_eq_true, not_or] at stops
      exact Or.inr ⟨by simpa using stops.2, ⟨_, _, rfl⟩, owes⟩
  | some fallback =>
    simp only [taken, Option.bind_eq_some_iff] at stepped
    rcases stepped with ⟨failed, recorded, finished⟩
    have owes := holds.onFailure recorded
    split_ifs at finished with stops
    · have settled := settled_of_leave finished owes unwinds
      exact Or.inl settled
    · simp only [Option.map_eq_some_iff] at finished
      rcases finished with ⟨after, unwound, rfl⟩
      rcases holds_of_endFallback unwound owes unwinds with ⟨same, left, owed, -, free⟩
      rw [free (by rw [taken]; rfl)] at owed
      rw [Bool.or_eq_true, not_or] at stops
      have stage : (after.seekOn fallback.primary
          (fallback.walk.fail attempt.adapter attempt.offload error)).call =
            { session.call with
              stage := .seeking fallback.primary
                (fallback.walk.fail attempt.adapter attempt.offload error) } := by
        rw [RouterSession.seekOn, same]
      exact Or.inr ⟨by simpa using stops.1, ⟨_, _, stage⟩, owed⟩

end Unwinding

/-- At these positions a chunk has gone out that `chunks_yielded` does not show
yet. -/
def Position.yieldsChunk : Position → Bool
  | .yieldedHeld _ | .yieldedChunk => true
  | .awaitingResponse | .yieldedRouting | .awaitingFirstToken _ | .awaitingChunk => false

def Call.attemptLease (call : Call) (attempt : Attempt) : Position → Option ℕ
  | .yieldedRouting => if attempt.fallback.isSome then none else call.lease
  | _ => call.lease

/-- The call holds its attempt's claims and lease and has yielded of its route only. -/
structure OnTheWire (session : RouterSession) (attempt : Attempt) (position : Position) :
    Prop where
  holds : Holds session.resources (session.call.attemptClaims attempt)
    (session.call.attemptLease attempt position)
  mode : position = .awaitingResponse ∨ session.call.mode = .stream
  oneRoute : ∀ route ∈ session.call.yielded, route = attempt.adapter
  committed : session.call.yielded = [] ∨ session.call.chunksYielded = true ∨
    position.yieldsChunk = true

def Balanced (session : RouterSession) : Prop :=
  match session.call.stage with
  | .selecting => Holds session.resources [] none ∧ session.call.yielded = []
  | .attempting attempt position => OnTheWire session attempt position
  | .seeking _ _ =>
    Holds session.resources session.call.primaryClaim.toList none ∧ session.call.yielded = []
  | .ended =>
    Holds session.resources [] none ∧
      ∀ first ∈ session.call.yielded, ∀ second ∈ session.call.yielded, first = second

section Steps

variable {health : HealthSettings} {session next : RouterSession} {attempt : Attempt}
  {position : Position} {reading : Reading}

theorem Balanced.of_settled (settled : Settled session next)
    (oneRoute : ∀ first ∈ session.call.yielded, ∀ second ∈ session.call.yielded, first = second) :
    Balanced next := by
  rcases settled with ⟨ended, free⟩
  unfold Balanced
  rw [ended]
  exact ⟨free, oneRoute⟩

theorem Balanced.of_seeks (seeks : Seeks session next) (silent : session.call.yielded = []) :
    Balanced next := by
  rcases seeks with ⟨⟨primary, walk, stage⟩, owes⟩
  unfold Balanced
  rw [stage]
  exact ⟨owes, silent⟩

section

variable (wired : OnTheWire session attempt position)

include wired

theorem OnTheWire.routes :
    ∀ first ∈ session.call.yielded, ∀ second ∈ session.call.yielded, first = second := by
  intro first firstMem second secondMem
  rw [wired.oneRoute first firstMem, wired.oneRoute second secondMem]

theorem OnTheWire.unwinds (elsewhere : position ≠ .awaitingResponse) :
    session.call.Unwinds (session.call.attemptLease attempt position) := by
  have streamed := wired.mode.resolve_left elsewhere
  unfold Call.attemptLease
  split
  · split_ifs
    · exact Or.inl rfl
    · exact Or.inr ⟨streamed, rfl⟩
  · exact Or.inr ⟨streamed, rfl⟩

theorem OnTheWire.endAwait (stepped : session.endAwait position reading = some next) :
    next.call = session.call ∧ ∃ lease,
      Holds next.resources (session.call.attemptClaims attempt) lease ∧
        session.call.Unwinds lease := by
  have owes := wired.holds
  cases position with
  | awaitingResponse =>
    simp only [RouterSession.endAwait, Option.map_eq_some_iff] at stepped
    rcases stepped with ⟨after, released, rfl⟩
    exact ⟨rfl, none, owes.release (Or.inr rfl) released, Or.inl rfl⟩
  | yieldedRouting | awaitingFirstToken _ | yieldedHeld _ | awaitingChunk | yieldedChunk =>
    cases stepped
    exact ⟨rfl, _, owes, wired.unwinds (by simp)⟩

theorem OnTheWire.abandoned (stepped : ((session.endAwait position reading).bind fun session =>
      session.leave health attempt reading) = some next) : Balanced next := by
  rcases Option.bind_eq_some_iff.mp stepped with ⟨after, unwound, left⟩
  rcases wired.endAwait unwound with ⟨same, lease, owes, unwinds⟩
  rw [← same] at owes unwinds
  refine .of_settled (settled_of_leave left owes unwinds) ?_
  rw [same]
  exact wired.routes

theorem OnTheWire.failed
    (waits : position.yieldsChunk = false) {after : RouterSession} {lease : Option ℕ}
    {error : AttemptError} (stepped : after.failAttempt health attempt error reading = some next)
    (same : after.call = session.call)
    (owes : Holds after.resources (session.call.attemptClaims attempt) lease)
    (unwinds : session.call.Unwinds lease) : Balanced next := by
  rw [← same] at owes unwinds
  rcases settled_or_seeks_of_failAttempt stepped owes unwinds with settled | ⟨silent, seeks⟩
  · refine .of_settled settled ?_
    rw [same]
    exact wired.routes
  · refine .of_seeks seeks ?_
    rw [same] at silent ⊢
    rcases wired.committed with none | sent | yields
    · exact none
    · rw [sent] at silent
      cases silent
    · rw [waits] at yields
      cases yields

theorem OnTheWire.raised {error : AttemptError} (stepped : (if position.awaits then
        (session.endAwait position reading).bind fun session =>
          session.failAttempt health attempt error reading
      else none) = some next) : Balanced next := by
  split_ifs at stepped with awaits
  rcases Option.bind_eq_some_iff.mp stepped with ⟨after, unwound, failed⟩
  rcases wired.endAwait unwound with ⟨same, lease, owes, unwinds⟩
  refine wired.failed ?_ failed same owes unwinds
  cases position <;> simp_all [Position.awaits, Position.yieldsChunk]

end

theorem OnTheWire.respond (wired : OnTheWire session attempt .awaitingResponse)
    {spoiled : Option AttemptError}
    (stepped : session.respond health attempt spoiled reading = some next) : Balanced next := by
  simp only [RouterSession.respond, Option.bind_eq_some_iff] at stepped
  rcases stepped with ⟨confirmed, release, released, again, recorded, succeeded, ended⟩
  have free := wired.holds.release (Or.inr rfl) release
  have still := (free.release (Or.inl rfl) again).stepEndpoint succeeded
  cases spoiled with
  | none =>
    have settled := settled_of_leave ended still (Or.inl rfl)
    exact .of_settled settled wired.routes
  | some error => exact wired.failed rfl ended rfl still (Or.inl rfl)

theorem holds_of_takeLease {claims : List ℕ} {adapter : Adapter}
    (stepped : session.takeLease adapter reading = some next)
    (holds : Holds session.resources claims none) :
    ∃ lease, next.call = { session.call with lease := some lease } ∧
      Holds next.resources claims (some lease) := by
  simp only [RouterSession.takeLease, Option.map_eq_some_iff] at stepped
  rcases stepped with ⟨acquired, taken, rfl⟩
  exact ⟨acquired.2, rfl, holds.acquire taken⟩

theorem holds_of_firstToken {claims : List ℕ}
    (stepped : session.firstToken health attempt reading = some next)
    (holds : Holds session.resources claims session.call.lease) :
    next.call = session.call ∧ Holds next.resources claims session.call.lease := by
  simp only [RouterSession.firstToken, Option.bind_eq_some_iff, Option.map_eq_some_iff] at stepped
  rcases stepped with ⟨recorded, succeeded, after, released, rfl⟩
  have owes := (holds.stepEndpoint succeeded).release (Or.inr rfl) released
  exact ⟨rfl, owes.weaken _⟩

theorem Balanced.opens (holds : Holds session.resources (session.call.attemptClaims attempt)
      (session.call.attemptLease attempt position))
    (placed : position = session.call.mode.opening) (silent : session.call.yielded = []) :
    Balanced (session.stand attempt position) := by
  have wired : OnTheWire (session.stand attempt position) attempt position := by
    refine
      { holds := holds
        mode := ?_
        oneRoute := ?_
        committed := Or.inl silent }
    · change position = _ ∨ session.call.mode = .stream
      rw [placed]
      cases session.call.mode with
      | chat => exact Or.inl rfl
      | stream => exact Or.inr rfl
    · intro route member
      simp [RouterSession.stand, silent] at member
  exact wired

theorem Balanced.stand (placed : position ≠ .yieldedRouting)
    (holds : Holds session.resources (session.call.attemptClaims attempt) session.call.lease)
    (streamed : session.call.mode = .stream)
    (oneRoute : ∀ route ∈ session.call.yielded, route = attempt.adapter)
    (committed : session.call.yielded = [] ∨ session.call.chunksYielded = true ∨
      position.yieldsChunk = true) :
    Balanced (session.stand attempt position) := by
  have wired : OnTheWire (session.stand attempt position) attempt position := by
    refine
      { holds := ?_
        mode := Or.inr streamed
        oneRoute := oneRoute
        committed := committed }
    cases position with
    | yieldedRouting => exact absurd rfl placed
    | awaitingResponse | awaitingFirstToken _ | yieldedHeld _ | awaitingChunk | yieldedChunk =>
      exact holds
  exact wired

theorem Balanced.yieldChunk (placed : position.yieldsChunk = true)
    (holds : Holds session.resources (session.call.attemptClaims attempt) session.call.lease)
    (streamed : session.call.mode = .stream)
    (oneRoute : ∀ route ∈ session.call.yielded, route = attempt.adapter) :
    Balanced (session.yieldChunk attempt position) := by
  let sent : RouterSession :=
    { session with
      call := { session.call with yielded := session.call.yielded ++ [attempt.adapter] } }
  have owes : Holds sent.resources (sent.call.attemptClaims attempt) sent.call.lease := holds
  refine Balanced.stand ?_ owes streamed ?_ (Or.inr (Or.inr placed))
  · rintro rfl
    cases placed
  · intro route member
    rcases List.mem_append.mp member with earlier | last
    · exact oneRoute route earlier
    · exact List.mem_singleton.mp last

theorem Balanced.yieldHeld {left : ℕ}
    (holds : Holds session.resources (session.call.attemptClaims attempt) session.call.lease)
    (streamed : session.call.mode = .stream)
    (oneRoute : ∀ route ∈ session.call.yielded, route = attempt.adapter)
    (committed : left = 0 → session.call.yielded = [] ∨ session.call.chunksYielded = true) :
    Balanced (session.yieldHeld attempt left) := by
  cases left with
  | zero =>
    exact Balanced.stand (by simp) holds streamed oneRoute ((committed rfl).imp_right Or.inl)
  | succ left => exact Balanced.yieldChunk rfl holds streamed oneRoute

section

variable (wired : OnTheWire session attempt position)

include wired

theorem OnTheWire.streamed
    (elsewhere : position ≠ .awaitingResponse) : session.call.mode = .stream :=
  wired.mode.resolve_left elsewhere

theorem OnTheWire.waits (waits : position.yieldsChunk = false) :
    session.call.yielded = [] ∨ session.call.chunksYielded = true := by
  rcases wired.committed with none | sent | yields
  · exact Or.inl none
  · exact Or.inr sent
  · rw [waits] at yields
    cases yields

theorem OnTheWire.resume
    (stepped : session.resume attempt reading position = some next) : Balanced next := by
  cases position with
  | awaitingResponse | awaitingFirstToken _ | awaitingChunk => cases stepped
  | yieldedRouting =>
    simp only [RouterSession.resume, Option.map_eq_some_iff] at stepped
    rcases stepped with ⟨charged, charge, rfl⟩
    have owes : ∃ lease, charged.call = { session.call with lease := lease } ∧
        Holds charged.resources (session.call.attemptClaims attempt) lease := by
      have holds := wired.holds
      simp only [Call.attemptLease] at holds
      split_ifs at charge holds
      · rcases holds_of_takeLease charge holds with ⟨lease, same, owes⟩
        exact ⟨some lease, same, owes⟩
      · cases charge
        exact ⟨session.call.lease, rfl, holds⟩
    rcases charged with ⟨resources, call⟩
    rcases owes with ⟨lease, rfl, owes⟩
    have committed := wired.waits rfl
    split_ifs
    all_goals
      exact Balanced.stand (by simp) owes (wired.streamed (by simp)) wired.oneRoute
        (committed.imp_right Or.inl)
  | yieldedHeld left =>
    cases stepped
    exact Balanced.yieldHeld wired.holds (wired.streamed (by simp)) wired.oneRoute
      fun _ => Or.inr rfl
  | yieldedChunk =>
    cases stepped
    exact Balanced.stand (by simp) wired.holds (wired.streamed (by simp)) wired.oneRoute
      (Or.inr (Or.inl rfl))

theorem OnTheWire.receive {content full : Bool}
    (stepped : session.receive health attempt content full reading position = some next) :
    Balanced next := by
  cases position with
  | awaitingResponse | yieldedRouting | yieldedHeld _ | yieldedChunk => cases stepped
  | awaitingFirstToken held =>
    have streamed := wired.streamed (by simp)
    simp only [RouterSession.receive] at stepped
    split_ifs at stepped
    · rcases Option.map_eq_some_iff.mp stepped with ⟨⟨resources, call⟩, first, rfl⟩
      rcases holds_of_firstToken first wired.holds with ⟨rfl, owes⟩
      exact Balanced.yieldHeld owes streamed wired.oneRoute (by simp)
    · cases stepped
      exact Balanced.yieldHeld wired.holds streamed wired.oneRoute (by simp)
    · cases stepped
      exact Balanced.stand (by simp) wired.holds streamed wired.oneRoute wired.committed
  | awaitingChunk =>
    have streamed := wired.streamed (by simp)
    simp only [RouterSession.receive] at stepped
    split_ifs at stepped
    · rcases Option.map_eq_some_iff.mp stepped with ⟨⟨resources, call⟩, first, rfl⟩
      rcases holds_of_firstToken first wired.holds with ⟨rfl, owes⟩
      exact Balanced.yieldChunk rfl owes streamed wired.oneRoute
    · cases stepped
      exact Balanced.yieldChunk rfl wired.holds streamed wired.oneRoute

end

theorem Balanced.pick {adapter : Adapter} {bound watched : Bool}
    (holds : Holds session.resources [] none) (silent : session.call.yielded = [])
    (selecting : session.call.stage = .selecting)
    (stepped : session.pick health adapter bound watched reading = some next) :
    Balanced next := by
  simp only [RouterSession.pick, Option.bind_eq_some_iff] at stepped
  rcases stepped with ⟨⟨resources, decision⟩, dispatched, ended⟩
  have owes : Holds resources (decision.elim [] Option.toList) none := by
    split_ifs at dispatched
    · cases dispatched
      exact holds
    · rcases Option.map_eq_some_iff.mp dispatched with ⟨⟨after, claim⟩, began, equal⟩
      cases equal
      have taken := holds.beginDispatch began
      cases claim with
      | none => exact taken
      | some claim => exact taken
  cases decision with
  | none =>
    cases ended
    simp only [Balanced, selecting]
    exact ⟨owes, silent⟩
  | some claim =>
    rcases Option.bind_eq_some_iff.mp ended with ⟨⟨charged, call⟩, charge, bindings⟩
    rcases holds_of_takeLease charge owes with ⟨lease, rfl, owed⟩
    split_ifs at bindings
    · cases bindings
      refine Balanced.opens ?_ rfl silent
      cases session.call.mode with
      | chat => exact owed
      | stream => exact owed
    · simp only [Option.bind_eq_some_iff, Option.map_eq_some_iff] at bindings
      rcases bindings with ⟨handed, endDispatch, released, release, rfl⟩
      rw [Option.elim_some, ← List.append_nil claim.toList] at owed
      refine ⟨(owed.endDispatch_toList endDispatch).release (Or.inr rfl) release, ?_⟩
      simp [silent]

variable {primary adapter : Adapter}

theorem holds_of_endRetriedClaim
    (stepped : session.endRetriedClaim health primary adapter = some next)
    (holds : Holds session.resources session.call.primaryClaim.toList none) :
    next.call.yielded = session.call.yielded ∧
      Holds next.resources next.call.primaryClaim.toList none := by
  unfold RouterSession.endRetriedClaim at stepped
  split_ifs at stepped
  · rcases Option.map_eq_some_iff.mp stepped with ⟨after, handed, rfl⟩
    rw [← List.append_nil session.call.primaryClaim.toList] at holds
    exact ⟨rfl, holds.endDispatch_toList handed⟩
  · cases stepped
    exact ⟨rfl, holds⟩

theorem Balanced.tryFallback {walk : Walk} {offload : Option OffloadReason} {watched : Bool}
    (holds : Holds session.resources session.call.primaryClaim.toList none)
    (silent : session.call.yielded = [])
    (stepped : session.tryFallback health primary walk adapter offload watched reading =
      some next) : Balanced next := by
  rcases Option.bind_eq_some_iff.mp stepped with ⟨⟨resources, claim⟩, began, started⟩
  have taken := holds.beginDispatch began
  cases claim with
  | none =>
    cases started
    exact ⟨taken, silent⟩
  | some claim =>
    dsimp only at started
    split at started
    · next chat =>
      rcases Option.map_eq_some_iff.mp started with ⟨⟨charged, call⟩, charge, rfl⟩
      rcases holds_of_takeLease charge taken with ⟨lease, rfl, owed⟩
      refine Balanced.opens owed ?_ silent
      rw [chat]
      rfl
    · next stream =>
      cases started
      refine Balanced.opens taken ?_ silent
      rw [stream]
      rfl

theorem Balanced.seek {primary : Adapter} {walk : Walk} {bound watched : Bool}
    (holds : Holds session.resources session.call.primaryClaim.toList none)
    (silent : session.call.yielded = [])
    (stepped : session.seek health primary walk bound watched reading = some next) :
    Balanced next := by
  have oneRoute : ∀ first ∈ session.call.yielded, ∀ second ∈ session.call.yielded,
      first = second := by simp [silent]
  unfold RouterSession.seek at stepped
  split at stepped
  · exact .of_settled (settled_of_finish stepped holds (Or.inl rfl)) oneRoute
  · dsimp only at stepped
    split_ifs at stepped
    · cases stepped
      exact ⟨holds, silent⟩
    · exact .of_settled (settled_of_finish stepped holds (Or.inl rfl)) oneRoute
    · rcases Option.bind_eq_some_iff.mp stepped with ⟨retried, handed, tried⟩
      rcases holds_of_endRetriedClaim handed holds with ⟨same, owes⟩
      exact Balanced.tryFallback owes (same.trans silent) tried

theorem OnTheWire.step {action : CallAction} (wired : OnTheWire session attempt position)
    (stepped : session.stepAttempt health attempt position reading action = some next) :
    Balanced next := by
  cases action with
  | pick _ _ _ | unplaced | seek _ _ => cases stepped
  | responded spoiled =>
    simp only [RouterSession.stepAttempt] at stepped
    split_ifs at stepped with here
    subst here
    exact wired.respond stepped
  | raised error => exact wired.raised stepped
  | abandoned => exact wired.abandoned stepped
  | resumed => exact wired.resume stepped
  | chunk content full => exact wired.receive stepped
  | streamEnded =>
    cases position with
    | awaitingFirstToken held =>
      cases stepped
      exact Balanced.yieldHeld wired.holds (wired.streamed (by simp)) wired.oneRoute
        fun _ => wired.waits rfl
    | awaitingChunk =>
      have settled := settled_of_leave stepped wired.holds (wired.unwinds (by simp))
      exact .of_settled settled wired.routes
    | awaitingResponse | yieldedRouting | yieldedHeld _ | yieldedChunk => cases stepped

theorem Balanced.stepCall {action : CallAction} (balanced : Balanced session)
    (stepped : session.stepCall health action reading = some next) : Balanced next := by
  unfold Balanced at balanced
  unfold RouterSession.stepCall at stepped
  cases stage : session.call.stage with
  | selecting =>
    simp only [stage] at balanced stepped
    cases action with
    | pick adapter bound watched => exact Balanced.pick balanced.1 balanced.2 stage stepped
    | unplaced =>
      cases stepped
      refine ⟨balanced.1, ?_⟩
      simp [balanced.2]
    | responded _ | raised _ | abandoned | resumed | chunk _ _ | streamEnded | seek _ _ =>
      cases stepped
  | attempting attempt position =>
    simp only [stage] at balanced stepped
    exact balanced.step stepped
  | seeking primary walk =>
    simp only [stage] at balanced stepped
    cases action with
    | seek bound watched => exact Balanced.seek balanced.1 balanced.2 stepped
    | abandoned =>
      refine .of_settled (settled_of_finish stepped balanced.1 (Or.inl rfl)) ?_
      simp [balanced.2]
    | pick _ _ _ | unplaced | responded _ | raised _ | resumed | chunk _ _ | streamEnded =>
      cases stepped
  | ended =>
    simp only [stage] at stepped
    cases stepped

theorem Balanced.resources {resources : Resources} (balanced : Balanced session)
    (kept : ∀ claims lease, Holds session.resources claims lease → Holds resources claims lease) :
    Balanced { session with resources := resources } := by
  unfold Balanced at balanced ⊢
  dsimp only
  split at balanced
  · exact ⟨kept _ _ balanced.1, balanced.2⟩
  · exact { balanced with holds := kept _ _ balanced.holds }
  · exact ⟨kept _ _ balanced.1, balanced.2⟩
  · exact ⟨kept _ _ balanced.1, balanced.2⟩

/-- One event keeps every claim and lease balanced. -/
theorem Balanced.step {event : SessionEvent} (balanced : Balanced session)
    (stepped : (routerMachine health).step session event = some next) : Balanced next := by
  cases event with
  | call action reading => exact balanced.stepCall stepped
  | registry endpointId event =>
    rcases Option.map_eq_some_iff.mp stepped with ⟨resources, endpointStepped, rfl⟩
    exact balanced.resources fun _ _ holds => holds.stepEndpoint endpointStepped
  | prefill event =>
    rcases Option.map_eq_some_iff.mp stepped with ⟨resources, prefillStepped, rfl⟩
    exact balanced.resources fun _ _ holds => holds.stepPrefill prefillStepped

theorem Balanced.of_run {registry : String → Endpoint} {fixedElephantTokens : Option ℤ}
    {mode : Mode} {request : RouterRequest} {prompt : Prompt} {events : List SessionEvent}
    (ran : (routerMachine health).run
      (.start registry fixedElephantTokens mode request prompt) events = some session) :
    Balanced session := by
  refine Machine.run_invariant (fun _ _ _ balanced stepped => balanced.step stepped) ?_ ran
  refine ⟨?_, rfl⟩
  refine
    { accounted := Accounted.of_run (Machine.run_nil (PrefillWorld.fresh fixedElephantTokens))
      distinct := List.nodup_nil
      taken := by simp
      ended := by simp [RouterSession.start]
      probes := by simp [RouterSession.start]
      released := by simp [RouterSession.start] }

end Steps

def Resources.foreignLeases (resources : Resources) : List PrefillLease :=
  (resources.prefill.leases.zipIdx.filter fun entry => !resources.leases.contains entry.2).map
    Prod.fst

theorem Holds.foreign_sum {resources : Resources} {claims : List ℕ}
    (holds : Holds resources claims none) (counts : PrefillLease → Bool)
    (amount : PrefillLease → ℤ) :
    tally (owed counts amount) resources.prefill.leases =
      ((resources.foreignLeases.filter fun lease => !lease.released && counts lease).map
        amount).sum := by
  rw [sum_map_filter]
  refine (tally_filter_zipIdx (fun index => !resources.leases.contains index) ?_).symm
  intro index lease at_index own
  have member : index ∈ resources.leases := by simpa using own
  rcases holds.released index member with ⟨found, at_found, released | out⟩
  · rw [at_index] at at_found
    cases at_found
    simp [owed, released]
  · cases out

/-- When a call has ended, each claim it took was handed back once and each lease is released,
whatever other requests did; all chunks it yields are of one route. -/
theorem router_call_balanced {health : HealthSettings} {registry : String → Endpoint}
    {fixedElephantTokens : Option ℤ} {mode : Mode} {request : RouterRequest} {prompt : Prompt}
    {events : List SessionEvent} {session : RouterSession}
    (ran : (routerMachine health).run
      (.start registry fixedElephantTokens mode request prompt) events = some session) :
    (session.call.stage = .ended → (∀ claim ∈ session.resources.claims, claim.ended = 1 ∧
        ∀ token, claim.probeToken = some token →
          (session.resources.registry claim.endpointId).breaker.probeToken ≠ some token) ∧
      (∀ index ∈ session.resources.leases, ∃ lease,
        session.resources.prefill.leases[index]? = some lease ∧ lease.released = true) ∧
      ∀ endpointId, session.resources.prefill.tracker.backlog.read endpointId =
          ((session.resources.foreignLeases.filter fun lease =>
            !lease.released && lease.endpointId = endpointId).map PrefillLease.tokens).sum ∧
        session.resources.prefill.tracker.elephants.read endpointId =
          ((session.resources.foreignLeases.filter fun lease =>
            !lease.released && (lease.endpointId = endpointId && lease.elephant)).length : ℤ) ∧
        ∀ key, session.resources.prefill.tracker.byCaller.read (endpointId, key) =
          ((session.resources.foreignLeases.filter fun lease =>
            !lease.released && (lease.endpointId = endpointId && lease.affinityKey = some key)).map
              PrefillLease.tokens).sum) ∧
    ∀ first ∈ session.call.yielded, ∀ second ∈ session.call.yielded, first = second := by
  have balanced := Balanced.of_run ran
  refine ⟨?_, ?_⟩
  · intro ended
    simp only [Balanced, ended] at balanced
    rcases balanced with ⟨holds, -⟩
    refine ⟨?_, ?_, ?_⟩
    · intro claim member
      rcases List.getElem?_of_mem member with ⟨index, at_index⟩
      have once : claim.ended = 1 := by simpa using holds.ended index claim at_index
      refine ⟨once, ?_⟩
      intro token given
      exact ((holds.probes claim member token given).2 (by omega)).2
    · intro index member
      rcases holds.released index member with ⟨lease, at_index, released | out⟩
      · exact ⟨lease, at_index, released⟩
      · cases out
    · intro endpointId
      refine ⟨?_, ?_, ?_⟩
      · rw [holds.accounted.backlog]
        exact holds.foreign_sum (onEndpoint endpointId) PrefillLease.tokens
      · rw [holds.accounted.elephants]
        refine (holds.foreign_sum (elephantOn endpointId) fun _ => 1).trans ?_
        simp [elephantOn]
      · intro key
        rw [holds.accounted.byCaller]
        exact holds.foreign_sum (ofCaller (endpointId, key)) PrefillLease.tokens
  · unfold Balanced at balanced
    split at balanced
    · simp [balanced.2]
    · exact balanced.routes
    · simp [balanced.2]
    · exact balanced.2

def recoveringModel : RouterSession :=
  .start (fun endpointId =>
      if endpointId = "first" then
        { Endpoint.fresh 0 0 with
          world := { BreakerWorld.fresh 0 0 with
            breaker := { state := .opened, lastOpened := some 0 } } }
      else .fresh 0 0)
    none .stream
    { pinProvider := none
      allowFallback := true
      prefillTokens := 1000
      atSelection := { candidates := none, policy := none }
      atFallback :=
        { candidates := some [(⟨0, "first", "first", none⟩, 1), (⟨1, "second", "second", none⟩, 1)]
          policy := none } }
    { affinityKey := some "caller", fingerprint := none, anchorFor := fun _ => none }

def readingAt (now : ℚ) : Reading :=
  { clocks := { perf := now, mono := now, wall := 0 }
    reportedAt := now
    settings := {}
    userId := none
    userName := none
    scheduled := false }

def abandonedStream : List SessionEvent :=
  [.call (.pick ⟨0, "first", "first", none⟩ true true) (readingAt 40),
    .call .resumed (readingAt 41),
    .call (.raised WaitDeadline.engineWait.error) (readingAt 42),
    .call (.seek true false) (readingAt 43),
    .call .resumed (readingAt 44),
    .call (.chunk true false) (readingAt 45),
    .call .abandoned (readingAt 46)]

theorem router_call_balanced_abandoned_stream : ∃ session,
      (routerMachine { alpha := 1 / 10, config := {}, policy := {}, scan := .silent }).run
          recoveringModel abandonedStream = some session ∧
        session.call.yielded = [⟨1, "second", "second", none⟩] ∧
        session.resources.claims.map DispatchClaim.probeToken = [some 1, none] ∧
        ∀ claim ∈ session.resources.claims, claim.ended = 1 ∧
          ∀ token, claim.probeToken = some token →
            (session.resources.registry claim.endpointId).breaker.probeToken ≠ some token := by
  have ran := (Option.some_get (show ((routerMachine
      { alpha := 1 / 10, config := {}, policy := {}, scan := .silent }).run
        recoveringModel abandonedStream).isSome = true by decide +kernel)).symm
  refine ⟨_, ran, by decide +kernel, by decide +kernel, ?_⟩
  refine ((router_call_balanced ran).1 ?_).1
  decide +kernel

end HybridInference.Routing
