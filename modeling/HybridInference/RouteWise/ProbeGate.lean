import HybridInference.Library.Dict
import HybridInference.Library.Machine
import HybridInference.Library.WaitLine

/-!
# The probe concurrency gate

`_claim_probe_limit`, `_effective_probe_limit` and `_ProbeConcurrencyGate` of
`routing.routewise.router`, for the gate of one event loop. The gate's count and
queue are those of a line; the limit is the lowest claim of a live router, read
anew by every operation.

Each event is a block of the source with no `await` in it, but for `_release`:
a claim expires by garbage collection, which may run between any two turns of
its loop, so each turn is an event of its own. A coroutine in `slot()` refers to
its router, whose claim therefore stays as long as it runs. Routers are built on
the event loop, so no claim is made while `_release` runs.

An entry that finds room goes in at once, past whoever waits: its place is
marked and stands outside the order of the line.
-/

namespace HybridInference.RouteWise

open Library

/-- `_PROBE_LIMIT_CLAIMS`: the limit each live router claims. -/
abbrev ProbeLimitClaims := Dict ℕ ℕ

def claimProbeLimit (claims : ProbeLimitClaims) (owner : ℕ) (limit : ℤ) : ProbeLimitClaims :=
  claims.insert owner (max limit 1).toNat

/-- `_PROBE_LIMIT_CLAIMS.values()`. -/
def claimedLimits (claims : ProbeLimitClaims) : List ℕ :=
  claims.entries.map fun entry => entry.2

def effectiveProbeLimit (claims : ProbeLimitClaims) : ℕ :=
  (claimedLimits claims).min?.getD 1

/-- The gate, with the router of each `slot()` in order of entry. A `_release`
that is under way has its slot and the limit it read. -/
structure ProbeWorld where
  claims : ProbeLimitClaims := ∅
  gate : Line := { limit := 1 }
  owners : List ℕ := []
  releasing : Option (ℕ × ℕ) := none
  deriving DecidableEq

inductive ProbeEvent where
  | claim (owner : ℕ) (limit : ℤ)
  | collect (owner : ℕ)
  | enter (owner : ℕ)
  | cancel (id : ℕ)
  | resume (id : ℕ)
  | abort (id : ℕ)
  | exit (id : ℕ)
  | turn
  deriving DecidableEq

namespace ProbeWorld

def fresh : ProbeWorld := {}

def active (world : ProbeWorld) : ℕ := world.gate.held

def limit (world : ProbeWorld) : ℕ := effectiveProbeLimit world.claims

def withClaims (world : ProbeWorld) (claims : ProbeLimitClaims) : ProbeWorld :=
  { world with
    claims := claims
    gate := { world.gate with limit := effectiveProbeLimit claims } }

/-- The coroutine of this `slot()` still runs, and refers to its router. -/
def running (world : ProbeWorld) (id : ℕ) : Bool :=
  world.gate.callers[id]? ≠ some .gone ∨ world.releasing.map Prod.fst = some id

def collectable (world : ProbeWorld) (owner : ℕ) : Bool :=
  (List.range world.owners.length).all fun id =>
    world.owners[id]? ≠ some owner || !world.running id

/-- `_acquire` up to its `await`. -/
def acquire (world : ProbeWorld) (owner : ℕ) : ProbeWorld :=
  if world.active < world.limit then
    { world with gate := world.gate.take true, owners := world.owners ++ [owner] }
  else
    { world with gate := world.gate.enqueue, owners := world.owners ++ [owner] }

/-- `_release` up to its loop. -/
def release (world : ProbeWorld) (id : ℕ) : ProbeWorld :=
  { world with
    gate :=
      { world.gate with
        held := max (world.gate.held - 1) 0
        callers := world.gate.callers.set id .gone
        returned := world.gate.returned ++ [id] }
    releasing := some (id, world.limit) }

/-- One turn of the loop of `_release`, or its end. -/
def serveNext (world : ProbeWorld) (limit : ℕ) : ProbeWorld :=
  match world.gate.waiters with
  | [] => { world with releasing := none }
  | waiter :: rest =>
    if world.gate.held < limit then
      if world.gate.callers[waiter]? = some (.queued .pending) then
        { world with gate := { world.gate.grant waiter with waiters := rest } }
      else
        { world with gate := { world.gate with waiters := rest } }
    else
      { world with releasing := none }

def leave (world : ProbeWorld) (id : ℕ) : ProbeWorld :=
  { world with
    gate :=
      { world.gate with
        waiters := world.gate.waiters.erase id
        callers := world.gate.callers.set id .gone } }

def step (world : ProbeWorld) : ProbeEvent → Option ProbeWorld
  | .claim owner limit =>
    if world.releasing = none then
      some (world.withClaims (claimProbeLimit world.claims owner limit))
    else none
  | .collect owner =>
    if world.collectable owner then some (world.withClaims (world.claims.erase owner)) else none
  | .enter owner =>
    if world.releasing = none ∧ owner ∈ world.claims.keys then some (world.acquire owner)
    else none
  | .cancel id =>
    if world.releasing = none then some { world with gate := world.gate.interrupt id } else none
  | .resume id =>
    if world.releasing = none ∧ world.gate.callers[id]? = some (.queued .resolved) then
      some { world with gate := world.gate.resume id }
    else none
  | .abort id =>
    if world.releasing = none then
      if world.gate.callers[id]? = some (.queued .resolved) then some (world.release id)
      else if world.gate.callers[id]? = some (.queued .cancelled) then some (world.leave id)
      else none
    else none
  | .exit id =>
    if world.releasing = none ∧ world.gate.callers[id]? = some .holding then
      some (world.release id)
    else none
  | .turn =>
    match world.releasing with
    | some (_, limit) => some (world.serveNext limit)
    | none => none

end ProbeWorld

def probeMachine : Machine ProbeWorld ProbeEvent where
  step := ProbeWorld.step

section Claims

variable {claims : ProbeLimitClaims} {owner limit : ℕ}

theorem mem_claimedLimits : limit ∈ claimedLimits claims ↔
    ∃ owner, claims.find owner = some limit := by
  constructor
  · intro member
    rcases List.mem_map.mp member with ⟨entry, entry_mem, rfl⟩
    exact ⟨entry.1, AList.mem_lookup_iff.mpr entry_mem⟩
  · rintro ⟨owner, found⟩
    exact List.mem_map.mpr ⟨⟨owner, limit⟩, AList.mem_lookup_iff.mp found, rfl⟩

theorem effectiveProbeLimit_cases (claims : ProbeLimitClaims) :
    claimedLimits claims = [] ∧ effectiveProbeLimit claims = 1 ∨
      effectiveProbeLimit claims ∈ claimedLimits claims ∧
        ∀ limit ∈ claimedLimits claims, effectiveProbeLimit claims ≤ limit := by
  unfold effectiveProbeLimit
  cases lowest : (claimedLimits claims).min? with
  | none =>
    left
    exact ⟨List.min?_eq_none_iff.mp lowest, rfl⟩
  | some least =>
    right
    exact List.min?_eq_some_iff.mp lowest

theorem effectiveProbeLimit_le (found : claims.find owner = some limit) :
    effectiveProbeLimit claims ≤ limit := by
  have member := mem_claimedLimits.mpr ⟨owner, found⟩
  rcases effectiveProbeLimit_cases claims with ⟨nobody, -⟩ | ⟨-, lowest⟩
  · rw [nobody] at member
    simp at member
  · exact lowest limit member

theorem exists_effectiveProbeLimit (claimed : owner ∈ claims.keys) :
    ∃ other, claims.find other = some (effectiveProbeLimit claims) := by
  rcases Option.isSome_iff_exists.mp (Dict.find_isSome_iff.mpr claimed) with ⟨limit, found⟩
  have member := mem_claimedLimits.mpr ⟨owner, found⟩
  rcases effectiveProbeLimit_cases claims with ⟨nobody, -⟩ | ⟨least, -⟩
  · rw [nobody] at member
    simp at member
  · exact mem_claimedLimits.mp least

theorem effectiveProbeLimit_erase {other : ℕ} (stays : other ∈ claims.keys)
    (different : other ≠ owner) :
    effectiveProbeLimit claims ≤ effectiveProbeLimit (claims.erase owner) := by
  have remains : other ∈ (claims.erase owner).keys := by
    apply Dict.find_isSome_iff.mp
    rw [Dict.find_erase, if_neg different]
    exact Dict.find_isSome_iff.mpr stays
  rcases exists_effectiveProbeLimit remains with ⟨least, found⟩
  rw [Dict.find_erase] at found
  split_ifs at found
  exact effectiveProbeLimit_le found

theorem effectiveProbeLimit_pos
    (positive : ∀ owner limit, claims.find owner = some limit → 1 ≤ limit) :
    1 ≤ effectiveProbeLimit claims := by
  rcases effectiveProbeLimit_cases claims with ⟨-, default⟩ | ⟨least, -⟩
  · omega
  · rcases mem_claimedLimits.mp least with ⟨owner, found⟩
    exact positive owner _ found

end Claims

/-- The line agrees with itself, every slot was granted under the limit, nobody
waits at an idle gate, and the router of a coroutine that runs has its claim. -/
structure ProbeInvariant (world : ProbeWorld) : Prop where
  consistent : world.gate.Consistent
  limit : world.gate.limit = world.limit
  positive : ∀ owner limit, world.claims.find owner = some limit → 1 ≤ limit
  paired : world.owners.length = world.gate.callers.length
  alive : ∀ id owner, world.owners[id]? = some owner → world.running id = true →
    owner ∈ world.claims.keys
  busy : world.releasing = none → ∀ id : ℕ, world.gate.callers[id]? = some (.queued .pending) →
    1 ≤ world.active
  reading : ∀ id limit, world.releasing = some (id, limit) →
    1 ≤ limit ∧ limit ≤ world.limit ∧ id < world.owners.length

section Steps

variable {world next : ProbeWorld} {id owner : ℕ}

theorem ProbeInvariant.fresh : ProbeInvariant .fresh := by
  constructor
  · constructor <;> simp [ProbeWorld.fresh]
  all_goals simp [ProbeWorld.fresh, ProbeWorld.limit, effectiveProbeLimit, claimedLimits]

theorem ProbeInvariant.limit_pos (holds : ProbeInvariant world) : 1 ≤ world.limit :=
  effectiveProbeLimit_pos holds.positive

theorem ne_of_running {other : ℕ} (collectable : world.collectable owner = true)
    (owned : world.owners[id]? = some other) (running : world.running id = true) :
    other ≠ owner := by
  rintro rfl
  have inRange := (List.getElem?_eq_some_iff.mp owned).1
  have chosen := List.all_eq_true.mp collectable id (List.mem_range.mpr inRange)
  simp [owned, running] at chosen

variable {limit : ℕ}

section

variable (holds : ProbeInvariant world)

include holds

theorem ProbeInvariant.releaser (releasing : world.releasing = some (id, limit)) :
    ∃ owner, world.owners[id]? = some owner ∧ owner ∈ world.claims.keys ∧
      world.running id = true := by
  rcases holds.reading id limit releasing with ⟨-, -, inRange⟩
  have running : world.running id = true := by
    simp [ProbeWorld.running, releasing]
  refine ⟨_, List.getElem?_eq_getElem inRange, ?_, running⟩
  exact holds.alive id _ (List.getElem?_eq_getElem inRange) running

theorem ProbeInvariant.claim {limit : ℤ} (idle : world.releasing = none) :
    ProbeInvariant (world.withClaims (claimProbeLimit world.claims owner limit)) where
  consistent := { holds.consistent with }
  limit := rfl
  positive := by
    intro other claimed found
    simp only [ProbeWorld.withClaims, claimProbeLimit, Dict.find_insert] at found
    split_ifs at found
    · have := Option.some.inj found
      omega
    · exact holds.positive other claimed found
  paired := holds.paired
  alive := by
    intro id other owned running
    have claimed := holds.alive id other owned running
    apply Dict.find_isSome_iff.mp
    simp only [ProbeWorld.withClaims, claimProbeLimit, Dict.find_insert]
    split_ifs
    · rfl
    · exact Dict.find_isSome_iff.mpr claimed
  busy := holds.busy
  reading := by
    intro id read releasing
    have releasing : world.releasing = some (id, read) := releasing
    rw [idle] at releasing
    simp at releasing

theorem ProbeInvariant.collect (collectable : world.collectable owner = true) :
    ProbeInvariant (world.withClaims (world.claims.erase owner)) where
  consistent := { holds.consistent with }
  limit := rfl
  positive := by
    intro other claimed found
    simp only [ProbeWorld.withClaims, Dict.find_erase] at found
    split_ifs at found
    exact holds.positive other claimed found
  paired := holds.paired
  alive := by
    intro id other owned running
    have different : other ≠ owner := ne_of_running collectable owned running
    have claimed := holds.alive id other owned running
    apply Dict.find_isSome_iff.mp
    simp only [ProbeWorld.withClaims, Dict.find_erase, if_neg different]
    exact Dict.find_isSome_iff.mpr claimed
  busy := holds.busy
  reading := by
    intro id read releasing
    rcases holds.reading id read releasing with ⟨positive, below, inRange⟩
    rcases holds.releaser releasing with ⟨other, owned, claimed, running⟩
    have different : other ≠ owner := ne_of_running collectable owned running
    exact ⟨positive, below.trans (effectiveProbeLimit_erase claimed different), inRange⟩

theorem ProbeInvariant.withGate {gate : Line}
    (consistent : gate.Consistent) (limit : gate.limit = world.gate.limit)
    (length : gate.callers.length = world.gate.callers.length)
    (ended : ∀ id : ℕ, world.gate.callers[id]? = some .gone → gate.callers[id]? = some .gone)
    (busy : world.releasing = none → ∀ id : ℕ, gate.callers[id]? = some (.queued .pending) →
      1 ≤ gate.held) :
    ProbeInvariant { world with gate := gate } where
  consistent := consistent
  limit := limit.trans holds.limit
  positive := holds.positive
  paired := holds.paired.trans length.symm
  alive := by
    intro id owner owned running
    apply holds.alive id owner owned
    simp only [ProbeWorld.running, decide_eq_true_eq] at running ⊢
    exact running.imp_left fun alive gone => alive (ended id gone)
  busy := busy
  reading := holds.reading

theorem ProbeInvariant.moved {old new : Caller}
    (found : world.gate.callers[id]? = some old) (alive : old ≠ .gone)
    (notPending : new ≠ .queued .pending) {gate : Line} (consistent : gate.Consistent)
    (limit : gate.limit = world.gate.limit) (callers : gate.callers = world.gate.callers.set id new)
    (held : world.releasing = none → gate.held = world.gate.held) :
    ProbeInvariant { world with gate := gate } := by
  have lookup : ∀ other : ℕ, gate.callers[other]? =
      if id = other then some new else world.gate.callers[other]? := by
    intro other
    rw [callers]
    exact getElem?_set_of_some found
  refine holds.withGate consistent limit (by simp [callers]) ?_ ?_
  · intro other gone
    rw [lookup]
    split_ifs with equal
    · rw [← equal, found, Option.some.injEq] at gone
      exact absurd gone alive
    · exact gone
  · intro idle other pending
    rw [lookup] at pending
    split_ifs at pending with equal
    · exact absurd (Option.some.inj pending) notPending
    · rw [held idle]
      exact holds.busy idle other pending

theorem ProbeInvariant.acquire (idle : world.releasing = none)
    (claimed : owner ∈ world.claims.keys) : ProbeInvariant (world.acquire owner) := by
  have paired := holds.paired
  have alive : ∀ state : Caller, ∀ id other : ℕ, (world.owners ++ [owner])[id]? = some other →
      (world.gate.callers ++ [state])[id]? ≠ some .gone → other ∈ world.claims.keys := by
    intro state id other owned running
    rcases getElem?_concat_cases owned with earlier | ⟨-, same⟩
    · apply holds.alive id other earlier
      simp only [ProbeWorld.running, decide_eq_true_eq]
      left
      intro gone
      exact running (getElem?_concat_of_some gone)
    · exact same ▸ claimed
  unfold ProbeWorld.acquire
  split_ifs with room
  · refine ⟨holds.consistent.take (by simp), holds.limit, holds.positive, ?_, ?_, ?_, ?_⟩
    · simp [Line.take, paired]
    · intro id other owned running
      simp only [ProbeWorld.running, idle, decide_eq_true_eq, Option.map_none, reduceCtorEq,
        or_false] at running
      exact alive _ id other owned running
    · intro _ id _
      simp [ProbeWorld.active, Line.take]
    · simp [idle]
  · refine ⟨holds.consistent.enqueue, holds.limit, holds.positive, ?_, ?_, ?_, ?_⟩
    · simp [Line.enqueue, paired]
    · intro id other owned running
      simp only [ProbeWorld.running, idle, decide_eq_true_eq, Option.map_none, reduceCtorEq,
        or_false] at running
      exact alive _ id other owned running
    · intro _ id _
      have positive := holds.limit_pos
      have full : world.limit ≤ world.active := Nat.not_lt.mp room
      exact positive.trans full
    · simp [idle]

theorem ProbeInvariant.interrupt :
    ProbeInvariant { world with gate := world.gate.interrupt id } := by
  have consistent : (world.gate.interrupt id).Consistent := holds.consistent.interrupt
  unfold Line.interrupt at consistent ⊢
  split_ifs at consistent ⊢ with pending
  · exact holds.moved pending (by simp) (by simp) consistent rfl rfl fun _ => rfl
  · exact holds

theorem ProbeInvariant.release {caller : Caller}
    (found : world.gate.callers[id]? = some caller) (occupies : caller.occupies = true) :
    ProbeInvariant (world.release id) := by
  have alive : caller ≠ .gone := by
    rintro rfl
    simp at occupies
  have vacated := holds.consistent.vacate found occupies
  have inRange := (List.getElem?_eq_some_iff.mp found).1
  have lookup : ∀ other : ℕ, (world.gate.callers.set id .gone)[other]? =
      if id = other then some .gone else world.gate.callers[other]? :=
    fun other => getElem?_set_of_some found
  refine ⟨?_, holds.limit, holds.positive, ?_, ?_, ?_, ?_⟩
  · simpa [ProbeWorld.release] using vacated
  · simpa [ProbeWorld.release] using holds.paired
  · intro other owner owned running
    apply holds.alive other owner owned
    simp only [ProbeWorld.running, ProbeWorld.release, decide_eq_true_eq, Option.map_some,
      Option.some.injEq, lookup] at running ⊢
    left
    intro gone
    by_cases equal : id = other
    · rw [← equal, found, Option.some.injEq] at gone
      exact alive gone
    · rcases running with running | same
      · rw [if_neg equal] at running
        exact running gone
      · exact equal same
  · simp [ProbeWorld.release]
  · intro other read releasing
    rcases releasing with ⟨rfl, rfl⟩
    refine ⟨holds.limit_pos, le_rfl, ?_⟩
    simpa [ProbeWorld.release, holds.paired] using inRange

theorem ProbeInvariant.ended
    (busy : ∀ id : ℕ, world.gate.callers[id]? = some (.queued .pending) → 1 ≤ world.active) :
    ProbeInvariant { world with releasing := none } where
  consistent := holds.consistent
  limit := holds.limit
  positive := holds.positive
  paired := holds.paired
  alive := by
    intro id owner owned running
    apply holds.alive id owner owned
    simp only [ProbeWorld.running, decide_eq_true_eq, Option.map_none, reduceCtorEq,
      or_false] at running ⊢
    exact Or.inl running
  busy := fun _ => busy
  reading := by
    intro id limit releasing
    simp at releasing

theorem ProbeInvariant.serveNext
    (releasing : world.releasing = some (id, limit)) : ProbeInvariant (world.serveNext limit) := by
  rcases holds.reading id limit releasing with ⟨positive, below, -⟩
  unfold ProbeWorld.serveNext
  split
  · next nobody =>
      apply holds.ended
      intro other pending
      have waits := holds.consistent.waiting other pending
      simp [nobody] at waits
  · next waiter rest queue =>
      have consistent : Line.Consistent { world.gate with waiters := waiter :: rest } := by
        rw [← queue]
        exact holds.consistent
      split_ifs with room pending
      · have under : world.gate.held < world.gate.limit := by
          rw [holds.limit]
          omega
        apply holds.moved pending (by simp) (by simp) (consistent.grant under pending) rfl rfl
        intro idle
        rw [releasing] at idle
        simp at idle
      · apply holds.withGate (consistent.drop pending) rfl rfl
        · exact fun _ gone => gone
        · exact holds.busy
      · apply holds.ended
        intro other _
        exact positive.trans (Nat.not_lt.mp room)

end

variable {event : ProbeEvent}

inductive ProbeWorld.Stepped (world : ProbeWorld) : ProbeEvent → ProbeWorld → Prop where
  | claim {owner : ℕ} {limit : ℤ} (idle : world.releasing = none) :
      Stepped world (.claim owner limit)
        (world.withClaims (claimProbeLimit world.claims owner limit))
  | collect {owner : ℕ} (collectable : world.collectable owner = true) :
      Stepped world (.collect owner) (world.withClaims (world.claims.erase owner))
  | enter {owner : ℕ} (idle : world.releasing = none) (claimed : owner ∈ world.claims.keys) :
      Stepped world (.enter owner) (world.acquire owner)
  | cancel {id : ℕ} (idle : world.releasing = none) :
      Stepped world (.cancel id) { world with gate := world.gate.interrupt id }
  | resume {id : ℕ} (idle : world.releasing = none)
      (granted : world.gate.callers[id]? = some (.queued .resolved)) :
      Stepped world (.resume id) { world with gate := world.gate.resume id }
  | releases {id : ℕ} {caller : Caller} (event : ProbeEvent) (ends : event ≠ .turn)
      (found : world.gate.callers[id]? = some caller) (occupies : caller.occupies = true) :
      Stepped world event (world.release id)
  | leave {id : ℕ} (idle : world.releasing = none)
      (cancelled : world.gate.callers[id]? = some (.queued .cancelled)) :
      Stepped world (.abort id) (world.leave id)
  | turn {id limit : ℕ} (releasing : world.releasing = some (id, limit)) :
      Stepped world .turn (world.serveNext limit)

theorem ProbeWorld.stepped_of_step (stepped : probeMachine.step world event = some next) :
    world.Stepped event next := by
  cases event with
  | turn =>
    simp only [probeMachine, ProbeWorld.step] at stepped
    split at stepped
    · next id limit releasing =>
        cases stepped
        exact .turn releasing
    · cases stepped
  | abort id =>
    simp only [probeMachine, ProbeWorld.step] at stepped
    split_ifs at stepped with idle granted cancelled <;> cases stepped
    · exact .releases _ nofun granted rfl
    · exact .leave idle cancelled
  | _ =>
    simp only [probeMachine, ProbeWorld.step, Option.ite_none_right_eq_some,
      Option.some.injEq] at stepped
    rcases stepped with ⟨enabled, rfl⟩
    first
      | exact .claim enabled
      | exact .collect enabled
      | exact .enter enabled.1 enabled.2
      | exact .cancel enabled
      | exact .resume enabled.1 enabled.2
      | exact .releases _ nofun enabled.2 rfl

/-- One step keeps the gate's invariant. -/
theorem ProbeInvariant.step (holds : ProbeInvariant world)
    (stepped : probeMachine.step world event = some next) : ProbeInvariant next := by
  cases ProbeWorld.stepped_of_step stepped with
  | claim idle => exact holds.claim idle
  | collect collectable => exact holds.collect collectable
  | enter idle claimed => exact holds.acquire idle claimed
  | cancel idle => exact holds.interrupt
  | resume idle granted =>
    exact holds.moved granted (by simp) (by simp) (holds.consistent.resume granted) rfl rfl
      fun _ => rfl
  | releases event ends found occupies => exact holds.release found occupies
  | leave idle cancelled =>
    exact holds.moved cancelled (by simp) (by simp)
      (holds.consistent.leave cancelled (by simp)) rfl rfl fun _ => rfl
  | turn releasing => exact holds.serveNext releasing

theorem ProbeInvariant.of_run {start : ProbeWorld} {events : List ProbeEvent}
    (holds : ProbeInvariant start) (ran : probeMachine.run start events = some world) :
    ProbeInvariant world :=
  Machine.run_invariant (fun _ _ _ holds stepped => ProbeInvariant.step holds stepped) holds ran

theorem ProbeInvariant.grants_under_limit (holds : ProbeInvariant world)
    (stepped : probeMachine.step world event = some next) :
    next.active ≤ world.active ∨ next.active = world.active + 1 ∧ world.active < world.limit := by
  cases ProbeWorld.stepped_of_step stepped with
  | claim idle => exact Or.inl le_rfl
  | collect collectable => exact Or.inl le_rfl
  | enter idle claimed =>
    unfold ProbeWorld.acquire
    split_ifs with room
    · exact Or.inr ⟨rfl, room⟩
    · exact Or.inl le_rfl
  | cancel idle => exact Or.inl (by simp [ProbeWorld.active])
  | resume idle granted => exact Or.inl le_rfl
  | releases event ends found occupies =>
    exact Or.inl (by simp [ProbeWorld.active, ProbeWorld.release])
  | leave idle cancelled => exact Or.inl le_rfl
  | @turn id limit releasing =>
    rcases holds.reading id limit releasing with ⟨-, below, -⟩
    unfold ProbeWorld.serveNext
    split
    · exact Or.inl le_rfl
    · split_ifs with room
      · exact Or.inr ⟨rfl, room.trans_le below⟩
      · exact Or.inl le_rfl
      · exact Or.inl le_rfl

theorem ProbeInvariant.release_starts {read : ℕ}
    (holds : ProbeInvariant world) (stepped : probeMachine.step world event = some next)
    (idle : world.releasing = none) (releasing : next.releasing = some (id, read)) :
    next.active + 1 = world.active ∧ read = world.limit ∧ next.limit = world.limit := by
  have stays (none : next.releasing = none) :
      next.active + 1 = world.active ∧ read = world.limit ∧ next.limit = world.limit := by
    rw [none] at releasing
    cases releasing
  cases ProbeWorld.stepped_of_step stepped with
  | claim _ => exact stays idle
  | collect collectable => exact stays idle
  | enter _ claimed =>
    apply stays
    unfold ProbeWorld.acquire
    split_ifs <;> exact idle
  | cancel _ => exact stays idle
  | resume _ granted => exact stays idle
  | releases event ends found occupies =>
    have positive := holds.consistent.held_pos found occupies
    simp only [ProbeWorld.release, Option.some.injEq, Prod.mk.injEq] at releasing
    refine ⟨?_, releasing.2.symm, rfl⟩
    simp only [ProbeWorld.active, ProbeWorld.release]
    omega
  | leave _ cancelled => exact stays idle
  | turn goesOn =>
    rw [idle] at goesOn
    cases goesOn

/-- What happens while a `_release` runs. -/
def DuringRelease (event : ProbeEvent) : Prop :=
  event = .turn ∨ ∃ owner, event = .collect owner

/-- The release that read `limit` goes on, or it has ended and left nobody
waiting below that limit. -/
def Drains (id limit : ℕ) (world : ProbeWorld) : Prop :=
  world.releasing = some (id, limit) ∨ world.releasing = none ∧
      ∀ other : ℕ, world.gate.callers[other]? = some (.queued .pending) → limit ≤ world.active

theorem Drains.step (holds : ProbeInvariant world)
    (drains : Drains id limit world) (during : DuringRelease event)
    (stepped : probeMachine.step world event = some next) : Drains id limit next := by
  rcases during with rfl | ⟨owner, rfl⟩
  · cases ProbeWorld.stepped_of_step stepped with
    | releases event ends found occupies => exact absurd rfl ends
    | turn releasing =>
      rcases drains with same | ⟨idle, -⟩
      · cases releasing.symm.trans same
        unfold ProbeWorld.serveNext
        split
        · next nobody =>
            right
            refine ⟨rfl, ?_⟩
            intro other pending
            have waits := holds.consistent.waiting other pending
            simp [nobody] at waits
        · split_ifs with room
          · exact Or.inl releasing
          · exact Or.inl releasing
          · exact Or.inr ⟨rfl, fun _ _ => Nat.not_lt.mp room⟩
      · rw [idle] at releasing
        cases releasing
  · simp only [probeMachine, ProbeWorld.step, Option.ite_none_right_eq_some,
      Option.some.injEq] at stepped
    rcases stepped with ⟨-, rfl⟩
    exact drains

variable {steps : List ProbeEvent}

theorem Drains.of_run (holds : ProbeInvariant world)
    (drains : Drains id limit world) (during : ∀ step ∈ steps, DuringRelease step)
    (ran : probeMachine.run world steps = some next) : Drains id limit next := by
  have preserved (before : ProbeWorld) (event : ProbeEvent) (after : ProbeWorld)
      (both : ProbeInvariant before ∧ Drains id limit before) (allowed : DuringRelease event)
      (stepped : probeMachine.step before event = some after) :
      ProbeInvariant after ∧ Drains id limit after :=
    ⟨both.1.step stepped, both.2.step both.1 allowed stepped⟩
  have along : probeMachine.Along (fun _ event => DuringRelease event) world steps :=
    Machine.along_of_forall_mem DuringRelease during
  exact (Machine.run_invariant_along _ preserved ⟨holds, drains⟩ along ran).2

theorem release_completes (releasing : world.releasing = some (id, limit)) :
    ∃ turns after, probeMachine.run world (List.replicate turns .turn) = some after ∧
      after.releasing = none := by
  have stepped : probeMachine.step world .turn = some (world.serveNext limit) := by
    simp [probeMachine, ProbeWorld.step, releasing]
  generalize queue : world.gate.waiters = waiters
  induction waiters generalizing world with
  | nil =>
    refine ⟨1, _, Machine.run_cons_eq_some.mpr ⟨_, stepped, rfl⟩, ?_⟩
    simp [ProbeWorld.serveNext, queue]
  | cons waiter rest ih =>
    by_cases room : world.gate.held < limit
    · have goesOn : (world.serveNext limit).releasing = some (id, limit) ∧
          (world.serveNext limit).gate.waiters = rest := by
        simp only [ProbeWorld.serveNext, queue, if_pos room]
        split_ifs
        · exact ⟨releasing, rfl⟩
        · exact ⟨releasing, rfl⟩
      have later : probeMachine.step (world.serveNext limit) .turn =
          some ((world.serveNext limit).serveNext limit) := by
        simp [probeMachine, ProbeWorld.step, goesOn.1]
      rcases ih goesOn.1 later goesOn.2 with ⟨turns, after, ran, ended⟩
      exact ⟨turns + 1, after, Machine.run_cons_eq_some.mpr ⟨_, stepped, ran⟩, ended⟩
    · refine ⟨1, _, Machine.run_cons_eq_some.mpr ⟨_, stepped, rfl⟩, ?_⟩
      simp [ProbeWorld.serveNext, queue, room]

theorem limit_of_turns (turns : ∀ step ∈ steps, step = .turn)
    (ran : probeMachine.run world steps = some next) : next.limit = world.limit := by
  have preserved (before : ProbeWorld) (event : ProbeEvent) (after : ProbeWorld)
      (same : before.claims = world.claims) (turn : event = .turn)
      (stepped : probeMachine.step before event = some after) : after.claims = world.claims := by
    subst turn
    cases ProbeWorld.stepped_of_step stepped with
    | releases event ends found occupies => exact absurd rfl ends
    | turn releasing =>
      rw [← same]
      unfold ProbeWorld.serveNext
      split
      · rfl
      · split_ifs <;> rfl
  have along : probeMachine.Along (fun _ event => event = .turn) world steps :=
    Machine.along_of_forall_mem (fun event => event = ProbeEvent.turn) turns
  exact congrArg effectiveProbeLimit (Machine.run_invariant_along _ preserved rfl along ran)

/-- The probe gate in every reachable state: exact counts, no grant beyond the limit in force,
nobody waiting at an idle gate, and the order of the queue kept. -/
theorem probe_gate_discipline {events : List ProbeEvent}
    (ran : probeMachine.run .fresh events = some world) :
    (world.active = world.gate.callers.countP (· = .holding) +
          world.gate.callers.countP (· = .queued .resolved) ∧
      ∀ event start id read, probeMachine.step world event = some start →
        world.releasing = none → start.releasing = some (id, read) →
        start.active + 1 = world.active) ∧
    (∀ event next, probeMachine.step world event = some next →
      next.active ≤ world.active ∨ next.active = world.active + 1 ∧ world.active < world.limit) ∧
    (world.releasing = none → ∀ id : ℕ, world.gate.callers[id]? = some (.queued .pending) →
      id ∈ world.gate.waiters ∧ 1 ≤ world.active) ∧
    (∀ event start id read, probeMachine.step world event = some start →
      world.releasing = none → start.releasing = some (id, read) →
      (∃ turns after, probeMachine.run start (List.replicate turns .turn) = some after ∧
        after.releasing = none) ∧
      ∀ steps after, (∀ step ∈ steps, DuringRelease step) →
        probeMachine.run start steps = some after → after.releasing = none →
        ∀ other : ℕ, after.gate.callers[other]? = some (.queued .pending) →
          world.limit ≤ after.active ∧
            ((∀ step ∈ steps, step = .turn) → after.limit ≤ after.active)) ∧
    (world.gate.waiters.Pairwise (· < ·) ∧ world.gate.takes.Pairwise (fun first second =>
        first.overflow = false → second.overflow = false → first.caller < second.caller) ∧
      ∀ take ∈ world.gate.takes, take.overflow = false →
        ∀ id ∈ world.gate.waiters, take.caller < id) := by
  have holds : ProbeInvariant world := ProbeInvariant.fresh.of_run ran
  have consistent := holds.consistent
  refine ⟨⟨?_, ?_⟩, ?_, ?_, ?_, consistent.sorted, consistent.order, consistent.ahead⟩
  · rw [← countP_occupies]
    exact consistent.count
  · intro event start id read stepped idle releasing
    exact (holds.release_starts stepped idle releasing).1
  · intro event next stepped
    exact holds.grants_under_limit stepped
  · intro idle id pending
    exact ⟨consistent.waiting id pending, holds.busy idle id pending⟩
  · intro event start id read stepped idle releasing
    refine ⟨release_completes releasing, ?_⟩
    intro steps after during ranOn ended other pending
    have started : ProbeInvariant start := holds.step stepped
    rcases holds.release_starts stepped idle releasing with ⟨-, limit, unchanged⟩
    have below : world.limit ≤ after.active := by
      have drains : Drains id read start := Or.inl releasing
      rcases drains.of_run started during ranOn with again | ⟨-, drained⟩
      · rw [ended] at again
        simp at again
      · exact limit ▸ drained other pending
    refine ⟨below, ?_⟩
    intro turns
    rw [limit_of_turns turns ranOn, unchanged]
    exact below

/-- At a limit of one, a waiter is granted the slot of the first probe and
cancelled in the same tick, so its own release serves the next waiter. -/
theorem probe_gate_discipline_cancelled_grant : ∃ world, probeMachine.run .fresh
          [.claim 0 1, .claim 1 4, .enter 0, .enter 1, .enter 1, .exit 0, .turn, .turn,
            .abort 1, .collect 0, .turn, .turn] = some world ∧
      world.gate.callers = [.gone, .gone, .queued .resolved] ∧ world.limit = 4 ∧
      world.active = 0 + 1 := by
  have ran : probeMachine.run .fresh
      [.claim 0 1, .claim 1 4, .enter 0, .enter 1, .enter 1, .exit 0, .turn, .turn,
        .abort 1, .collect 0, .turn, .turn] =
      some
        { claims := (∅ : ProbeLimitClaims).insert 1 4
          gate :=
            { limit := 4
              held := 1
              callers := [.gone, .gone, .queued .resolved]
              takes := [⟨0, 0, 1, true⟩, ⟨1, 0, 1, false⟩, ⟨2, 0, 4, false⟩]
              returned := [0, 1] }
          owners := [0, 1, 1] } := by
    rfl
  exact ⟨_, ran, rfl, by decide +kernel, (probe_gate_discipline ran).1.1⟩

end Steps

end HybridInference.RouteWise
