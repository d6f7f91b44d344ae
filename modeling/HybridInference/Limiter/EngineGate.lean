import HybridInference.Library.Machine
import HybridInference.Library.WaitLine
import Mathlib.Algebra.Order.Field.Rat

/-!
# The hold for a local engine

`EngineHold`, `_EngineGate`, `_EngineAdmission` and `_admit_to_engine` of
`serving.adapters.upstream_limiter`, for one engine on one event loop. The gate
is bound to its loop before its first dispatch, so its epoch is the same for
every place and is left out.

Each arriving dispatch brings the limit for the whole line, which is served
under the new limit before the arrival is looked at. A dispatch whose queue
deadline passes leaves; one without a deadline waits the acquire timeout and is
then sent past the limit, as a place of its own. A place is given back by the
first token or by the release of its slot, whichever comes first.
-/

namespace HybridInference.Limiter

open Library

/-- `EngineHold`: a positive limit, and the place the limiter bound to it. -/
structure EngineHold where
  limit : ℕ
  positive : 1 ≤ limit
  admission : Option ℕ := none
  deriving DecidableEq

/-- How `_admit_to_engine` ended. -/
inductive Admission where
  | sent
  | queueWaitExpired
  | raised
  deriving DecidableEq

/-- The dispatch behind a place: its hold, when it arrived, its queue deadline,
how long it may wait, and when that ran out. -/
structure HeldDispatch where
  hold : ℕ
  since : ℚ
  deadline : Option ℚ
  wait : ℚ
  timedOut : Option ℚ := none
  admission : Option Admission := none
  deriving DecidableEq

/-- `_hold_wait`, without the flag, which says that there is a deadline. -/
def holdWait (acquireTimeout now : ℚ) (deadline : Option ℚ) : ℚ :=
  match deadline with
  | none => acquireTimeout
  | some deadline => deadline - now

structure EngineWorld where
  gate : Line
  holds : List EngineHold
  dispatches : List HeldDispatch
  now : ℚ
  deriving DecidableEq

inductive EngineEvent where
  | newHold (limit : ℕ) (positive : 1 ≤ limit)
  | dispatch (hold : ℕ) (now : ℚ) (deadline : Option ℚ)
  | timeout (id : ℕ) (now : ℚ)
  | cancel (id : ℕ)
  | resume (id : ℕ)
  | expire (id : ℕ)
  | abort (id : ℕ)
  | firstToken (hold : ℕ)
  | release (id : ℕ)

namespace EngineWorld

def fresh (now : ℚ) : EngineWorld :=
  { gate := { limit := 1 }, holds := [], dispatches := [], now := now }

def bind (world : EngineWorld) (hold id : ℕ) : EngineWorld :=
  { world with
    holds := world.holds.modify hold fun bound => { bound with admission := some id } }

def ended (world : EngineWorld) (id : ℕ) (admission : Admission) : EngineWorld :=
  { world with
    dispatches := world.dispatches.modify id fun dispatch =>
      { dispatch with admission := some admission } }

/-- `_admit_to_engine` up to its first `await`: adopt the hold's limit, serve the
line, and go only with room left over. -/
def dispatch (acquireTimeout : ℚ) (world : EngineWorld) (hold limit : ℕ) (now : ℚ)
    (deadline : Option ℚ) : EngineWorld :=
  let gate := world.gate.withLimit limit
  let arrival : HeldDispatch :=
    { hold := hold, since := now, deadline := deadline,
      wait := holdWait acquireTimeout now deadline }
  if gate.held < gate.limit then
    { world with
      gate := gate.take false
      dispatches := world.dispatches ++ [{ arrival with admission := some .sent }]
      now := now }.bind hold gate.callers.length
  else if deadline.isSome && arrival.wait ≤ 0 then
    { world with
      gate := gate.turnAway
      dispatches := world.dispatches ++ [{ arrival with admission := some .queueWaitExpired }]
      now := now }
  else
    { world with
      gate := gate.enqueue
      dispatches := world.dispatches ++ [arrival]
      now := now }

/-- `_admit_to_engine` after a timeout: leave for the offload route, or be sent
past the limit. -/
def expire (world : EngineWorld) (id : ℕ) (waited : HeldDispatch) : EngineWorld :=
  let gate := world.gate.abandon id
  if waited.deadline.isSome then { world with gate := gate }.ended id .queueWaitExpired
  else
    { world with
      gate := gate.take true
      dispatches := world.dispatches ++ [{ waited with admission := some .sent }] }.bind
        waited.hold gate.callers.length

/-- `_EngineAdmission.release`. -/
def giveBack (world : EngineWorld) (id : ℕ) : EngineWorld :=
  if world.gate.callers[id]? = some .holding then
    { world with gate := world.gate.giveBack id world.gate.limit }
  else world

def isQueued (world : EngineWorld) (id : ℕ) : Prop :=
  world.gate.callers[id]? = some (.queued .pending) ∨
    world.gate.callers[id]? = some (.queued .resolved) ∨
    world.gate.callers[id]? = some (.queued .cancelled)

instance (world : EngineWorld) (id : ℕ) : Decidable (world.isQueued id) :=
  inferInstanceAs (Decidable (_ ∨ _ ∨ _))

def step (acquireTimeout : ℚ) (world : EngineWorld) : EngineEvent → Option EngineWorld
  | .newHold limit positive =>
    some { world with holds := world.holds ++ [{ limit := limit, positive := positive }] }
  | .dispatch hold now deadline =>
    match world.holds[hold]? with
    | none => none
    | some bound =>
      if world.now ≤ now then
        some (world.dispatch acquireTimeout hold bound.limit now deadline)
      else none
  | .timeout id now =>
    match world.dispatches[id]? with
    | none => none
    | some waiting =>
      if world.isQueued id ∧ world.now ≤ now ∧ waiting.since + waiting.wait ≤ now then
        some { world with
          gate := world.gate.interrupt id
          dispatches := world.dispatches.set id { waiting with timedOut := some now }
          now := now }
      else none
  | .cancel id =>
    if world.isQueued id then some { world with gate := world.gate.interrupt id } else none
  | .resume id =>
    match world.dispatches[id]? with
    | none => none
    | some waited =>
      if world.gate.callers[id]? = some (.queued .resolved) then
        some (({ world with gate := world.gate.resume id }.ended id .sent).bind waited.hold id)
      else none
  | .expire id =>
    match world.dispatches[id]? with
    | none => none
    | some waited =>
      if world.isQueued id ∧ waited.timedOut.isSome then some (world.expire id waited)
      else none
  | .abort id =>
    if world.isQueued id then
      some ({ world with gate := world.gate.abandon id }.ended id .raised)
    else none
  | .firstToken hold =>
    match world.holds[hold]? with
    | none => none
    | some bound =>
      match bound.admission with
      | none => some world
      | some id => some (world.giveBack id)
  | .release id =>
    match world.gate.callers[id]? with
    | some .holding | some .gone => some (world.giveBack id)
    | _ => none

end EngineWorld

def engineMachine (acquireTimeout : ℚ) : Machine EngineWorld EngineEvent where
  step := EngineWorld.step acquireTimeout

def HeldDispatch.Timed (acquireTimeout : ℚ) (dispatch : HeldDispatch) : Prop :=
  (dispatch.deadline = none → dispatch.wait = acquireTimeout) ∧
    ∀ firedAt, dispatch.timedOut = some firedAt → dispatch.since + dispatch.wait ≤ firedAt

def HeldDispatch.WaitedOut (acquireTimeout : ℚ) (dispatch : HeldDispatch) : Prop :=
  dispatch.deadline = none ∧
    ∃ firedAt, dispatch.timedOut = some firedAt ∧ dispatch.since + acquireTimeout ≤ firedAt

/-- The line is sound, every place has its dispatch, and only dispatches that
waited out the acquire timeout were sent past the limit. -/
structure EngineInvariant (acquireTimeout : ℚ) (world : EngineWorld) : Prop where
  sound : world.gate.Sound
  aligned : world.dispatches.length = world.gate.callers.length
  timed : ∀ (id : ℕ) (dispatch : HeldDispatch), world.dispatches[id]? = some dispatch →
    dispatch.Timed acquireTimeout
  waitedOut : ∀ take ∈ world.gate.takes, take.overflow = true →
    ∃ dispatch : HeldDispatch, world.dispatches[take.caller]? = some dispatch ∧
      dispatch.WaitedOut acquireTimeout

section Steps

variable {acquireTimeout : ℚ} {world next : EngineWorld} {id : ℕ}

theorem EngineInvariant.fresh (now : ℚ) : EngineInvariant acquireTimeout (.fresh now) := by
  constructor
  · constructor
    · constructor <;> simp [EngineWorld.fresh]
    · simp [EngineWorld.fresh]
  · rfl
  · simp [EngineWorld.fresh]
  · simp [EngineWorld.fresh]

section

variable (holds : EngineInvariant acquireTimeout world)

include holds

theorem EngineInvariant.of_kept
    (sound : next.gate.Sound) (aligned : next.dispatches.length = next.gate.callers.length)
    (takes : ∀ take ∈ next.gate.takes, take ∈ world.gate.takes ∨ take.overflow = false)
    (timed : ∀ (id : ℕ) (dispatch : HeldDispatch), next.dispatches[id]? = some dispatch →
      dispatch.Timed acquireTimeout)
    (kept : ∀ (id : ℕ) (dispatch : HeldDispatch), world.dispatches[id]? = some dispatch →
      dispatch.WaitedOut acquireTimeout →
      ∃ later : HeldDispatch, next.dispatches[id]? = some later ∧ later.WaitedOut acquireTimeout) :
    EngineInvariant acquireTimeout next where
  sound := sound
  aligned := aligned
  timed := timed
  waitedOut := by
    intro take member overflow
    rcases takes take member with earlier | normal
    · rcases holds.waitedOut take earlier overflow with ⟨dispatch, found, waited⟩
      exact kept take.caller dispatch found waited
    · rw [normal] at overflow
      simp at overflow

theorem EngineInvariant.withGate {gate : Line}
    (sound : gate.Sound) (length : gate.callers.length = world.gate.callers.length)
    (takes : ∀ take ∈ gate.takes, take ∈ world.gate.takes ∨ take.overflow = false) :
    EngineInvariant acquireTimeout { world with gate := gate } :=
  holds.of_kept sound (holds.aligned.trans length.symm) takes holds.timed
    fun _ dispatch found waited => ⟨dispatch, found, waited⟩

theorem EngineInvariant.bind (hold id : ℕ) : EngineInvariant acquireTimeout (world.bind hold id) :=
  { holds with }

theorem EngineInvariant.ended (id : ℕ)
    (admission : Admission) : EngineInvariant acquireTimeout (world.ended id admission) := by
  have lookup : ∀ other, (world.ended id admission).dispatches[other]? = if id = other then
        (world.dispatches[other]?).map fun dispatch =>
          { dispatch with admission := some admission }
      else world.dispatches[other]? := fun other => by
    simp only [EngineWorld.ended, List.getElem?_modify]
    split_ifs <;> simp
  refine holds.of_kept holds.sound (by simpa [EngineWorld.ended] using holds.aligned)
    (fun _ member => Or.inl member) ?_ ?_
  · intro other dispatch found
    rw [lookup] at found
    split_ifs at found with equal
    · rcases Option.map_eq_some_iff.mp found with ⟨original, originalFound, rfl⟩
      exact holds.timed other original originalFound
    · exact holds.timed other dispatch found
  · intro other dispatch found waited
    rw [lookup]
    split_ifs with equal
    · refine ⟨{ dispatch with admission := some admission }, ?_, waited⟩
      rw [found]
      rfl
    · exact ⟨dispatch, found, waited⟩

theorem EngineInvariant.arrive {gate : Line} {arrival : HeldDispatch} {now : ℚ} (sound : gate.Sound)
    (length : gate.callers.length = world.gate.callers.length + 1)
    (takes : ∀ take ∈ gate.takes, take ∈ world.gate.takes ∨ take.overflow = false)
    (timed : arrival.Timed acquireTimeout) :
    EngineInvariant acquireTimeout
      { world with gate := gate, dispatches := world.dispatches ++ [arrival], now := now } := by
  refine holds.of_kept sound ?_ takes ?_ ?_
  · simp [length, holds.aligned]
  · intro id dispatch found
    rcases getElem?_concat_cases found with earlier | ⟨-, rfl⟩
    · exact holds.timed id dispatch earlier
    · exact timed
  · intro id dispatch found waited
    exact ⟨dispatch, getElem?_concat_of_some found, waited⟩

theorem EngineInvariant.dispatch (hold limit : ℕ) (now : ℚ) (deadline : Option ℚ) :
    EngineInvariant acquireTimeout (world.dispatch acquireTimeout hold limit now deadline) := by
  have served : (world.gate.withLimit limit).Sound := holds.sound.toConsistent.withLimit limit
  have timed : ∀ admission, HeldDispatch.Timed acquireTimeout
      { hold := hold, since := now, deadline := deadline,
        wait := holdWait acquireTimeout now deadline, admission := admission } := by
    intro admission
    refine ⟨?_, by simp⟩
    rintro rfl
    rfl
  unfold EngineWorld.dispatch
  dsimp only
  split_ifs with room late
  · have nobody : (world.gate.withLimit limit).waiters = [] := by
      by_contra waits
      have := served.busy waits
      omega
    refine (holds.arrive (served.take fun _ => ⟨nobody, room⟩) (by simp [Line.take]) ?_
      (timed _)).bind _ _
    intro take member
    rcases List.mem_append.mp member with earlier | last
    · exact Line.withLimit_takes earlier
    · right
      rw [List.mem_singleton.mp last]
  · exact holds.arrive served.turnAway (by simp [Line.turnAway])
      (fun _ member => Line.withLimit_takes member) (timed _)
  · exact holds.arrive (served.enqueue (Or.inr (Nat.not_lt.mp room))) (by simp [Line.enqueue])
      (fun _ member => Line.withLimit_takes member) (timed _)

theorem EngineInvariant.timeout
    {waiting : HeldDispatch} {now : ℚ} (found : world.dispatches[id]? = some waiting)
    (due : waiting.since + waiting.wait ≤ now) :
    EngineInvariant acquireTimeout
      { world with
        gate := world.gate.interrupt id
        dispatches := world.dispatches.set id { waiting with timedOut := some now }
        now := now } := by
  have lookup : ∀ other, (world.dispatches.set id { waiting with timedOut := some now })[other]? =
        if id = other then some { waiting with timedOut := some now }
        else world.dispatches[other]? := fun other => getElem?_set_of_some found
  have timed := holds.timed id waiting found
  refine holds.of_kept holds.sound.interrupt ?_ ?_ ?_ ?_
  · simp [holds.aligned]
  · intro take member
    exact Or.inl (by simpa using member)
  · intro other dispatch otherFound
    simp only [lookup] at otherFound
    split_ifs at otherFound
    · cases otherFound
      refine ⟨timed.1, ?_⟩
      intro firedAt fired
      exact Option.some.inj fired ▸ due
    · exact holds.timed other dispatch otherFound
  · intro other dispatch otherFound waited
    simp only [lookup]
    split_ifs with equal
    · subst equal
      rw [found, Option.some.injEq] at otherFound
      subst otherFound
      refine ⟨_, rfl, waited.1, now, rfl, ?_⟩
      rw [← timed.1 waited.1]
      exact due
    · exact ⟨dispatch, otherFound, waited⟩

theorem EngineInvariant.abandon (queued : world.isQueued id) :
    EngineInvariant acquireTimeout { world with gate := world.gate.abandon id } := by
  have sound : (world.gate.abandon id).Sound := by
    rcases queued with found | found | found <;> exact holds.sound.abandon found
  exact holds.withGate sound (Line.abandon_length _ _) fun _ member => Line.abandon_takes member

theorem EngineInvariant.expire {waited : HeldDispatch} (found : world.dispatches[id]? = some waited)
    (queued : world.isQueued id) (fired : waited.timedOut.isSome = true) :
    EngineInvariant acquireTimeout (world.expire id waited) := by
  have left := holds.abandon queued
  have timed := holds.timed id waited found
  unfold EngineWorld.expire
  dsimp only
  split_ifs with deadline
  · exact left.ended id .queueWaitExpired
  · have noDeadline : waited.deadline = none := by simpa using deadline
    rcases Option.isSome_iff_exists.mp fired with ⟨firedAt, firedEq⟩
    have outwaited :
        HeldDispatch.WaitedOut acquireTimeout { waited with admission := some .sent } := by
      refine ⟨noDeadline, firedAt, firedEq, ?_⟩
      rw [← timed.1 noDeadline]
      exact timed.2 firedAt firedEq
    apply EngineInvariant.bind
    constructor
    · exact left.sound.take (by simp)
    · simpa [Line.take] using holds.aligned
    · intro other dispatch otherFound
      rcases getElem?_concat_cases otherFound with earlier | ⟨-, rfl⟩
      · exact holds.timed other dispatch earlier
      · exact timed
    · intro take member overflow
      rcases List.mem_append.mp member with earlier | last
      · rcases left.waitedOut take earlier overflow with ⟨dispatch, dispatchFound, waitedOut⟩
        exact ⟨dispatch, getElem?_concat_of_some dispatchFound, waitedOut⟩
      · rw [List.mem_singleton.mp last]
        refine ⟨_, ?_, outwaited⟩
        dsimp only
        rw [Line.abandon_length, ← holds.aligned]
        simp

theorem EngineInvariant.giveBack (id : ℕ) : EngineInvariant acquireTimeout (world.giveBack id) := by
  unfold EngineWorld.giveBack
  split_ifs with holding
  · exact holds.withGate (holds.sound.toConsistent.giveBack holding rfl _)
      (Line.giveBack_length _ _ _) fun _ member => Line.giveBack_takes member
  · exact holds

theorem EngineInvariant.step {event : EngineEvent}
    (stepped : (engineMachine acquireTimeout).step world event = some next) :
    EngineInvariant acquireTimeout next := by
  cases event <;> simp only [engineMachine, EngineWorld.step] at stepped
  case newHold limit positive =>
    cases stepped
    exact { holds with }
  case dispatch hold now deadline =>
    split at stepped
    · simp at stepped
    · simp only [Option.ite_none_right_eq_some, Option.some.injEq] at stepped
      rcases stepped with ⟨-, rfl⟩
      exact holds.dispatch hold _ now deadline
  case timeout id now =>
    split at stepped
    · simp at stepped
    · next waiting found =>
        simp only [Option.ite_none_right_eq_some, Option.some.injEq] at stepped
        rcases stepped with ⟨⟨-, -, due⟩, rfl⟩
        exact holds.timeout found due
  case cancel id =>
    simp only [Option.ite_none_right_eq_some, Option.some.injEq] at stepped
    rcases stepped with ⟨-, rfl⟩
    exact holds.withGate holds.sound.interrupt (Line.interrupt_length _ _)
      fun _ member => Or.inl (by simpa using member)
  case resume id =>
    split at stepped
    · simp at stepped
    · simp only [Option.ite_none_right_eq_some, Option.some.injEq] at stepped
      rcases stepped with ⟨granted, rfl⟩
      have resumed : EngineInvariant acquireTimeout { world with gate := world.gate.resume id } :=
        holds.withGate (holds.sound.resume granted) (by simp [Line.resume])
          fun _ member => Or.inl member
      exact (resumed.ended id .sent).bind _ id
  case expire id =>
    split at stepped
    · simp at stepped
    · next waited found =>
        simp only [Option.ite_none_right_eq_some, Option.some.injEq] at stepped
        rcases stepped with ⟨⟨queued, fired⟩, rfl⟩
        exact holds.expire found queued fired
  case abort id =>
    simp only [Option.ite_none_right_eq_some, Option.some.injEq] at stepped
    rcases stepped with ⟨queued, rfl⟩
    exact (holds.abandon queued).ended id .raised
  case firstToken hold =>
    split at stepped
    · simp at stepped
    · split at stepped <;> cases stepped
      · exact holds
      · exact holds.giveBack _
  case release id =>
    split at stepped <;> cases stepped
    · exact holds.giveBack id
    · exact holds.giveBack id

end

end Steps

end HybridInference.Limiter
