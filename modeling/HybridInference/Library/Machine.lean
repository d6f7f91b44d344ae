import Mathlib.Data.List.Induction

/-!
# Runs of an event-driven machine

A machine is a partial step function: `step state event` is `none` when the
event is not enabled in the state. The choices of an environment (which task
resumes, what a clock reads, how a store answers) are part of the event, so a
list of events determines a run and every interleaving is a list.

The rules are the inductions over runs, with a condition on the steps or a relation to the history.
-/

namespace HybridInference.Library

universe u v

/-- A machine with partial steps; an event it cannot take stops the run. -/
structure Machine (State : Type u) (Event : Type v) where
  /-- The state after an event, or `none` when the event is not enabled. -/
  step : State → Event → Option State

namespace Machine

variable {State : Type u} {Event : Type v} (machine : Machine State Event)

def run : State → List Event → Option State
  | state, [] => some state
  | state, event :: rest => (machine.step state event).bind fun next => run next rest

/-- Every step of a run meets `condition` in the state it starts from. -/
def Along (condition : State → Event → Prop) : State → List Event → Prop
  | _, [] => True
  | state, event :: rest =>
    condition state event ∧ ∀ next, machine.step state event = some next → Along condition next rest

variable {machine}

@[simp]
theorem run_nil (state : State) : machine.run state [] = some state := rfl

theorem run_cons_eq_some {state final : State} {event : Event} {rest : List Event} :
    machine.run state (event :: rest) = some final ↔
      ∃ next, machine.step state event = some next ∧ machine.run next rest = some final := by
  simp [run, Option.bind_eq_some_iff]

theorem run_append_eq_some {state final : State} {first second : List Event} :
    machine.run state (first ++ second) = some final ↔
      ∃ middle, machine.run state first = some middle ∧ machine.run middle second = some final := by
  induction first generalizing state with
  | nil => simp
  | cons event rest ih =>
    simp only [List.cons_append, run_cons_eq_some, ih]
    constructor
    · rintro ⟨next, stepped, middle, ranFirst, ranSecond⟩
      exact ⟨middle, ⟨next, stepped, ranFirst⟩, ranSecond⟩
    · rintro ⟨middle, ⟨next, stepped, ranFirst⟩, ranSecond⟩
      exact ⟨next, stepped, middle, ranFirst, ranSecond⟩

/-- What every step under a condition preserves holds after every run that meets it. -/
theorem run_invariant_along (condition : State → Event → Prop) {invariant : State → Prop}
    (preserved : ∀ state event next, invariant state → condition state event →
      machine.step state event = some next → invariant next)
    {state final : State} {events : List Event} (initial : invariant state)
    (along : machine.Along condition state events)
    (ran : machine.run state events = some final) : invariant final := by
  induction events generalizing state with
  | nil =>
    simp only [run_nil, Option.some.injEq] at ran
    exact ran ▸ initial
  | cons event rest ih =>
    rcases run_cons_eq_some.mp ran with ⟨next, stepped, ranRest⟩
    exact ih (preserved state event next initial along.1 stepped) (along.2 next stepped) ranRest

/-- Whether the steps of a concrete run meet a decidable condition is decided by
running it. -/
instance decidableAlong (condition : State → Event → Prop)
    [∀ state event, Decidable (condition state event)] :
    ∀ state events, Decidable (machine.Along condition state events)
  | _, [] => isTrue trivial
  | state, event :: rest =>
    match stepped : machine.step state event with
    | none =>
      decidable_of_iff (condition state event) (by simp [Along, stepped])
    | some next =>
      have := decidableAlong condition next rest
      decidable_of_iff (condition state event ∧ machine.Along condition next rest)
        (by simp [Along, stepped])

theorem along_of_forall_mem (condition : Event → Prop) {state : State} {events : List Event}
    (all : ∀ event ∈ events, condition event) :
    machine.Along (fun _ event => condition event) state events := by
  induction events generalizing state with
  | nil => trivial
  | cons event rest ih =>
    refine ⟨all event (by simp), fun next _ => ih ?_⟩
    intro later laterMem
    exact all later (by simp [laterMem])

theorem along_at {condition : State → Event → Prop} {state middle : State} {past rest : List Event}
    {event : Event} (along : machine.Along condition state (past ++ event :: rest))
    (ran : machine.run state past = some middle) : condition middle event := by
  induction past generalizing state with
  | nil =>
    simp only [run_nil, Option.some.injEq] at ran
    exact ran ▸ along.1
  | cons first past ih =>
    rcases run_cons_eq_some.mp ran with ⟨next, stepped, ranRest⟩
    exact ih (along.2 next stepped) ranRest

theorem along_congr {first second : State → Event → Prop} {invariant : State → Prop}
    (agree : ∀ state event, invariant state → (first state event ↔ second state event))
    (preserved : ∀ state event next, invariant state → second state event →
      machine.step state event = some next → invariant next)
    {state : State} {events : List Event} (initial : invariant state) :
    machine.Along first state events ↔ machine.Along second state events := by
  induction events generalizing state with
  | nil => exact Iff.rfl
  | cons event rest ih =>
    simp only [Along]
    rw [agree state event initial]
    apply and_congr_right
    intro met
    apply forall_congr'
    intro next
    apply imp_congr_right
    intro stepped
    exact ih (preserved state event next initial met stepped)

theorem along_of_invariant {condition property : State → Event → Prop} {invariant : State → Prop}
    (given : ∀ state event, invariant state → condition state event → property state event)
    (preserved : ∀ state event next, invariant state → condition state event →
      machine.step state event = some next → invariant next)
    {state : State} {events : List Event} (initial : invariant state)
    (along : machine.Along condition state events) : machine.Along property state events := by
  induction events generalizing state with
  | nil => trivial
  | cons event rest ih =>
    refine ⟨given state event initial along.1, ?_⟩
    intro next stepped
    exact ih (preserved state event next initial along.1 stepped) (along.2 next stepped)

/-- What every step preserves holds after every run. -/
theorem run_invariant {invariant : State → Prop} (preserved : ∀ state event next, invariant state →
      machine.step state event = some next → invariant next)
    {state final : State} {events : List Event} (initial : invariant state)
    (ran : machine.run state events = some final) : invariant final :=
  run_invariant_along (fun _ _ => True)
    (fun state event next holds _ stepped => preserved state event next holds stepped)
    initial (along_of_forall_mem (fun _ => True) fun _ _ => trivial) ran

/-- An invariant about the state and the events before it. -/
theorem run_history {start : State} {holds : List Event → State → Prop} (initial : holds [] start)
    (preserved : ∀ past state event next, machine.run start past = some state →
      holds past state → machine.step state event = some next → holds (past ++ [event]) next)
    {past : List Event} {final : State} (ran : machine.run start past = some final) :
    holds past final := by
  induction past using List.reverseRecOn generalizing final with
  | nil =>
    simp only [run_nil, Option.some.injEq] at ran
    exact ran ▸ initial
  | append_singleton past event ih =>
    rcases run_append_eq_some.mp ran with ⟨state, ranPast, ranEvent⟩
    rcases run_cons_eq_some.mp ranEvent with ⟨next, stepped, ended⟩
    simp only [run_nil, Option.some.injEq] at ended
    exact ended ▸ preserved past state event next ranPast (ih ranPast) stepped

end Machine

end HybridInference.Library
