import Mathlib.Data.List.Basic

/-!
# Generators that write to an object

Running a generator executes statements one after another: some write to the
object the generator belongs to, some yield an event to the consumer. A consumer
may stop asking after any event, so a generator is its list of statements, each write kept as data:
a suspended generator is the statements that are left.
-/

namespace HybridInference.Library

class Object (State : Type) (Write : outParam Type) where
  apply : State → Write → State

inductive Statement (Event Write : Type) where
  | emit (event : Event)
  | write (change : Write)

namespace Statement

variable {State Write Event : Type} [Object State Write]

def execute (state : State) : Statement Event Write → State
  | .emit _ => state
  | .write change => Object.apply state change

def executeAll (state : State) (statements : List (Statement Event Write)) : State :=
  statements.foldl execute state

@[simp]
theorem executeAll_nil (state : State) :
    executeAll state ([] : List (Statement Event Write)) = state := rfl

@[simp]
theorem executeAll_append (state : State) (first second : List (Statement Event Write)) :
    executeAll state (first ++ second) = executeAll (executeAll state first) second :=
  List.foldl_append

/-- What a consumer that asks for the next event causes: the writes up to that
event, the event, and the statements left after it; no event when the generator
ends first. -/
def resume (state : State) :
    List (Statement Event Write) → State × Option Event × List (Statement Event Write)
  | [] => (state, none, [])
  | .emit event :: rest => (state, some event, rest)
  | .write change :: rest => resume (Object.apply state change) rest

theorem executeAll_resume (state : State) (statements : List (Statement Event Write)) :
    executeAll (resume state statements).1 (resume state statements).2.2 =
      executeAll state statements := by
  induction statements generalizing state with
  | nil => rfl
  | cons statement rest ih =>
    cases statement with
    | emit event => rfl
    | write change => exact ih (Object.apply state change)

variable {statements : List (Statement Event Write)}

theorem resume_rest_of_none {state : State}
    (ended : (resume state statements).2.1 = none) : (resume state statements).2.2 = [] := by
  induction statements generalizing state with
  | nil => rfl
  | cons statement rest ih =>
    cases statement with
    | emit event => simp [resume] at ended
    | write change => exact ih ended

theorem resume_state_of_none {state : State} (ended : (resume state statements).2.1 = none) :
    (resume state statements).1 = executeAll state statements := by
  rw [← executeAll_resume, resume_rest_of_none ended, executeAll_nil]

def events (statements : List (Statement Event Write)) : List Event :=
  statements.filterMap fun
    | .emit event => some event
    | .write _ => none

end Statement

/-- A generator: the statements it executes on an object, and its value, or
`none` when it raises after them. -/
def Generator (State Event : Type) {Write : Type} [Object State Write] (Value : Type) : Type :=
  State → List (Statement Event Write) × Option Value

namespace Generator

variable {State Write Event : Type} [Object State Write] {Value Result : Type}

def done (value : Value) : Generator State Event Value := fun _ => ([], some value)

def andThen (first : Generator State Event Value) (next : Value → Generator State Event Result) :
    Generator State Event Result := fun state =>
  match first state with
  | (statements, none) => (statements, none)
  | (statements, some value) =>
    let continued := next value (Statement.executeAll state statements)
    (statements ++ continued.1, continued.2)

instance : Monad (Generator State Event) where
  pure := done
  bind := andThen

def emit (event : Event) : Generator State Event Unit := fun _ => ([.emit event], some ())

def write (change : Write) : Generator State Event Unit := fun _ => ([.write change], some ())

def read : Generator State Event State := fun state => ([], some state)

def raise : Generator State Event Value := fun _ => ([], none)

def final (generator : Generator State Event Value) (state : State) : State :=
  Statement.executeAll state (generator state).1

/-- What holds of the object and the value when the generator, asked for all its
events, has ended (`some`) or raised (`none`). -/
def Ends (generator : Generator State Event Value) (state : State)
    (post : State → Option Value → Prop) : Prop :=
  post (generator.final state) (generator state).2

section Rules

variable {state : State}

theorem Ends.mono {generator : Generator State Event Value}
    {post weaker : State → Option Value → Prop} (ends : generator.Ends state post)
    (weaken : ∀ after value, post after value → weaker after value) :
    generator.Ends state weaker :=
  weaken _ _ ends

@[simp]
theorem ends_pure_iff {value : Value} {post : State → Option Value → Prop} :
    (pure value : Generator State Event Value).Ends state post ↔ post state (some value) :=
  Iff.rfl

@[simp]
theorem ends_emit_iff {event : Event} {post : State → Option Unit → Prop} :
    (emit event : Generator State Event Unit).Ends state post ↔ post state (some ()) :=
  Iff.rfl

@[simp]
theorem ends_write_iff {change : Write} {post : State → Option Unit → Prop} :
    (write change : Generator State Event Unit).Ends state post ↔
      post (Object.apply state change) (some ()) :=
  Iff.rfl

@[simp]
theorem ends_read_iff {post : State → Option State → Prop} :
    (read : Generator State Event State).Ends state post ↔ post state (some state) :=
  Iff.rfl

@[simp]
theorem ends_bind_iff {first : Generator State Event Result}
    {next : Result → Generator State Event Value} {post : State → Option Value → Prop} :
    (first >>= next).Ends state post ↔ first.Ends state fun after value =>
        value.elim (post after none) fun result => (next result).Ends after post := by
  unfold Ends final
  simp only [bind, andThen]
  split
  next statements first_eq => simp [first_eq]
  next statements result first_eq => simp [first_eq]

end Rules

def Executes (generator : Generator State Event Value)
    (allowed : Statement Event Write → Prop) : Prop :=
  ∀ state, ∀ statement ∈ (generator state).1, allowed statement

section Allowed

variable {allowed : Statement Event Write → Prop}

theorem executes_pure (value : Value) :
    Executes (pure value : Generator State Event Value) allowed := by
  intro state statement executed
  simp [pure, done] at executed

theorem executes_raise : Executes (raise : Generator State Event Value) allowed := by
  intro state statement executed
  simp [raise] at executed

theorem executes_read : Executes (read : Generator State Event State) allowed := by
  intro state statement executed
  simp [read] at executed

theorem executes_emit {event : Event} (emitted : allowed (.emit event)) :
    Executes (emit event : Generator State Event Unit) allowed := by
  intro state statement executed
  rw [List.mem_singleton.mp executed]
  exact emitted

theorem executes_write {change : Write} (written : allowed (.write change)) :
    Executes (write change : Generator State Event Unit) allowed := by
  intro state statement executed
  rw [List.mem_singleton.mp executed]
  exact written

variable {first : Generator State Event Result}

theorem mem_bind {next : Result → Generator State Event Value} {state : State}
    {statement : Statement Event Write} (executed : statement ∈ ((first >>= next) state).1) :
    statement ∈ (first state).1 ∨ ∃ result, (first state).2 = some result ∧
        statement ∈ (next result (first.final state)).1 := by
  simp only [bind, andThen] at executed
  split at executed
  next statements first_eq => exact Or.inl (by rwa [first_eq])
  next statements result first_eq =>
    rcases List.mem_append.mp executed with inFirst | inNext
    · exact Or.inl (by rwa [first_eq])
    · refine Or.inr ⟨result, by rw [first_eq], ?_⟩
      rwa [final, first_eq]

theorem executes_bind
    {next : Result → Generator State Event Value} (executesFirst : first.Executes allowed)
    (executesNext : ∀ result, (next result).Executes allowed) :
    (first >>= next).Executes allowed := by
  intro state statement executed
  rcases mem_bind executed with inFirst | ⟨result, -, inNext⟩
  · exact executesFirst state statement inFirst
  · exact executesNext result _ statement inNext

end Allowed

end Generator

end HybridInference.Library
