import Mathlib.Data.List.Basic

/-!
# Transducers

A transducer reads symbols one after another and puts out some results at each. What it does on
a text is what it does on the pieces of the text in turn.
-/

namespace HybridInference.Library.Transducer

universe u v w

variable {State : Type u} {Symbol : Type v} {Output : Type w}
  (step : State → Symbol → State × List Output)

def run : State → List Symbol → State × List Output
  | state, [] => (state, [])
  | state, symbol :: rest =>
    let next := step state symbol
    let later := run next.1 rest
    (later.1, next.2 ++ later.2)

/-- A run over two inputs is a run over the first, then over the second. -/
theorem run_append (state : State) (first second : List Symbol) : run step state (first ++ second) =
      ((run step (run step state first).1 second).1,
        (run step state first).2 ++ (run step (run step state first).1 second).2) := by
  induction first generalizing state with
  | nil => rfl
  | cons symbol rest ih => simp only [List.cons_append, run, ih, List.append_assoc]

end HybridInference.Library.Transducer
