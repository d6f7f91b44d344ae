import HybridInference.Library.Dict
import HybridInference.Library.ListUpdate

/-!
# Interactive requests in flight

`InteractiveLoad` and `InteractiveLoadTracker` of `serving.batch.interactive_load`.
Trackers are named by the order in which they were entered. How often a tracker
was left, and which request entered it, only say what happened.
-/

namespace HybridInference.Admission

open Library

structure Tracker where
  modelId : Option String
  active : Bool
  owner : ℕ
  exits : ℕ := 0
  deriving DecidableEq

structure InteractiveLoad where
  inFlight : Dict String ℤ := ∅
  trackers : List Tracker := []

namespace InteractiveLoad

def increment (inFlight : Dict String ℤ) : Option String → Dict String ℤ
  | some modelId => inFlight.insert modelId (inFlight.read modelId + 1)
  | none => inFlight

def decrement (inFlight : Dict String ℤ) : Option String → Dict String ℤ
  | some modelId => inFlight.settle modelId (inFlight.read modelId - 1)
  | none => inFlight

/-- `track(model_id)`, entered: the new tracker. -/
def enter (load : InteractiveLoad) (modelId : Option String) (owner : ℕ) : InteractiveLoad × ℕ :=
  ({ inFlight := increment load.inFlight modelId
     trackers := load.trackers ++ [{ modelId, active := true, owner }] },
    load.trackers.length)

def exit (load : InteractiveLoad) (id : ℕ) : InteractiveLoad :=
  match load.trackers[id]? with
  | some tracker =>
    { inFlight := decrement load.inFlight tracker.modelId
      trackers := load.trackers.set id
        { tracker with active := false, exits := tracker.exits + 1 } }
  | none => load

def retarget (load : InteractiveLoad) (id : ℕ) (modelId : Option String) : InteractiveLoad :=
  match load.trackers[id]? with
  | some tracker =>
    if modelId = tracker.modelId then load
    else
      { inFlight :=
          if tracker.active then increment (decrement load.inFlight tracker.modelId) modelId
          else load.inFlight
        trackers := load.trackers.set id { tracker with modelId } }
  | none => load

end InteractiveLoad

def Tracker.on (modelId : String) (tracker : Tracker) : Bool :=
  tracker.active && tracker.modelId = some modelId

def InteractiveLoad.Counted (load : InteractiveLoad) : Prop :=
  ∀ modelId, load.inFlight.read modelId = load.trackers.countP (Tracker.on modelId)

namespace InteractiveLoad

variable {load : InteractiveLoad}

theorem read_increment (inFlight : Dict String ℤ) (target : Option String) (modelId : String) :
    (increment inFlight target).read modelId =
      inFlight.read modelId + if target = some modelId then 1 else 0 := by
  cases target with
  | none => simp [increment]
  | some other =>
    rw [increment, Dict.read_insert]
    by_cases same : modelId = other
    · simp [same]
    · have flipped : other ≠ modelId := fun equal => same equal.symm
      simp [same, flipped]

theorem read_decrement {inFlight : Dict String ℤ} {target : Option String}
    (counted : ∀ modelId, target = some modelId → 1 ≤ inFlight.read modelId) (modelId : String) :
    (decrement inFlight target).read modelId =
      inFlight.read modelId - if target = some modelId then 1 else 0 := by
  cases target with
  | none => simp [decrement]
  | some other =>
    have positive := counted other rfl
    rw [decrement, Dict.read_settle _ _ _ (by omega)]
    by_cases same : modelId = other
    · simp [same]
    · have flipped : other ≠ modelId := fun equal => same equal.symm
      simp [same, flipped]

variable {tracker : Tracker}

section

variable (counted : load.Counted)

include counted

theorem Counted.positive {id : ℕ}
    (found : load.trackers[id]? = some tracker) (active : tracker.active = true)
    (modelId : String) (target : tracker.modelId = some modelId) :
    1 ≤ load.inFlight.read modelId := by
  rw [counted modelId]
  have some : 0 < load.trackers.countP (Tracker.on modelId) := by
    apply List.countP_pos_iff.mpr
    exact ⟨tracker, List.mem_of_getElem? found, by simp [Tracker.on, active, target]⟩
  omega

theorem Counted.enter (target : Option String) (owner : ℕ) :
    (load.enter target owner).1.Counted := by
  intro modelId
  have before := counted modelId
  simp only [InteractiveLoad.enter]
  rw [read_increment, List.countP_append]
  by_cases same : target = some modelId <;> simp [same, Tracker.on, before]

theorem Counted.exit {id : ℕ}
    (found : load.trackers[id]? = some tracker) (active : tracker.active = true) :
    (load.exit id).Counted := by
  intro modelId
  have before := counted modelId
  have moved := countP_set_of_some (Tracker.on modelId)
    { tracker with active := false, exits := tracker.exits + 1 } found
  simp only [InteractiveLoad.exit, found]
  rw [read_decrement (counted.positive found active), before]
  by_cases same : tracker.modelId = some modelId
  · simp only [Tracker.on, active, same, Bool.true_and, decide_true, if_true,
      Bool.false_and, Bool.false_eq_true, if_false] at moved ⊢
    omega
  · simp only [Tracker.on, active, same, Bool.true_and, decide_false,
      Bool.false_and, Bool.false_eq_true, if_false] at moved ⊢
    omega

/-- Moving a tracker to another model keeps the counts. -/
theorem Counted.retarget (id : ℕ) (target : Option String) : (load.retarget id target).Counted := by
  unfold InteractiveLoad.retarget
  split
  · next tracker found =>
      split_ifs with same active
      · exact counted
      · intro modelId
        have before := counted modelId
        have moved := countP_set_of_some (Tracker.on modelId)
          { tracker with modelId := target } found
        dsimp only
        rw [read_increment, read_decrement (counted.positive found active), before]
        simp only [Tracker.on, active, Bool.true_and, decide_eq_true_eq] at moved ⊢
        split_ifs at moved ⊢ <;> omega
      · intro modelId
        have before := counted modelId
        have moved := countP_set_of_some (Tracker.on modelId)
          { tracker with modelId := target } found
        have idle : tracker.active = false := by simpa using active
        dsimp only
        rw [before]
        simp only [Tracker.on, idle, Bool.false_and, Bool.false_eq_true, if_false] at moved ⊢
        omega
  · exact counted

end

/-- A retarget changes the model of a tracker at most. -/
theorem retarget_keeps {index : ℕ}
    (found : load.trackers[index]? = some tracker) (id : ℕ) (target : Option String) :
    ∃ later, (load.retarget id target).trackers[index]? = some later ∧
      later.owner = tracker.owner ∧ later.active = tracker.active ∧
      later.exits = tracker.exits := by
  unfold InteractiveLoad.retarget
  split
  · next moved there =>
      by_cases same : target = moved.modelId
      · rw [if_pos same]
        exact ⟨tracker, found, rfl, rfl, rfl⟩
      · rw [if_neg same]
        dsimp only
        rw [getElem?_set_of_some there]
        by_cases own : id = index
        · subst own
          rw [found, Option.some.injEq] at there
          subst there
          exact ⟨_, if_pos rfl, rfl, rfl, rfl⟩
        · exact ⟨tracker, (if_neg own).trans found, rfl, rfl, rfl⟩
  · exact ⟨tracker, found, rfl, rfl, rfl⟩

end InteractiveLoad

end HybridInference.Admission
