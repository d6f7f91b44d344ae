import HybridInference.Live.Outcomes

/-!
# Where the views are

Every view there has been is in exactly one place: published, returned by a prepare and not
taken up yet, in the release queue, or released. A record is taken off the queue by `==`,
so the census of a run needs that each step takes off the record it means
(`takesItsOwn`).
-/

namespace HybridInference.Live

open Library

variable {S D V : Type*}

namespace Group

def Attended (group : Group S D V) : Prop :=
  ∀ (task : ℕ) (prepare : PrepareTask V), group.prepares[task]? = some prepare →
    prepare.Active → group.stage.task = some task ∨ task ∈ group.abandoned

structure Sweeping (group : Group S D V) (session : Session) (current : Option ℕ) : Prop where
  queued : ∀ record, current = some record → record ∈ group.retiring ∧
    ∃ entry, group.records[record]? = some entry ∧ entry.task ≠ none
  rest : ∀ rest everything, session = .sweep rest everything → rest.Nodup ∧
    ∀ record ∈ rest, record ∈ group.retiring ∧ current ≠ some record
  discarding : session = .discard → current ≠ none

def InSession (group : Group S D V) : Prop :=
  ∀ session current, group.session = some (session, current) → group.Sweeping session current

section Resuming

variable {component : Component S D V} {before after : Group S D V}

theorem Resumed.inSession (resumed : Resumed component before after)
    (inSession : before.InSession) : after.InSession := by
  intro session current held
  have sweeping := inSession session current (resumed.session ▸ held)
  refine ⟨?_, ?_, sweeping.discarding⟩
  · rw [resumed.retiring, resumed.records]
    exact sweeping.queued
  · rw [resumed.retiring]
    exact sweeping.rest

theorem Resumed.attended (resumed : Resumed component before after)
    (attended : ∀ (task : ℕ) (prepare : PrepareTask V), before.prepares[task]? = some prepare →
      prepare.Active → task ∈ before.abandoned) : after.Attended := by
  intro task prepare found active
  rw [resumed.abandoned]
  rcases resumed.prepares with ⟨same, -⟩ | ⟨_, _, _, _, _, _, stage, started⟩
  · rw [same] at found
    exact Or.inr (attended task prepare found active)
  · rw [started] at found
    rw [stage]
    by_cases earlier : task < before.prepares.length
    · rw [List.getElem?_append_left earlier] at found
      exact Or.inr (attended task prepare found active)
    · have inside := (List.getElem?_eq_some_iff.mp found).1
      simp only [List.length_append, List.length_cons, List.length_nil] at inside
      left
      simp only [Stage.task, Option.some.injEq]
      omega

end Resuming

end Group

variable [DecidableEq V]

def PrepareTask.hasReturned (view : V) (task : PrepareTask V) : Bool := task = .returned view

@[simp]
theorem PrepareTask.hasReturned_returned (view other : V) :
    (PrepareTask.returned view).hasReturned other = decide (view = other) := by
  simp [hasReturned]

@[simp]
theorem PrepareTask.hasReturned_running (view : V) : PrepareTask.running.hasReturned view = false :=
  rfl

@[simp]
theorem PrepareTask.hasReturned_failed (view : V) : PrepareTask.failed.hasReturned view = false :=
  rfl

@[simp]
theorem PrepareTask.hasReturned_taken (view : V) : PrepareTask.taken.hasReturned view = false :=
  rfl

namespace Group

def holds (group : Group S D V) (view : V) (record : ℕ) : Bool :=
  (group.records[record]?).any fun entry => entry.view = view

def hasReleased (group : Group S D V) (view : V) (record : ℕ) : Bool :=
  (group.records[record]?).any fun entry => entry.view = view && entry.task = some (.done true)

def places (group : Group S D V) (view : V) : ℕ :=
  (if group.published.view = view then 1 else 0) +
    group.prepares.countP (PrepareTask.hasReturned view) +
    group.retiring.countP (group.holds view) + group.released.count view

structure Counted (group : Group S D V) : Prop where
  distinct : group.views.Nodup
  counted : ∀ view, group.places view = group.views.count view

structure Orderly (group : Group S D V) : Prop where
  distinct : group.retiring.Nodup
  known : ∀ record ∈ group.retiring, record < group.records.length
  calls : ∀ (record : ℕ) (entry : Retiring V), group.records[record]? = some entry →
    record ∉ group.retiring → entry.task = none
  succeeded : ∀ view, group.succeeded.count view =
    group.released.count view + group.retiring.countP (group.hasReleased view)

/-- The step takes the record it means off the queue: no other record that compares equal
to it is before it, and one that was taken off already is not found again. -/
def takesItsOwn (component : Component S D V) (group : Group S D V) : LiveEvent S V → Prop
  | .beginDiscard _ _ => ∀ record next, group.stage = .discarding record next →
      record ∈ group.retiring ∨ ∀ other ∈ group.retiring, ¬ group.isEqualTo component record other
  | .endAttempt _ _ => ∀ session record entry before after,
      group.session = some (session, some record) → group.records[record]? = some entry →
      entry.task = some (.done true) → group.retiring = before ++ record :: after →
      ∀ other ∈ before,
        ¬ (group.setRecord record { entry with task := none }).isEqualTo component record other
  | _ => True

section Resuming

variable {component : Component S D V} {before after : Group S D V}

theorem Resumed.places (resumed : Resumed component before after) (view : V) :
    after.places view = before.places view := by
  have returned : after.prepares.countP (PrepareTask.hasReturned view) =
      before.prepares.countP (PrepareTask.hasReturned view) := by
    rcases resumed.prepares with ⟨same, -⟩ | ⟨_, _, _, _, _, _, _, started⟩
    · rw [same]
    · rw [started, List.countP_append]
      simp
  unfold Group.places holds
  rw [resumed.view, returned, resumed.records, resumed.retiring, resumed.released]

theorem Resumed.counted (resumed : Resumed component before after) (counted : before.Counted) :
    after.Counted where
  distinct := resumed.views ▸ counted.distinct
  counted view := by
    rw [resumed.places, resumed.views]
    exact counted.counted view

theorem Resumed.orderly (resumed : Resumed component before after) (orderly : before.Orderly) :
    after.Orderly where
  distinct := resumed.retiring ▸ orderly.distinct
  known := by
    rw [resumed.retiring, resumed.records]
    exact orderly.known
  calls := by
    rw [resumed.retiring, resumed.records]
    exact orderly.calls
  succeeded view := by
    unfold hasReleased
    rw [resumed.succeeded, resumed.released, resumed.retiring, resumed.records]
    exact orderly.succeeded view

end Resuming

section Places

variable {group : Group S D V}

theorem places_take {task : ℕ} {view : V} (found : group.prepares[task]? = some (.returned view))
    (other : V) : (group.take task).places other + (if view = other then 1 else 0) =
      group.places other := by
  have counted := countP_set_of_some (PrepareTask.hasReturned other) .taken found
  simp only [PrepareTask.hasReturned_returned, PrepareTask.hasReturned_taken, decide_eq_true_eq,
    Bool.false_eq_true, if_false, Nat.add_zero] at counted
  have taken : (group.take task).places other = (if group.published.view = other then 1 else 0) +
      (group.prepares.set task .taken).countP (PrepareTask.hasReturned other) +
        group.retiring.countP (group.holds other) + group.released.count other := rfl
  rw [taken]
  unfold places
  omega

theorem holds_queue (orderly : group.Orderly) (view other : V) (kind : ReleaseKind) {record : ℕ}
    (queued : record ∈ group.retiring) :
    (group.queue view kind).holds other record = group.holds other record := by
  change Option.any _ ((group.records ++ [_])[record]?) = _
  rw [List.getElem?_append_left (orderly.known record queued)]
  rfl

theorem places_queue (orderly : group.Orderly) (view other : V) (kind : ReleaseKind) :
    (group.queue view kind).places other = group.places other + if view = other then 1 else 0 := by
  have waiting : (group.retiring ++ [group.records.length]).countP
      ((group.queue view kind).holds other) =
      group.retiring.countP (group.holds other) + if view = other then 1 else 0 := by
    rw [List.countP_append]
    congr 1
    · apply List.countP_congr
      intro record queued
      rw [holds_queue orderly view other kind queued]
    · simp [holds, queue]
  have queued : (group.queue view kind).places other =
      (if group.published.view = other then 1 else 0) +
        group.prepares.countP (PrepareTask.hasReturned other) +
        (group.retiring ++ [group.records.length]).countP ((group.queue view kind).holds other) +
        group.released.count other := rfl
  rw [queued, waiting]
  unfold places
  omega

theorem places_publish (view other : V) (desired : D) (version : Option SourceVersion) :
    (group.publish view desired version).places other +
      (if group.published.view = other then 1 else 0) =
      group.places other + if view = other then 1 else 0 := by
  have rest : (group.publish view desired version).places other =
      (if view = other then 1 else 0) + group.prepares.countP (PrepareTask.hasReturned other) +
        group.retiring.countP (group.holds other) + group.released.count other := rfl
  rw [rest]
  unfold places
  omega

end Places

end Group

end HybridInference.Live
