import HybridInference.Live.Handover

/-!
# Only current states are published, and each is released once

A published state is the newest target: its snapshot is the one that was prepared, or a
newer one of the same epoch that activates the group and configures the same state.
-/

namespace HybridInference.Live.Group

open Library

variable {S D V : Type*} {component : Component S D V} {group next : Group S D V}

/-- What the applier prepares is the target of a snapshot that activates the group, and the
newest snapshot, while its serial is the same, is that one. -/
structure Prepared (component : Component S D V) (group : Group S D V) : Prop where
  newest : ∀ serial snapshot, group.latest = some (serial, snapshot) → serial < group.submitted
  target : ∀ serial snapshot desired task, group.stage = .preparing serial snapshot desired task →
    component.activates snapshot = true ∧ component.project snapshot = some desired ∧
      serial < group.submitted ∧ ∃ newest latest, group.latest = some (newest, latest) ∧
        (newest = serial → latest = snapshot)

/-- `_adopt`: another target for the same view, under the same generation. -/
def Adopts (group next : Group S D V) : Prop :=
  ∃ desired version, next.published = { group.published with
    desired := desired
    managed := true
    version := version }

/-- `publish` of the candidate that the applier prepared, as the newest target. -/
def PublishesNewest (component : Component S D V) (group next : Group S D V) : Prop :=
  ∃ serial prepared target task newest latest,
    group.stage = .preparing serial prepared target task ∧
    group.prepares[task]? = some (.returned next.published.view) ∧
    group.latest = some (newest, latest) ∧ component.activates latest = true ∧
    latest.epoch = prepared.epoch ∧ component.project prepared = some target ∧
    component.project latest = some next.published.desired ∧
    (next.published.desired = target ∨ component.same next.published.desired target = true) ∧
    next.published.version = latest.version ∧
    next.published.generation = group.published.generation + 1 ∧
    next.published.managed = true ∧ group.stopping = false

theorem Prepared.of_same (prepared : group.Prepared component)
    (latest : next.latest = group.latest) (submitted : next.submitted = group.submitted)
    (stage : ∀ serial snapshot desired task, next.stage = .preparing serial snapshot desired task →
      group.stage = .preparing serial snapshot desired task) : next.Prepared component where
  newest := by
    rw [latest, submitted]
    exact prepared.newest
  target serial snapshot desired task preparing := by
    rw [latest, submitted]
    exact prepared.target serial snapshot desired task (stage _ _ _ _ preparing)

theorem Resumed.prepared (resumed : Resumed component group next)
    (newest : ∀ serial snapshot, group.latest = some (serial, snapshot) →
      serial < group.submitted) : next.Prepared component where
  newest := by
    rw [resumed.latest, resumed.submitted]
    exact newest
  target serial snapshot desired task preparing := by
    rw [resumed.latest, resumed.submitted]
    rcases resumed.prepares with ⟨-, waiting⟩ | ⟨_, _, _, latest, activates, projected, stage, -⟩
    · rw [preparing] at waiting
      contradiction
    · rw [preparing, Stage.preparing.injEq] at stage
      obtain ⟨rfl, rfl, rfl, -⟩ := stage
      exact ⟨activates, projected, newest serial snapshot latest, serial, snapshot, latest,
        fun _ => rfl⟩

theorem targetNow_newest (prepared : group.Prepared component) {serial task : ℕ}
    {snapshot target : SourceSnapshot S} {desired targeted : D}
    (stage : group.stage = .preparing serial snapshot desired task)
    (fresh : group.targetNow component serial snapshot desired = some (target, targeted)) :
    ∃ newest, group.latest = some (newest, target) ∧ component.activates target = true ∧
      target.epoch = snapshot.epoch ∧ component.project target = some targeted ∧
      (targeted = desired ∨ component.same targeted desired = true) := by
  rcases prepared.target serial snapshot desired task stage with
    ⟨activates, projected, _, newest, latest, there, same⟩
  unfold targetNow at fresh
  rw [there] at fresh
  dsimp only at fresh
  split_ifs at fresh with newest_eq epoch inactive
  · cases fresh
    rw [same newest_eq] at there
    exact ⟨newest, there, activates, rfl, projected, Or.inl rfl⟩
  · split at fresh
    · contradiction
    · rename_i newer projectedNewer
      split_ifs at fresh with sameTarget
      cases fresh
      simp only [Bool.not_eq_true', Bool.not_eq_false] at inactive
      exact ⟨newest, there, inactive, not_not.mp epoch, projectedNewer, Or.inr sameTarget⟩

theorem prepared_initial (view : V) (desired : D) :
    (initial view desired : Group S D V).Prepared component where
  newest _ _ latest := by contradiction
  target _ _ _ _ preparing := by contradiction

variable [DecidableEq V] {event : LiveEvent S V}

section

variable (prepared : group.Prepared component)

include prepared

theorem Prepared.outcome
    (outcome : Outcome component group event next) : next.Prepared component := by
  cases outcome with
  | submitted snapshot =>
    refine ⟨?_, ?_⟩
    · intro serial newest latest
      cases latest
      exact Nat.lt_succ_self _
    · intro serial prepared' desired task preparing
      rcases prepared.target serial prepared' desired task preparing with
        ⟨activates, projected, earlier, -⟩
      refine ⟨activates, projected, Nat.lt_succ_of_lt earlier, _, _, rfl, ?_⟩
      intro same
      exact absurd same (Nat.ne_of_gt earlier)
  | resumed _ resumed | gaveUp _ resumed =>
    exact resumed.prepared prepared.newest
  | waits _ other =>
    refine prepared.of_same rfl rfl ?_
    intro serial snapshot desired task preparing
    exact absurd preparing (other serial snapshot desired task)
  | discarded | published | interrupted =>
    refine prepared.of_same rfl rfl ?_
    intro serial snapshot desired task preparing
    contradiction
  | returned | failed | cameLate | failedLate | discards | sweeps | lets | skips | tries
  | released =>
    exact prepared.of_same rfl rfl fun _ _ _ _ preparing => preparing
  | @settled now jitter session record entry held found =>
    rcases @settle_same S D V component group _ record entry now with
      ⟨_, stage, _, latest, submitted, _⟩
    have settled : (group.settle component record entry now).Prepared component :=
      prepared.of_same latest submitted fun _ _ _ _ preparing => stage ▸ preparing
    rcases @afterAttempt_cases S D V component (group.settle component record entry now) session
      now jitter with ⟨rest, everything, _, ended⟩ | ended | ⟨_, resumed⟩
    · rw [ended]
      exact settled.of_same rfl rfl fun _ _ _ _ preparing => preparing
    · rw [ended]
      exact settled.of_same rfl rfl fun _ _ _ _ preparing => preparing
    · exact resumed.prepared settled.newest

theorem published_outcome (outcome : Outcome component group event next) :
    next.published = group.published ∨ group.Adopts next ∨
      group.PublishesNewest component next := by
  cases outcome with
  | resumed _ resumed | gaveUp _ resumed =>
    rcases resumed.published with same | adopted
    · exact Or.inl same
    · exact Or.inr (Or.inl adopted)
  | submitted | waits | returned | failed | discarded | cameLate | failedLate | interrupted
  | discards | sweeps | lets | skips | tries | released => exact Or.inl rfl
  | @published _ _ serial task snapshot target desired targeted view stage found fresh stopping =>
    rcases targetNow_newest prepared stage fresh with
      ⟨newest, latest, activates, epoch, projected, same⟩
    exact Or.inr (Or.inr ⟨serial, snapshot, desired, task, newest, target, stage, found, latest,
      activates, epoch, (prepared.target _ _ _ _ stage).2.1, projected, same, rfl, rfl, rfl,
      stopping⟩)
  | @settled now jitter session record entry held found =>
    rcases @settle_same S D V component group _ record entry now with
      ⟨_, _, _, _, _, published⟩
    rcases @afterAttempt_cases S D V component (group.settle component record entry now) session
      now jitter with ⟨rest, everything, _, ended⟩ | ended | ⟨_, resumed⟩
    · rw [ended]
      exact Or.inl published
    · rw [ended]
      exact Or.inl published
    · rcases resumed.published with same | adopted
      · exact Or.inl (same.trans published)
      · right
        left
        unfold Adopts
        rw [← published]
        exact adopted

/-- One step keeps the prepared candidate current. -/
theorem prepared_step
    (stepped : (machine component).step group event = some next) : next.Prepared component := by
  rcases step_cases stepped with outcome | ⟨-, -, outcome⟩
  · exact prepared.outcome outcome
  · have marked : ({ group with stopping := true } : Group S D V).Prepared component :=
      prepared.of_same rfl rfl fun _ _ _ _ preparing => preparing
    exact marked.outcome outcome

/-- A step publishes nothing, adopts or publishes the newest. -/
theorem published_step (stepped : (machine component).step group event = some next) :
    next.published = group.published ∨ group.Adopts next ∨
      group.PublishesNewest component next := by
  rcases step_cases stepped with outcome | ⟨-, -, outcome⟩
  · exact published_outcome prepared outcome
  · have marked : ({ group with stopping := true } : Group S D V).Prepared component :=
      prepared.of_same rfl rfl fun _ _ _ _ preparing => preparing
    rcases published_outcome marked outcome with same | adopts |
      ⟨_, _, _, _, _, _, _, _, _, _, _, _, _, _, _, _, _, stopping⟩
    · exact Or.inl same
    · exact Or.inr (Or.inl adopts)
    · exact absurd stopping (by simp)

end

structure ReleasedOnce (group : Group S D V) : Prop where
  one : ∀ view ∈ group.views, group.places view = 1
  none : ∀ view, view ∉ group.views → group.places view = 0
  handed : ∀ (task : ℕ) (view : V), group.prepares[task]? = some (.returned view) →
    group.stage.task = some task ∨ task ∈ group.abandoned
  calls : ∀ view, group.succeeded.count view ≤ 1
  released : ∀ view ∈ group.released, group.succeeded.count view = 1
  published : group.succeeded.count group.published.view = 0

/-- The invariant of the runs whose steps take off the queue the records that they mean. -/
structure Sound (group : Group S D V) : Prop where
  counted : group.Counted
  orderly : group.Orderly
  inSession : group.InSession
  attended : group.Attended

theorem sound_initial (view : V) (desired : D) : (initial view desired : Group S D V).Sound where
  counted :=
    { distinct := List.nodup_singleton view
      counted := fun other => by
        change (if view = other then 1 else 0) + 0 + 0 + 0 = [view].count other
        rw [List.count_singleton]
        simp only [beq_iff_eq, Nat.add_zero] }
  orderly :=
    { distinct := List.nodup_nil
      known := fun _ inside => by contradiction
      calls := fun _ _ there => by contradiction
      succeeded := fun _ => rfl }
  inSession := fun _ _ held => by contradiction
  attended := fun _ _ there => by contradiction

theorem Sound.outcome (sound : group.Sound) (own : takesItsOwn component group event)
    (outcome : Outcome component group event next) : next.Sound where
  counted := sound.counted.outcome sound.orderly sound.inSession own outcome
  orderly := sound.orderly.outcome sound.inSession own outcome
  inSession := sound.inSession.outcome sound.orderly own outcome
  attended := sound.attended.outcome outcome

/-- One step whose retirement takes its own record keeps the census. -/
theorem Sound.step (sound : group.Sound) (own : takesItsOwn component group event)
    (stepped : (machine component).step group event = some next) : next.Sound := by
  rcases step_cases stepped with outcome | ⟨rfl, -, outcome⟩
  · exact sound.outcome own outcome
  · have marked : ({ group with stopping := true } : Group S D V).Sound :=
      { counted := sound.counted.of_places rfl fun _ => rfl
        orderly := ⟨sound.orderly.distinct, sound.orderly.known, sound.orderly.calls,
          sound.orderly.succeeded⟩
        inSession := sound.inSession.of_same rfl rfl rfl
        attended := sound.attended.of_same rfl rfl rfl }
    have nothing : takesItsOwn component ({ group with stopping := true } : Group S D V) .stop :=
      trivial
    exact marked.outcome nothing outcome

theorem countP_hasReleased_le (group : Group S D V) (view : V) :
    group.retiring.countP (group.hasReleased view) ≤ group.retiring.countP (group.holds view) := by
  apply List.countP_mono_left
  intro record _ ended
  unfold hasReleased at ended
  unfold holds
  rcases found : group.records[record]? with _ | entry
  · rw [found] at ended
    contradiction
  · rw [found] at ended
    simp only [Option.any_some, Bool.and_eq_true, decide_eq_true_eq] at ended ⊢
    exact ended.1

theorem Sound.releasedOnce (sound : group.Sound) : group.ReleasedOnce := by
  have bound : ∀ view, group.places view ≤ 1 := by
    intro view
    rw [sound.counted.counted view]
    exact List.nodup_iff_count_le_one.mp sound.counted.distinct view
  have calls : ∀ view, (if group.published.view = view then 1 else 0) +
      group.succeeded.count view ≤ 1 := by
    intro view
    have limit := bound view
    have waiting := countP_hasReleased_le group view
    have counted := sound.orderly.succeeded view
    unfold places at limit
    omega
  refine ⟨?_, ?_, ?_, ?_, ?_, ?_⟩
  · intro view known
    rw [sound.counted.counted view]
    exact List.count_eq_one_of_mem sound.counted.distinct known
  · intro view unknown
    rw [sound.counted.counted view]
    exact List.count_eq_zero.mpr unknown
  · intro task view returned
    exact sound.attended task _ returned (Or.inr ⟨view, rfl⟩)
  · intro view
    have := calls view
    omega
  · intro view released
    have limit := calls view
    have counted := sound.orderly.succeeded view
    have positive := List.count_pos_iff.mpr released
    omega
  · have limit := calls group.published.view
    rw [if_pos rfl] at limit
    omega

/-- What is published is adopted or the newest prepared, and every view is released once where every
retirement takes its own record. -/
theorem live_group_current_and_released_once (component : Component S D V) (view : V)
    (desired : D) {events : List (LiveEvent S V)} {final : Group S D V}
    (ran : (machine component).run (initial view desired) events = some final) :
    (∀ event next, (machine component).step final event = some next →
      next.published = final.published ∨ final.Adopts next ∨ final.PublishesNewest component next) ∧
    ((machine component).Along (takesItsOwn component) (initial view desired) events →
      final.ReleasedOnce) := by
  constructor
  · intro event next stepped
    have prepared : final.Prepared component :=
      Machine.run_invariant (fun _ _ _ kept step => prepared_step kept step)
        (prepared_initial view desired) ran
    exact published_step prepared stepped
  · intro along
    have sound : final.Sound :=
      Machine.run_invariant_along (takesItsOwn component)
        (fun _ _ _ kept own step => kept.step own step) (sound_initial view desired) along ran
    exact sound.releasedOnce

theorem takesItsOwn_of_single {now jitter : ℚ} (single : group.retiring.length ≤ 1) :
    takesItsOwn component group (.endAttempt now jitter) := by
  intro session record entry before after _ _ _ split other inside
  have positive := List.length_pos_of_mem inside
  have := congrArg List.length split
  rw [List.length_append, List.length_cons] at this
  omega

def labelled : Component ℕ ℕ (ℕ × ℕ) where
  project snapshot := some snapshot.settings
  same := fun first second => first = second
  sameMirror := fun first second => first = second
  equalViews := fun first second => first.2 = second.2
  schemaVersions := [1]
  keys := []

def snapshotOf (revision settings : ℕ) : SourceSnapshot ℕ where
  version := some { epoch := 0, revision := revision }
  contract := some { active := true, schemaVersion := 1, keys := [] }
  settings := settings

def replacement : List (LiveEvent ℕ (ℕ × ℕ)) :=
  [.submit (snapshotOf 1 1), .pass 0, .prepareReturns 0 (1, 0), .resume 0 1, .beginSweep false,
    .nextRecord 0, .releaseReturns 0 true, .endAttempt 0 1]

theorem live_group_replaces_baseline :
    ∃ final, (machine labelled).run (initial (0, 0) 0) replacement = some final ∧
      final.ReleasedOnce := by
  rcases ran : (machine labelled).run (initial (0, 0) 0) replacement with _ | final
  · exact absurd (congrArg Option.isSome ran) (by decide +kernel)
  · refine ⟨final, rfl, (live_group_current_and_released_once labelled (0, 0) 0 ran).2 ?_⟩
    refine ⟨trivial, fun _ one => ⟨trivial, fun _ two => ⟨trivial, fun _ three => ⟨trivial,
      fun _ four => ⟨trivial, fun _ five => ⟨trivial, fun _ six => ⟨trivial, fun last seven =>
      ⟨?_, fun _ _ => trivial⟩⟩⟩⟩⟩⟩⟩⟩
    apply takesItsOwn_of_single
    have until_last : (machine labelled).run (initial (0, 0) 0) (replacement.take 7) =
        some last := by
      simp only [replacement, List.take, Machine.run_cons_eq_some, Machine.run_nil]
      exact ⟨_, one, _, two, _, three, _, four, _, five, _, six, _, seven, rfl⟩
    have single : ((machine labelled).run (initial (0, 0) 0) (replacement.take 7)).map
        (fun group => group.retiring.length) = some 1 := by decide +kernel
    rw [until_last, Option.map_some, Option.some.injEq] at single
    exact le_of_eq single

def mixUp : List (LiveEvent ℕ (ℕ × ℕ)) :=
  [.submit (snapshotOf 1 1), .pass 0, .prepareTimeout, .abandonTimeout 0 1,
    .submit (snapshotOf 2 2), .pass 0, .submit (snapshotOf 3 3), .prepareReturns 0 (1, 0),
    .finishAbandoned 0, .prepareReturns 1 (2, 0), .resume 0 1, .beginDiscard 0 1,
    .releaseReturns 1 true, .endAttempt 0 1]

/-- Of two retired views that compare equal one is never released. -/
theorem equal_views_lose_a_release :
    ¬ ∀ (component : Component ℕ ℕ (ℕ × ℕ)) (view : ℕ × ℕ) (desired : ℕ)
      (events : List (LiveEvent ℕ (ℕ × ℕ))) (final : Group ℕ ℕ (ℕ × ℕ)),
      (machine component).run (initial view desired) events = some final →
        final.ReleasedOnce := by
  intro claimed
  rcases ran : (machine labelled).run (initial (0, 0) 0) mixUp with _ | final
  · exact absurd (congrArg Option.isSome ran) (by decide +kernel)
  · have known : ((machine labelled).run (initial (0, 0) 0) mixUp).map Group.views =
        some [(0, 0), (1, 0), (2, 0)] := by decide +kernel
    have lost : ((machine labelled).run (initial (0, 0) 0) mixUp).map
        (fun group => group.places (1, 0)) = some 0 := by decide +kernel
    rw [ran, Option.map_some, Option.some.injEq] at known lost
    have one := (claimed labelled (0, 0) 0 mixUp final ran).one (1, 0) (by rw [known]; decide)
    omega

end HybridInference.Live.Group
