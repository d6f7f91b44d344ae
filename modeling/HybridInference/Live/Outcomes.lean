import HybridInference.Live.Group

/-!
# What a step of a live group does

The applier goes on from an await in one way only: it starts a prepare for the newest
snapshot, or waits for nothing (`Resumed`). A step then has one of a few outcomes.
-/

namespace HybridInference.Live

open Library

variable {S D V : Type*}

def Stage.task : Stage S D → Option ℕ
  | .preparing _ _ _ task => some task
  | .abandoning _ task _ => some task
  | _ => none

def PrepareTask.Active (prepare : PrepareTask V) : Prop :=
  prepare = .running ∨ ∃ view, prepare = .returned view

namespace Group

structure Resumed (component : Component S D V) (before after : Group S D V) : Prop where
  published : after.published = before.published ∨
    ∃ desired version, after.published = { before.published with
      desired := desired
      managed := true
      version := version }
  prepares : (after.prepares = before.prepares ∧ after.stage.task = none) ∨
    ∃ serial snapshot desired, before.latest = some (serial, snapshot) ∧
      component.activates snapshot ∧ component.project snapshot = some desired ∧
      after.stage = .preparing serial snapshot desired before.prepares.length ∧
      after.prepares = before.prepares ++ [.running]
  latest : after.latest = before.latest
  submitted : after.submitted = before.submitted
  abandoned : after.abandoned = before.abandoned
  records : after.records = before.records
  retiring : after.retiring = before.retiring
  session : after.session = before.session
  views : after.views = before.views
  released : after.released = before.released
  succeeded : after.succeeded = before.succeeded

section Going

variable {component : Component S D V} {group before after : Group S D V}

theorem resumed_waiting (stage : Stage S D) (failures : ℕ) (retryAt : ℚ)
    (failedDesired : Option D) (waiting : stage.task = none) :
    Resumed component group { group with
      stage := stage
      failures := failures
      retryAt := retryAt
      failedDesired := failedDesired } where
  published := Or.inl rfl
  prepares := Or.inl ⟨rfl, waiting⟩
  latest := rfl
  submitted := rfl
  abandoned := rfl
  records := rfl
  retiring := rfl
  session := rfl
  views := rfl
  released := rfl
  succeeded := rfl

theorem resumed_adopt (desired : D) (version : Option SourceVersion) : Resumed component group
      (((group.goTo .idle).adopt component desired version).clearBackoff) := by
  unfold adopt
  split_ifs
  · exact resumed_waiting .idle _ _ _ rfl
  · exact
      { published := Or.inr ⟨desired, version, rfl⟩
        prepares := Or.inl ⟨rfl, rfl⟩
        latest := rfl
        submitted := rfl
        abandoned := rfl
        records := rfl
        retiring := rfl
        session := rfl
        views := rfl
        released := rfl
        succeeded := rfl }

variable {snapshot : SourceSnapshot S}

theorem resumed_startPrepare {serial : ℕ} {desired : D}
    (latest : group.latest = some (serial, snapshot))
    (activates : component.activates snapshot = true)
    (projected : component.project snapshot = some desired)
    (started : after = (group.goTo .idle).startPrepare serial snapshot desired ∨
      after = (group.goTo .idle).clearBackoff.startPrepare serial snapshot desired) :
    Resumed component group after := by
  rcases started with rfl | rfl
  all_goals exact
    { published := Or.inl rfl
      prepares := Or.inr ⟨serial, snapshot, desired, latest, activates, projected, rfl, rfl⟩
      latest := rfl
      submitted := rfl
      abandoned := rfl
      records := rfl
      retiring := rfl
      session := rfl
      views := rfl
      released := rfl
      succeeded := rfl }

theorem resumed_reconcileOne {serial : ℕ} (now : ℚ)
    (latest : group.latest = some (serial, snapshot)) :
    Resumed component group (group.reconcileOne component serial snapshot now) := by
  unfold reconcileOne
  by_cases activates : component.activates snapshot = true
  · simp only [activates, Bool.not_true, Bool.false_eq_true, if_false]
    cases projected : component.project snapshot with
    | none => exact resumed_waiting .idle _ _ _ rfl
    | some desired =>
      change Resumed component group (if _ then _ else _)
      split_ifs
      · exact resumed_adopt desired snapshot.version
      · exact resumed_waiting .idle _ _ _ rfl
      · exact resumed_waiting .idle _ _ _ rfl
      · exact resumed_startPrepare latest activates projected (Or.inl rfl)
      · exact resumed_waiting .idle _ _ _ rfl
      · exact resumed_startPrepare latest activates projected (Or.inr rfl)
  · simp only [activates, Bool.not_false, if_true]
    exact resumed_waiting .idle _ _ _ rfl

theorem resumed_reconcileLatest (now : ℚ) :
    Resumed component group (group.reconcileLatest component now) := by
  unfold reconcileLatest
  split
  · exact resumed_waiting .idle _ _ _ rfl
  · rename_i latest
    exact resumed_reconcileOne now latest

theorem resumed_continueWith (next : Next D) (now jitter : ℚ) :
    Resumed component group (group.continueWith component next now jitter) := by
  cases next with
  | superseded => exact resumed_reconcileLatest now
  | finished | timedOut desired =>
    exact resumed_waiting .idle _ _ _ rfl
  | cancelled => exact resumed_waiting .ended _ _ _ rfl

theorem Resumed.view (resumed : Resumed component before after) :
    after.published.view = before.published.view := by
  rcases resumed.published with same | ⟨desired, version, adopted⟩
  · rw [same]
  · rw [adopted]

end Going

def Free (group : Group S D V) : Prop :=
  ∀ (task : ℕ) (prepare : PrepareTask V), group.stage.task = some task →
    group.prepares[task]? = some prepare → ¬ prepare.Active

section Waiting

variable {group : Group S D V}

theorem free_of_waiting (waiting : group.stage.task = none) : group.Free := by
  intro task prepare waited
  rw [waiting] at waited
  contradiction

theorem free_of_inactive {task : ℕ} (waited : group.stage.task = some task)
    (inactive : ∀ prepare, group.prepares[task]? = some prepare → ¬ prepare.Active) :
    group.Free := by
  intro other prepare stage found
  rw [waited, Option.some.injEq] at stage
  exact inactive prepare (stage ▸ found)

theorem free_of_failed {task : ℕ} (waited : group.stage.task = some task)
    (failed : group.prepares[task]? = some .failed) : group.Free := by
  apply free_of_inactive waited
  intro prepare found
  rw [failed, Option.some.injEq] at found
  simp [← found, PrepareTask.Active]

end Waiting

/-- What a step can do, `stop` apart from the mark that it sets. -/
inductive Outcome [DecidableEq V] (component : Component S D V) (group : Group S D V) :
    LiveEvent S V → Group S D V → Prop
  | submitted (snapshot : SourceSnapshot S) : Outcome component group (.submit snapshot)
      { group with
        latest := some (group.submitted, snapshot)
        submitted := group.submitted + 1 }
  | resumed {event : LiveEvent S V} {next : Group S D V} (free : group.Free)
      (resumed : Resumed component group next) : Outcome component group event next
  | gaveUp {event : LiveEvent S V} {task : ℕ} {next : Group S D V}
      (waited : group.stage.task = some task)
      (resumed : Resumed component { group with abandoned := group.abandoned ++ [task] } next) :
      Outcome component group event next
  | waits {event : LiveEvent S V} {stage : Stage S D} (same : stage.task = group.stage.task)
      (prepares : ∀ serial snapshot desired task, stage ≠ .preparing serial snapshot desired task) :
      Outcome component group event (group.goTo stage)
  | returned {task : ℕ} {view : V} (running : group.prepares[task]? = some .running)
      (fresh : view ∉ group.views) : Outcome component group (.prepareReturns task view)
      { group with
        prepares := group.prepares.set task (.returned view)
        views := group.views ++ [view] }
  | failed {task : ℕ} (running : group.prepares[task]? = some .running) :
      Outcome component group (.prepareFails task)
        { group with prepares := group.prepares.set task .failed }
  | discarded {event : LiveEvent S V} {task : ℕ} {view : V} {after : Next D}
      (waited : group.stage.task = some task)
      (found : group.prepares[task]? = some (.returned view)) :
      Outcome component group event ((group.take task).discard view after)
  | published {now jitter : ℚ} {serial task : ℕ} {snapshot target : SourceSnapshot S}
      {desired targeted : D} {view : V}
      (stage : group.stage = .preparing serial snapshot desired task)
      (found : group.prepares[task]? = some (.returned view))
      (fresh : group.targetNow component serial snapshot desired = some (target, targeted))
      (stopping : group.stopping = false) : Outcome component group (.resume now jitter)
      ((((group.take task).publish view targeted target.version).clearBackoff.queue
        group.published.view .retire).goTo .idle)
  | cameLate {task : ℕ} {view : V} (abandoned : task ∈ group.abandoned)
      (found : group.prepares[task]? = some (.returned view)) :
      Outcome component group (.finishAbandoned task)
        (({ group with abandoned := group.abandoned.filter fun other => other ≠ task }.take
          task).queue view .discard)
  | failedLate {task : ℕ} (found : group.prepares[task]? = some .failed) :
      Outcome component group (.finishAbandoned task)
        { group with abandoned := group.abandoned.filter fun other => other ≠ task }
  | interrupted {record : ℕ} {next : Next D} (stage : group.stage = .discarding record next) :
      Outcome component group .stop
        { group.goTo .ended with
          session := if isDiscarding group.session then none else group.session }
  | discards {now jitter : ℚ} {record : ℕ} {next : Next D} {entry : Retiring V}
      (stage : group.stage = .discarding record next)
      (queued : group.isQueued component record = true)
      (found : group.records[record]? = some entry) :
      Outcome component group (.beginDiscard now jitter)
        { group.setRecord record { entry with task := some (entry.task.getD .running) } with
          session := some (.discard, some record) }
  | sweeps {everything : Bool} : Outcome component group (.beginSweep everything)
      { group with session := some (.sweep group.retiring everything, none) }
  | lets {event : LiveEvent S V} : Outcome component group event { group with session := none }
  | skips {now : ℚ} {record : ℕ} {rest : List ℕ} {everything : Bool}
      (session : group.session = some (.sweep (record :: rest) everything, none)) :
      Outcome component group (.nextRecord now)
        { group with session := some (.sweep rest everything, none) }
  | tries {now : ℚ} {record : ℕ} {rest : List ℕ} {everything : Bool} {entry : Retiring V}
      (session : group.session = some (.sweep (record :: rest) everything, none))
      (found : group.records[record]? = some entry) :
      Outcome component group (.nextRecord now)
        { group.setRecord record { entry with task := some (entry.task.getD .running) } with
          session := some (.sweep rest everything, some record) }
  | settled {now jitter : ℚ} {session : Session} {record : ℕ} {entry : Retiring V}
      (held : group.session = some (session, some record))
      (found : group.records[record]? = some entry) :
      Outcome component group (.endAttempt now jitter)
        ((group.settle component record entry now).afterAttempt component session now jitter)
  | released {record : ℕ} {ok : Bool} {entry : Retiring V}
      (found : group.records[record]? = some entry) (running : entry.task = some .running) :
      Outcome component group (.releaseReturns record ok)
        { group.setRecord record { entry with
            task := some (.done ok)
            retryAt := if group.isQueued component record then 0 else entry.retryAt } with
          succeeded := if ok then group.succeeded ++ [entry.view] else group.succeeded }

section Stepping

variable [DecidableEq V] {component : Component S D V} {group next : Group S D V}

theorem cancel_cases (event : LiveEvent S V) (event_eq : event = .stop) :
    Outcome component group event group.cancel := by
  subst event_eq
  unfold cancel
  split
  case h_1 stage =>
      exact .waits (by simp [stage, Stage.task]) (by simp)
  case h_2 stage =>
      exact .waits (by simp [stage, Stage.task]) (by simp)
  case h_3 stage =>
      exact .waits (by simp [stage, Stage.task]) (by simp)
  case h_4 task stage =>
      have waited : group.stage.task = some task := by simp [stage, Stage.task]
      split
      · rename_i view found
        exact .discarded waited found
      · exact .gaveUp waited (resumed_waiting .ended _ _ _ rfl)
      · rename_i other running
        apply Outcome.resumed (free_of_inactive waited _) (resumed_waiting .ended _ _ _ rfl)
        rintro prepare found (rfl | ⟨view, rfl⟩)
        · exact running found
        · exact other view found
  case h_5 stage =>
      exact .waits (by simp [stage, Stage.task]) (by simp)
  case h_6 stage => exact .interrupted stage

theorem afterPrepare_cases {now jitter : ℚ} {serial task : ℕ} {snapshot : SourceSnapshot S}
    {desired : D} {view : V} (stage : group.stage = .preparing serial snapshot desired task)
    (found : group.prepares[task]? = some (.returned view)) :
    Outcome component group (.resume now jitter)
      ((group.take task).afterPrepare component serial snapshot desired view) := by
  have waited : group.stage.task = some task := by simp [stage, Stage.task]
  unfold afterPrepare
  split
  · exact .discarded waited found
  · rename_i target targeted fresh
    split_ifs with stopping
    · exact .discarded waited found
    · exact .published stage found fresh (Bool.not_eq_true _ ▸ stopping)

/-- What a step does, by what it finds; a stop also sets the flag. -/
theorem step_cases {event : LiveEvent S V} (stepped : group.step component event = some next) :
    Outcome component group event next ∨ event = .stop ∧ group.stopping = false ∧
      Outcome component { group with stopping := true } .stop next := by
  cases event with
  | submit snapshot =>
    simp only [step, Option.some.injEq] at stepped
    exact Or.inl (stepped ▸ .submitted snapshot)
  | pass now =>
    left
    simp only [step] at stepped
    split at stepped
    · rename_i serial snapshot stage latest
      split_ifs at stepped
      simp only [Option.some.injEq] at stepped
      have waiting : group.stage.task = none := by simp [stage, Stage.task]
      exact .resumed (free_of_waiting waiting) (stepped ▸ resumed_reconcileOne now latest)
    · contradiction
  | prepareReturns task view =>
    left
    simp only [step] at stepped
    split at stepped
    · rename_i running
      split_ifs at stepped with known
      exact Option.some.inj stepped ▸ .returned running known
    · contradiction
  | prepareFails task =>
    left
    simp only [step] at stepped
    split at stepped
    · rename_i running
      exact Option.some.inj stepped ▸ .failed running
    · contradiction
  | resume now jitter =>
    left
    simp only [step] at stepped
    split at stepped
    · rename_i serial snapshot desired task stage
      have waited : group.stage.task = some task := by simp [stage, Stage.task]
      split at stepped
      · rename_i view found
        exact Option.some.inj stepped ▸ afterPrepare_cases stage found
      · rename_i failed
        exact Option.some.inj stepped ▸
          .resumed (free_of_failed waited failed) (resumed_waiting .idle _ _ _ rfl)
      · contradiction
    · contradiction
  | prepareTimeout =>
    left
    simp only [step] at stepped
    split at stepped
    · rename_i serial snapshot desired task stage
      split at stepped
      · exact Option.some.inj stepped ▸ .waits (by simp [stage, Stage.task]) (by simp)
      · contradiction
    · contradiction
  | abandonResume now jitter =>
    left
    simp only [step] at stepped
    split at stepped
    · rename_i desired task timedOut stage
      have waited : group.stage.task = some task := by simp [stage, Stage.task]
      split at stepped
      · rename_i view found
        exact Option.some.inj stepped ▸ .discarded waited found
      · rename_i failed
        exact Option.some.inj stepped ▸
          .resumed (free_of_failed waited failed) (resumed_continueWith _ now jitter)
      · contradiction
    · contradiction
  | abandonTimeout now jitter =>
    left
    simp only [step] at stepped
    split at stepped
    · rename_i desired task timedOut stage
      exact Option.some.inj stepped ▸
        .gaveUp (by simp [stage, Stage.task]) (resumed_continueWith _ now jitter)
    · contradiction
  | finishAbandoned task =>
    left
    simp only [step] at stepped
    split_ifs at stepped with known
    split at stepped
    · rename_i view found
      exact Option.some.inj stepped ▸ .cameLate known found
    · rename_i failed
      exact Option.some.inj stepped ▸ .failedLate failed
    · contradiction
  | stop =>
    right
    simp only [step] at stepped
    split_ifs at stepped with stopping
    simp only [Option.some.injEq] at stepped
    exact ⟨rfl, Bool.not_eq_true _ ▸ stopping, stepped ▸ cancel_cases .stop rfl⟩
  | beginDiscard now jitter =>
    left
    simp only [step] at stepped
    split at stepped
    · rename_i record next stage session
      split_ifs at stepped with queued
      · simp only [tryRetire, Option.map_eq_some_iff] at stepped
        rcases stepped with ⟨entry, found, rfl⟩
        exact .discards stage queued found
      · simp only [Option.some.injEq] at stepped
        have waiting : group.stage.task = none := by simp [stage, Stage.task]
        exact stepped ▸ .resumed (free_of_waiting waiting) (resumed_continueWith _ now jitter)
    · contradiction
  | beginSweep everything =>
    left
    simp only [step] at stepped
    split_ifs at stepped
    exact Option.some.inj stepped ▸ .sweeps
  | nextRecord now =>
    left
    simp only [step] at stepped
    split at stepped
    · exact Option.some.inj stepped ▸ .lets
    · rename_i record rest everything session
      split at stepped
      · rename_i entry found
        split_ifs at stepped
        · exact Option.some.inj stepped ▸ .skips session
        · simp only [tryRetire, Option.map_eq_some_iff] at stepped
          rcases stepped with ⟨entry, found, rfl⟩
          exact .tries session found
      · contradiction
    · contradiction
  | endAttempt now jitter =>
    left
    simp only [step] at stepped
    split at stepped
    · rename_i session record held
      simp only [Option.map_eq_some_iff] at stepped
      rcases stepped with ⟨entry, found, rfl⟩
      exact .settled held found
    · contradiction
  | abortSweep =>
    left
    simp only [step] at stepped
    split at stepped
    · exact Option.some.inj stepped ▸ .lets
    · contradiction
  | releaseReturns record ok =>
    left
    simp only [step] at stepped
    split at stepped
    · rename_i entry found
      by_cases running : entry.task = some .running
      · rw [if_pos running, Option.some.injEq] at stepped
        exact stepped ▸ .released found running
      · rw [if_neg running] at stepped
        contradiction
    · contradiction

end Stepping

end Group

end HybridInference.Live
