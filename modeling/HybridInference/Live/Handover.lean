import HybridInference.Live.Census
import Mathlib.Data.List.Nodup

/-!
# A step keeps the census

One lemma for each thing that happens to a record of the release queue: it is queued, its
release call starts or returns, and it is taken off. The outcomes of a step are then put
together from these.
-/

namespace HybridInference.Live.Group

open Library

variable {S D V : Type*} {component : Component S D V} {group next : Group S D V}

theorem active_of_set {prepares : List (PrepareTask V)} {task other : ℕ}
    {old new prepare : PrepareTask V} (found : prepares[task]? = some old)
    (there : (prepares.set task new)[other]? = some prepare) (active : prepare.Active)
    (inactive : ¬ new.Active) : other ≠ task ∧ prepares[other]? = some prepare := by
  rcases getElem?_set_cases found there with ⟨-, rfl⟩ | other
  · exact absurd active inactive
  · exact other

theorem not_active_taken : ¬ (PrepareTask.taken : PrepareTask V).Active := by
  simp [PrepareTask.Active]

theorem not_active_failed : ¬ (PrepareTask.failed : PrepareTask V).Active := by
  simp [PrepareTask.Active]

theorem Attended.taken (attended : group.Attended) {task : ℕ} {prepare : PrepareTask V}
    (waited : group.stage.task = some task) (found : group.prepares[task]? = some prepare)
    (prepares : next.prepares = group.prepares.set task .taken)
    (abandoned : next.abandoned = group.abandoned) : next.Attended := by
  intro other active there isActive
  rw [prepares] at there
  rcases active_of_set found there isActive not_active_taken with ⟨different, earlier⟩
  rcases attended other active earlier isActive with waits | gone
  · rw [waited, Option.some.injEq] at waits
    exact absurd waits.symm different
  · exact Or.inr (abandoned ▸ gone)

theorem Attended.of_same (attended : group.Attended) (prepares : next.prepares = group.prepares)
    (stage : next.stage.task = group.stage.task)
    (abandoned : next.abandoned = group.abandoned) : next.Attended := by
  unfold Attended
  rw [prepares, stage, abandoned]
  exact attended

theorem Attended.resumed (attended : group.Attended) (free : group.Free)
    (resumed : Resumed component group next) : next.Attended := by
  apply resumed.attended
  intro task prepare found active
  exact (attended task prepare found active).resolve_left fun waited =>
    free task prepare waited found active

variable {session : Session}

theorem Sweeping.of_same {current : Option ℕ}
    (sweeping : group.Sweeping session current) (retiring : next.retiring = group.retiring)
    (records : next.records = group.records) : next.Sweeping session current where
  queued := by
    rw [retiring, records]
    exact sweeping.queued
  rest := by
    rw [retiring]
    exact sweeping.rest
  discarding := sweeping.discarding

theorem Sweeping.setRecord {current : Option ℕ} {record : ℕ}
    {entry changed : Retiring V} (sweeping : group.Sweeping session current)
    (found : group.records[record]? = some entry) (started : changed.task ≠ none) :
    (group.setRecord record changed).Sweeping session current where
  queued place here := by
    rcases sweeping.queued place here with ⟨queued, other, there, running⟩
    refine ⟨queued, ?_⟩
    change ∃ entry, (group.records.set record changed)[place]? = some entry ∧ _
    rw [getElem?_set_of_some found]
    split_ifs with same
    · exact ⟨changed, rfl, started⟩
    · exact ⟨other, there, running⟩
  rest := sweeping.rest
  discarding := sweeping.discarding

theorem Sweeping.tried {record : ℕ} {entry : Retiring V}
    (found : group.records[record]? = some entry) (queued : record ∈ group.retiring)
    (rest : ∀ rest everything, session = .sweep rest everything → rest.Nodup ∧
      ∀ other ∈ rest, other ∈ group.retiring ∧ record ≠ other) :
    (group.setRecord record { entry with task := some (entry.task.getD .running) }).Sweeping
      session (some record) where
  queued place here := by
    cases here
    refine ⟨queued, { entry with task := some (entry.task.getD .running) }, ?_, by simp⟩
    change (group.records.set record _)[record]? = _
    rw [getElem?_set_of_some found, if_pos rfl]
  rest others everything what := by
    rcases rest others everything what with ⟨distinct, inside⟩
    refine ⟨distinct, ?_⟩
    intro other member
    exact ⟨(inside other member).1, by simpa using (inside other member).2⟩
  discarding _ := by simp

theorem InSession.of_same (inSession : group.InSession) (session : next.session = group.session)
    (retiring : next.retiring = group.retiring) (records : next.records = group.records) :
    next.InSession := by
  intro what current held
  rw [session] at held
  exact (inSession what current held).of_same retiring records

theorem InSession.queue (inSession : group.InSession) (view : V)
    (kind : ReleaseKind) : (group.queue view kind).InSession := by
  intro session current held
  have sweeping := inSession session current held
  refine ⟨?_, ?_, sweeping.discarding⟩
  · intro record here
    rcases sweeping.queued record here with ⟨queued, entry, found, started⟩
    refine ⟨List.mem_append_left _ queued, entry, ?_, started⟩
    exact getElem?_concat_of_some found
  · intro rest everything what
    rcases sweeping.rest rest everything what with ⟨distinct, queued⟩
    refine ⟨distinct, ?_⟩
    intro record inside
    exact ⟨List.mem_append_left _ (queued record inside).1, (queued record inside).2⟩

theorem afterAttempt_cases {session : Session} {now jitter : ℚ} :
    (∃ rest everything, session = .sweep rest everything ∧
      group.afterAttempt component session now jitter =
        { group with session := some (.sweep rest everything, none) }) ∨
    group.afterAttempt component session now jitter = { group with session := none } ∨
    group.stage.task = none ∧ Resumed component { group with session := none }
        (group.afterAttempt component session now jitter) := by
  cases session with
  | sweep rest everything => exact Or.inl ⟨rest, everything, rfl, rfl⟩
  | discard =>
    right
    unfold afterAttempt
    dsimp only
    split
    · rename_i stage
      exact Or.inr ⟨by simp [stage, Stage.task], resumed_continueWith _ now jitter⟩
    · exact Or.inl rfl

variable [DecidableEq V]

section Records

variable {record : ℕ} {entry changed : Retiring V}

theorem holds_setRecord (changed : Retiring V) (found : group.records[record]? = some entry)
    (view : changed.view = entry.view) (other : V) :
    (group.setRecord record changed).holds other = group.holds other := by
  funext place
  change Option.any _ (group.records.set record changed)[place]? = _
  rw [getElem?_set_of_some found]
  split_ifs with same
  · subst same
    simp [holds, found, view]
  · rfl

section

variable (found : group.records[record]? = some entry) (view : V)

include found

theorem hasReleased_setRecord_of_ne {place : ℕ} (different : place ≠ record) :
    (group.setRecord record changed).hasReleased view place = group.hasReleased view place := by
  change Option.any _ (group.records.set record changed)[place]? = _
  rw [getElem?_set_of_some found, if_neg different.symm]
  rfl

theorem hasReleased_setRecord : (group.setRecord record changed).hasReleased view record =
      (changed.view = view && changed.task = some (.done true)) := by
  change Option.any _ (group.records.set record changed)[record]? = _
  rw [getElem?_set_of_some found, if_pos rfl]
  rfl

theorem hasReleased_of_some :
    group.hasReleased view record = (entry.view = view && entry.task = some (.done true)) := by
  simp [hasReleased, found]

end

theorem countP_hasReleased_setRecord (changed : Retiring V) (orderly : group.Orderly)
    (found : group.records[record]? = some entry) (view : V) (queued : record ∈ group.retiring) :
    group.retiring.countP ((group.setRecord record changed).hasReleased view) +
        (if entry.view = view ∧ entry.task = some (.done true) then 1 else 0) =
      group.retiring.countP (group.hasReleased view) +
        if changed.view = view ∧ changed.task = some (.done true) then 1 else 0 := by
  rcases List.append_of_mem queued with ⟨before, after, split⟩
  have distinct := orderly.distinct
  rw [split, List.nodup_middle, List.nodup_cons, List.mem_append, not_or] at distinct
  have same : ∀ list : List ℕ, record ∉ list →
      list.countP ((group.setRecord record changed).hasReleased view) =
        list.countP (group.hasReleased view) := by
    intro list absent
    apply List.countP_congr
    intro place inside
    rw [hasReleased_setRecord_of_ne found view (fun same => absent (same ▸ inside))]
  rw [split]
  simp only [List.countP_append, List.countP_cons, same before distinct.1.1,
    same after distinct.1.2, hasReleased_setRecord found, hasReleased_of_some found,
    Bool.and_eq_true, decide_eq_true_eq]
  omega

theorem calls_setRecord (changed : Retiring V) (orderly : group.Orderly)
    (found : group.records[record]? = some entry) (queued : record ∈ group.retiring) {place : ℕ}
    {other : Retiring V} (there : (group.setRecord record changed).records[place]? = some other)
    (absent : place ∉ group.retiring) : other.task = none := by
  have different : record ≠ place := fun same => absent (same ▸ queued)
  apply orderly.calls place other _ absent
  rw [← there]
  change _ = (group.records.set record changed)[place]?
  rw [getElem?_set_of_some found, if_neg different]

theorem Orderly.setRecord (orderly : group.Orderly) (found : group.records[record]? = some entry)
    (queued : record ∈ group.retiring) (view : changed.view = entry.view)
    (ended : changed.task = some (.done true) ↔ entry.task = some (.done true)) :
    (group.setRecord record changed).Orderly where
  distinct := orderly.distinct
  known place inside := by
    change place < (group.records.set record changed).length
    rw [List.length_set]
    exact orderly.known place inside
  calls _ _ there absent := calls_setRecord changed orderly found queued there absent
  succeeded other := by
    have counted := countP_hasReleased_setRecord changed orderly found other queued
    simp only [view, ended] at counted
    change group.succeeded.count other = group.released.count other + group.retiring.countP _
    have before := orderly.succeeded other
    omega

end Records

theorem hasReleased_queue (orderly : group.Orderly) (view other : V) (kind : ReleaseKind)
    {record : ℕ} (queued : record ∈ group.retiring) :
    (group.queue view kind).hasReleased other record = group.hasReleased other record := by
  change Option.any _ ((group.records ++ [_])[record]?) = _
  rw [List.getElem?_append_left (orderly.known record queued)]
  rfl

theorem Orderly.queue (orderly : group.Orderly) (view : V) (kind : ReleaseKind) :
    (group.queue view kind).Orderly where
  distinct := by
    change (group.retiring ++ [group.records.length]).Nodup
    rw [List.nodup_append]
    refine ⟨orderly.distinct, by simp, ?_⟩
    intro record queued other last
    have := orderly.known record queued
    simp only [List.mem_singleton] at last
    omega
  known record queued := by
    change record < (group.records ++ [_]).length
    rw [List.length_append, List.length_singleton]
    rcases List.mem_append.mp queued with earlier | last
    · have := orderly.known record earlier
      omega
    · simp only [List.mem_singleton] at last
      omega
  calls record entry there absent := by
    change record ∉ group.retiring ++ [group.records.length] at absent
    rw [List.mem_append, List.mem_singleton, not_or] at absent
    rcases getElem?_concat_cases there with earlier | ⟨last, _⟩
    · exact orderly.calls record entry earlier absent.1
    · exact absurd last absent.2
  succeeded other := by
    change group.succeeded.count other = group.released.count other +
      (group.retiring ++ [group.records.length]).countP _
    rw [List.countP_append, orderly.succeeded other]
    have earlier : group.retiring.countP ((group.queue view kind).hasReleased other) =
        group.retiring.countP (group.hasReleased other) := by
      apply List.countP_congr
      intro record queued
      rw [hasReleased_queue orderly view other kind queued]
    have last : (group.queue view kind).hasReleased other group.records.length = false := by
      simp [hasReleased, Group.queue]
    simp [earlier, last]

section Settling

variable {record : ℕ} {entry : Retiring V} {before after : List ℕ}

theorem dequeue_eq (found : ∃ entry, group.records[record]? = some entry)
    (split : group.retiring = before ++ record :: after)
    (own : ∀ other ∈ before, ¬ group.isEqualTo component record other) :
    group.dequeue component record = before ++ after := by
  have itself : group.isEqualTo component record record = true := by
    rcases found with ⟨entry, found⟩
    simp [isEqualTo, found, Component.equalRecords]
  unfold dequeue
  rw [split, List.eraseP_append_right _ own, List.eraseP_cons_of_pos itself]

theorem settle_released (found : group.records[record]? = some entry) (now : ℚ)
    (done : entry.task = some (.done true)) (split : group.retiring = before ++ record :: after)
    (own : ∀ other ∈ before,
      ¬ (group.setRecord record { entry with task := none }).isEqualTo component record other) :
    group.settle component record entry now =
      { group.setRecord record { entry with task := none } with
        retiring := before ++ after
        released := group.released ++ [entry.view] } := by
  have there : ∃ entry', (group.setRecord record { entry with task := none }).records[record]? =
      some entry' := by
    refine ⟨{ entry with task := none }, ?_⟩
    change (group.records.set record _)[record]? = _
    rw [getElem?_set_of_some found, if_pos rfl]
  unfold settle
  simp only [done]
  rw [dequeue_eq there split own]

theorem settle_kept (now : ℚ) (notDone : entry.task ≠ some (.done true)) :
    ∃ changed : Retiring V, changed.view = entry.view ∧ changed.task ≠ some (.done true) ∧
      group.settle component record entry now = group.setRecord record changed := by
  unfold settle
  split
  · rename_i done
    exact absurd done notDone
  · refine ⟨_, ?_, ?_, rfl⟩
    · rfl
    split_ifs <;> simp

theorem Orderly.afterRelease (orderly : group.Orderly)
    (found : group.records[record]? = some entry) (done : entry.task = some (.done true))
    (split : group.retiring = before ++ record :: after) :
    ({ group.setRecord record { entry with task := none } with
      retiring := before ++ after
      released := group.released ++ [entry.view] } : Group S D V).Orderly := by
  have distinct := orderly.distinct
  rw [split, List.nodup_middle, List.nodup_cons] at distinct
  have kept : ∀ place ∈ before ++ after, place ∈ group.retiring := by
    intro place inside
    rw [split]
    rcases List.mem_append.mp inside with inside | inside <;> simp [inside]
  have queued : record ∈ group.retiring := by simp [split]
  refine ⟨distinct.2, ?_, ?_, ?_⟩
  · intro place inside
    change place < (group.records.set record _).length
    rw [List.length_set]
    exact orderly.known place (kept place inside)
  · intro place other there absent
    change (group.records.set record _)[place]? = some other at there
    rw [getElem?_set_of_some found] at there
    split_ifs at there with same
    · rw [← Option.some.inj there]
    · apply orderly.calls place other there
      rw [split, List.mem_append, List.mem_cons]
      rw [List.mem_append] at absent
      rintro (inside | rfl | inside)
      · exact absent (Or.inl inside)
      · exact same rfl
      · exact absent (Or.inr inside)
  · intro view
    have counted := countP_hasReleased_setRecord { entry with task := none } orderly found view
      queued
    have earlier := orderly.succeeded view
    rw [split] at counted earlier
    simp only [List.countP_append, List.countP_cons, hasReleased_setRecord found, done,
      hasReleased_of_some found, and_true, reduceCtorEq, decide_true, decide_false,
      Bool.and_false, Bool.and_true, Bool.false_eq_true, if_false, and_false, decide_eq_true_eq,
      Nat.add_zero] at counted earlier
    change group.succeeded.count view = (group.released ++ [entry.view]).count view +
      (before ++ after).countP
        ((group.setRecord record { entry with task := none }).hasReleased view)
    rw [earlier, List.count_append, List.count_singleton, List.countP_append]
    simp only [beq_iff_eq]
    omega

theorem Counted.afterRelease (counted : group.Counted) (found : group.records[record]? = some entry)
    (split : group.retiring = before ++ record :: after) :
    ({ group.setRecord record { entry with task := none } with
      retiring := before ++ after
      released := group.released ++ [entry.view] } : Group S D V).Counted where
  distinct := counted.distinct
  counted view := by
    have earlier := counted.counted view
    have here : group.holds view record = decide (entry.view = view) := by
      simp [holds, found]
    change (if group.published.view = view then 1 else 0) +
      group.prepares.countP (PrepareTask.hasReturned view) +
      (before ++ after).countP ((group.setRecord record { entry with task := none }).holds view) +
      (group.released ++ [entry.view]).count view = group.views.count view
    rw [holds_setRecord { entry with task := none } found rfl, List.countP_append,
      List.count_append, List.count_singleton]
    unfold places at earlier
    rw [split, List.countP_append, List.countP_cons, here] at earlier
    simp only [beq_iff_eq, decide_eq_true_eq] at earlier ⊢
    omega

end Settling

section Attempts

variable {record : ℕ} {entry : Retiring V} {now : ℚ}

theorem settle_same : (group.settle component record entry now).prepares = group.prepares ∧
    (group.settle component record entry now).stage = group.stage ∧
    (group.settle component record entry now).abandoned = group.abandoned ∧
    (group.settle component record entry now).latest = group.latest ∧
    (group.settle component record entry now).submitted = group.submitted ∧
    (group.settle component record entry now).published = group.published := by
  unfold settle
  split <;> exact ⟨rfl, rfl, rfl, rfl, rfl, rfl⟩

end Attempts

section Outcomes

variable {event : LiveEvent S V}

theorem Attended.outcome (attended : group.Attended)
    (outcome : Outcome component group event next) : next.Attended := by
  cases outcome with
  | submitted snapshot => exact attended
  | resumed free resumed => exact attended.resumed free resumed
  | gaveUp waited resumed =>
    apply resumed.attended
    intro other prepare found active
    rcases attended other prepare found active with waits | gone
    · rw [waited, Option.some.injEq] at waits
      exact List.mem_append_right _ (by simp [waits])
    · exact List.mem_append_left _ gone
  | waits same => exact attended.of_same rfl same rfl
  | @returned task view running fresh =>
    intro other prepare there active
    rw [getElem?_set_of_some running] at there
    split_ifs at there with same
    · exact attended other .running (same ▸ running) (Or.inl rfl)
    · exact attended other prepare there active
  | failed running =>
    intro other prepare there active
    exact attended other prepare (active_of_set running there active not_active_failed).2 active
  | discarded waited found => exact attended.taken waited found rfl rfl
  | published stage found _ _ =>
    exact attended.taken (by simp [stage, Stage.task]) found rfl rfl
  | cameLate _ found =>
    intro other prepare there active
    rcases active_of_set found there active not_active_taken with ⟨different, earlier⟩
    rcases attended other prepare earlier active with waits | gone
    · exact Or.inl waits
    · exact Or.inr (List.mem_filter.mpr ⟨gone, by simpa using different⟩)
  | @failedLate task found =>
    intro other prepare there active
    have different : other ≠ task := by
      rintro rfl
      rw [found, Option.some.injEq] at there
      exact not_active_failed (there ▸ active)
    rcases attended other prepare there active with waits | gone
    · exact Or.inl waits
    · exact Or.inr (List.mem_filter.mpr ⟨gone, by simpa using different⟩)
  | interrupted stage =>
    exact attended.of_same rfl (by simp [stage, Stage.task, goTo]) rfl
  | discards => exact attended
  | sweeps => exact attended
  | lets => exact attended
  | skips => exact attended
  | tries => exact attended
  | settled held found =>
    rename_i now jitter session record entry
    rcases @settle_same S D V component group _ record entry now with
      ⟨prepares, stage, abandoned, _⟩
    have kept : (group.settle component record entry now).Attended :=
      attended.of_same prepares (congrArg Stage.task stage) abandoned
    rcases @afterAttempt_cases S D V component (group.settle component record entry now) session
      now jitter with ⟨rest, everything, _, ended⟩ | ended | ⟨waiting, resumed⟩
    · rw [ended]
      exact kept
    · rw [ended]
      exact kept
    · have unlocked : ({ group.settle component record entry now with
          session := none } : Group S D V).Attended := kept
      exact unlocked.resumed (free_of_waiting waiting) resumed
  | released => exact attended

variable {entry : Retiring V} {record : ℕ}

theorem Orderly.tried (orderly : group.Orderly)
    (found : group.records[record]? = some entry) (queued : record ∈ group.retiring) :
    (group.setRecord record { entry with task := some (entry.task.getD .running) }).Orderly := by
  refine orderly.setRecord found queued ?_ ?_
  · rfl
  cases task : entry.task <;> simp

theorem queued_of_discards {now jitter : ℚ} {after : Next D}
    (own : takesItsOwn component group (.beginDiscard now jitter))
    (stage : group.stage = .discarding record after)
    (queued : group.isQueued component record = true) : record ∈ group.retiring := by
  rcases own record after stage with inside | absent
  · exact inside
  · rcases List.any_eq_true.mp queued with ⟨other, there, equal⟩
    exact absurd equal (absent other there)

theorem Orderly.outcome (orderly : group.Orderly) (inSession : group.InSession)
    (own : takesItsOwn component group event)
    (outcome : Outcome component group event next) : next.Orderly := by
  cases outcome with
  | submitted | waits | returned | failed | failedLate | interrupted | sweeps | lets | skips =>
    exact ⟨orderly.distinct, orderly.known, orderly.calls, orderly.succeeded⟩
  | resumed _ resumed => exact resumed.orderly orderly
  | gaveUp _ resumed =>
    exact resumed.orderly ⟨orderly.distinct, orderly.known, orderly.calls, orderly.succeeded⟩
  | @discarded _ task view next waited found =>
    have taken : (group.take task).Orderly :=
      ⟨orderly.distinct, orderly.known, orderly.calls, orderly.succeeded⟩
    have queued := taken.queue view .discard
    exact ⟨queued.distinct, queued.known, queued.calls, queued.succeeded⟩
  | @published _ _ _ task _ target _ targeted view stage found _ _ =>
    have taken : (((group.take task).publish view targeted target.version).clearBackoff).Orderly :=
      ⟨orderly.distinct, orderly.known, orderly.calls, orderly.succeeded⟩
    have queued := taken.queue group.published.view .retire
    exact ⟨queued.distinct, queued.known, queued.calls, queued.succeeded⟩
  | @cameLate task view abandoned found =>
    have taken : ({ group with
        abandoned := group.abandoned.filter fun other => other ≠ task }.take task).Orderly :=
      ⟨orderly.distinct, orderly.known, orderly.calls, orderly.succeeded⟩
    exact taken.queue view .discard
  | @discards now jitter record next entry stage queued found =>
    have tried := orderly.tried found (queued_of_discards own stage queued)
    exact ⟨tried.distinct, tried.known, tried.calls, tried.succeeded⟩
  | @tries now record rest everything entry session found =>
    have inside := ((inSession _ _ session).rest (record :: rest) everything rfl).2 record (by simp)
    have tried := orderly.tried found inside.1
    exact ⟨tried.distinct, tried.known, tried.calls, tried.succeeded⟩
  | @settled now jitter session record entry held found =>
    have queued := ((inSession session _ held).queued record rfl).1
    have settled : (group.settle component record entry now).Orderly := by
      by_cases done : entry.task = some (.done true)
      · rcases List.append_of_mem queued with ⟨before, after, split⟩
        rw [settle_released found now done split
          (own session record entry before after held found done split)]
        exact orderly.afterRelease found done split
      · rcases @settle_kept S D V component group _ record entry now done with
          ⟨changed, view, notDone, kept⟩
        rw [kept]
        exact orderly.setRecord found queued view (iff_of_false notDone done)
    rcases @afterAttempt_cases S D V component (group.settle component record entry now) session
      now jitter with ⟨rest, everything, _, ended⟩ | ended | ⟨_, resumed⟩
    · rw [ended]
      exact ⟨settled.distinct, settled.known, settled.calls, settled.succeeded⟩
    · rw [ended]
      exact ⟨settled.distinct, settled.known, settled.calls, settled.succeeded⟩
    · exact resumed.orderly ⟨settled.distinct, settled.known, settled.calls, settled.succeeded⟩
  | @released record ok entry found running =>
    have queued : record ∈ group.retiring := by
      by_contra absent
      have idle := orderly.calls record entry found absent
      rw [running] at idle
      contradiction
    refine ⟨orderly.distinct, ?_, ?_, ?_⟩
    · intro place inside
      change place < (group.records.set record _).length
      rw [List.length_set]
      exact orderly.known place inside
    · exact fun _ _ there absent => calls_setRecord _ orderly found queued there absent
    · intro other
      have counted := countP_hasReleased_setRecord { entry with
        task := some (.done ok)
        retryAt := if group.isQueued component record then 0 else entry.retryAt } orderly found
        other queued
      have earlier := orderly.succeeded other
      simp only [running, reduceCtorEq, and_false, if_false, Nat.add_zero, Option.some.injEq,
        ReleaseTask.done.injEq] at counted
      change (if ok = true then group.succeeded ++ [entry.view] else group.succeeded).count other =
        group.released.count other + group.retiring.countP ((group.setRecord record { entry with
          task := some (.done ok)
          retryAt := if group.isQueued component record then 0 else entry.retryAt }).hasReleased
            other)
      cases ok with
      | true =>
        simp only [and_true] at counted
        rw [if_pos rfl, List.count_append, List.count_singleton]
        simp only [beq_iff_eq]
        omega
      | false =>
        simp only [Bool.false_eq_true, and_false, if_false, Nat.add_zero] at counted ⊢
        omega

theorem mem_settle_retiring {record place : ℕ} {now : ℚ}
    (found : group.records[record]? = some entry) (queued : record ∈ group.retiring)
    (own : ∀ before after, entry.task = some (.done true) →
      group.retiring = before ++ record :: after → ∀ other ∈ before,
        ¬ (group.setRecord record { entry with task := none }).isEqualTo component record other)
    (inside : place ∈ group.retiring) (different : record ≠ place) :
    place ∈ (group.settle component record entry now).retiring := by
  by_cases done : entry.task = some (.done true)
  · rcases List.append_of_mem queued with ⟨before, after, split⟩
    rw [settle_released found now done split (own before after done split)]
    rw [split, List.mem_append, List.mem_cons] at inside
    rcases inside with inside | rfl | inside
    · simp [inside]
    · exact absurd rfl different
    · simp [inside]
  · rcases @settle_kept S D V component group _ record entry now done with ⟨changed, _, _, kept⟩
    rw [kept]
    exact inside

theorem InSession.outcome (inSession : group.InSession) (orderly : group.Orderly)
    (own : takesItsOwn component group event)
    (outcome : Outcome component group event next) : next.InSession := by
  cases outcome with
  | submitted | waits | returned | failed | failedLate =>
    exact inSession.of_same rfl rfl rfl
  | resumed _ resumed => exact resumed.inSession inSession
  | gaveUp _ resumed => exact resumed.inSession (inSession.of_same rfl rfl rfl)
  | @discarded _ task view next waited found =>
    have taken : (group.take task).InSession := inSession.of_same rfl rfl rfl
    exact (taken.queue view .discard).of_same rfl rfl rfl
  | @published _ _ _ task _ target _ targeted view stage found _ _ =>
    have taken :
        (((group.take task).publish view targeted target.version).clearBackoff).InSession :=
      inSession.of_same rfl rfl rfl
    exact (taken.queue group.published.view .retire).of_same rfl rfl rfl
  | @cameLate task view abandoned found =>
    have taken : ({ group with
        abandoned := group.abandoned.filter fun other => other ≠ task }.take task).InSession :=
      inSession.of_same rfl rfl rfl
    exact taken.queue view .discard
  | interrupted =>
    intro session current held
    split_ifs at held
    exact (inSession session current held).of_same rfl rfl
  | sweeps =>
    intro session current held
    cases held
    refine ⟨by simp, ?_, by simp⟩
    rintro rest everything ⟨⟩
    exact ⟨orderly.distinct, fun record inside => ⟨inside, by simp⟩⟩
  | lets =>
    intro session current held
    contradiction
  | skips session =>
    intro session' current held
    cases held
    have sweeping := inSession _ _ session
    refine ⟨by simp, ?_, by simp⟩
    rintro rest everything ⟨⟩
    rcases sweeping.rest _ _ rfl with ⟨distinct, inside⟩
    exact ⟨(List.nodup_cons.mp distinct).2, fun record member =>
      ⟨(inside record (List.mem_cons_of_mem _ member)).1, by simp⟩⟩
  | @discards now jitter record next entry stage queued found =>
    intro session current held
    cases held
    have inside := queued_of_discards own stage queued
    exact (Sweeping.tried found inside (by simp)).of_same rfl rfl
  | @tries now record rest everything entry session found =>
    intro session' current held
    cases held
    rcases (inSession _ _ session).rest _ _ rfl with ⟨distinct, inside⟩
    refine Sweeping.of_same (Sweeping.tried found (inside record (by simp)).1 ?_) rfl rfl
    rintro rest everything ⟨⟩
    refine ⟨(List.nodup_cons.mp distinct).2, ?_⟩
    intro other member
    refine ⟨(inside other (List.mem_cons_of_mem _ member)).1, ?_⟩
    rintro rfl
    exact (List.nodup_cons.mp distinct).1 member
  | @settled now jitter session record entry held found =>
    have sweeping := inSession session _ held
    have queued := (sweeping.queued record rfl).1
    rcases @afterAttempt_cases S D V component (group.settle component record entry now) session
      now jitter with ⟨rest, everything, rfl, ended⟩ | ended | ⟨_, resumed⟩
    · rw [ended]
      intro session' current held'
      obtain ⟨rfl, rfl⟩ := Prod.mk.inj (Option.some.inj held')
      refine ⟨by simp, ?_, by simp⟩
      rintro rest everything ⟨⟩
      rcases sweeping.rest _ _ rfl with ⟨distinct, inside⟩
      refine ⟨distinct, ?_⟩
      intro other member
      refine ⟨mem_settle_retiring found queued ?_ (inside other member).1 ?_, by simp⟩
      · exact fun before after done split => own _ record entry before after held found done split
      · simpa using (inside other member).2
    · rw [ended]
      intro session' current held'
      contradiction
    · apply resumed.inSession
      intro session' current held'
      contradiction
  | @released record ok entry found running =>
    intro session current held
    exact ((inSession session current held).setRecord found (by simp)).of_same rfl rfl

theorem Counted.of_places (counted : group.Counted) (views : next.views = group.views)
    (places : ∀ view, next.places view = group.places view) : next.Counted where
  distinct := views ▸ counted.distinct
  counted view := by
    rw [places view, views]
    exact counted.counted view

theorem Counted.setRecord (counted : group.Counted) (changed : Retiring V)
    (found : group.records[record]? = some entry) (view : changed.view = entry.view) :
    (group.setRecord record changed).Counted := by
  refine counted.of_places ?_ ?_
  · rfl
  intro other
  have same := holds_setRecord changed found view other
  change _ + _ + group.retiring.countP _ + _ = _
  rw [same]
  rfl

theorem places_returned {task : ℕ} {view other : V}
    (running : group.prepares[task]? = some .running) :
    ({ group with
      prepares := group.prepares.set task (.returned view)
      views := group.views ++ [view] } : Group S D V).places other =
      group.places other + if view = other then 1 else 0 := by
  have counted := countP_set_of_some (PrepareTask.hasReturned other) (.returned view) running
  simp only [PrepareTask.hasReturned_returned, PrepareTask.hasReturned_running,
    decide_eq_true_eq, Bool.false_eq_true, if_false, Nat.add_zero] at counted
  change (if group.published.view = other then 1 else 0) +
    (group.prepares.set task (.returned view)).countP (PrepareTask.hasReturned other) +
    group.retiring.countP (group.holds other) + group.released.count other = _
  unfold places
  omega

theorem Counted.outcome (counted : group.Counted) (orderly : group.Orderly)
    (inSession : group.InSession) (own : takesItsOwn component group event)
    (outcome : Outcome component group event next) : next.Counted := by
  cases outcome with
  | submitted | waits | failedLate | interrupted | sweeps | lets | skips =>
    exact counted.of_places rfl fun _ => rfl
  | resumed _ resumed => exact resumed.counted counted
  | gaveUp _ resumed => exact resumed.counted (counted.of_places rfl fun _ => rfl)
  | @returned task view running fresh =>
    refine ⟨?_, ?_⟩
    · change (group.views ++ [view]).Nodup
      rw [List.nodup_append]
      refine ⟨counted.distinct, by simp, ?_⟩
      intro known inside other last same
      rw [List.mem_singleton] at last
      exact fresh (last ▸ same ▸ inside)
    · intro other
      rw [places_returned running, counted.counted other, List.count_append, List.count_singleton]
      simp only [beq_iff_eq]
  | @failed task running =>
    refine counted.of_places ?_ ?_
    · rfl
    intro other
    have same := countP_set_of_some (PrepareTask.hasReturned other) .failed running
    simp only [PrepareTask.hasReturned_failed, PrepareTask.hasReturned_running,
      Bool.false_eq_true, if_false, Nat.add_zero] at same
    change _ + (group.prepares.set task .failed).countP _ + _ + _ = _
    rw [same]
    rfl
  | @discarded _ task view next waited found =>
    refine counted.of_places ?_ ?_
    · rfl
    intro other
    have taken : (group.take task).Orderly :=
      ⟨orderly.distinct, orderly.known, orderly.calls, orderly.succeeded⟩
    have away := places_take found other
    have queued := places_queue taken view other .discard
    change ((group.take task).queue view .discard).places other = _
    omega
  | @published _ _ _ task _ target _ targeted view stage found _ _ =>
    refine counted.of_places ?_ ?_
    · rfl
    intro other
    have taken : (((group.take task).publish view targeted target.version).clearBackoff).Orderly :=
      ⟨orderly.distinct, orderly.known, orderly.calls, orderly.succeeded⟩
    have away := places_take found other
    have published := @places_publish S D V _ (group.take task) view other targeted target.version
    have queued := places_queue taken group.published.view other .retire
    change ((((group.take task).publish view targeted target.version).clearBackoff).queue
      group.published.view .retire).places other = _
    rw [queued]
    change ((group.take task).publish view targeted target.version).places other + _ = _
    change _ + (if group.published.view = other then 1 else 0) = _ at published
    omega
  | @cameLate task view abandoned found =>
    refine counted.of_places ?_ ?_
    · rfl
    intro other
    have taken : ({ group with
        abandoned := group.abandoned.filter fun other => other ≠ task }.take task).Orderly :=
      ⟨orderly.distinct, orderly.known, orderly.calls, orderly.succeeded⟩
    have away := places_take found other
    rw [places_queue taken view other .discard, ← away]
    rfl
  | @discards _ _ _ _ entry _ _ found | @tries _ _ _ _ entry _ found =>
    exact Counted.of_places (counted.setRecord
      { entry with task := some (entry.task.getD .running) } found rfl) rfl fun _ => rfl
  | @settled now jitter session record entry held found =>
    have queued := ((inSession session _ held).queued record rfl).1
    have settled : (group.settle component record entry now).Counted := by
      by_cases done : entry.task = some (.done true)
      · rcases List.append_of_mem queued with ⟨before, after, split⟩
        rw [settle_released found now done split
          (own session record entry before after held found done split)]
        exact counted.afterRelease found split
      · rcases @settle_kept S D V component group _ record entry now done with
          ⟨changed, view, notDone, kept⟩
        rw [kept]
        exact counted.setRecord changed found view
    rcases @afterAttempt_cases S D V component (group.settle component record entry now) session
      now jitter with ⟨rest, everything, _, ended⟩ | ended | ⟨_, resumed⟩
    · rw [ended]
      exact Counted.of_places settled rfl fun _ => rfl
    · rw [ended]
      exact Counted.of_places settled rfl fun _ => rfl
    · exact resumed.counted (Counted.of_places settled rfl fun _ => rfl)
  | @released record ok entry found running =>
    exact Counted.of_places (counted.setRecord { entry with
      task := some (.done ok)
      retryAt := if group.isQueued component record then 0 else entry.retryAt } found rfl)
      rfl fun _ => rfl

end Outcomes

end HybridInference.Live.Group
