import HybridInference.Health.Registry
import Mathlib.Data.Finset.Card

/-!
# The order a request tries the rest of its route in

`FallbackOrder` of `routing.offload` is advanced lazily: what `next` hands out
depends on the failures recorded since the last call. The run below lets a
caller interleave the two in any way.
-/

namespace HybridInference.Routing

open Library
open Health

inductive OffloadReason where
  | queueWait
  | engineWait
  | lastResort
  deriving DecidableEq

def endedInGatewayQueue (exc : UpstreamException) : Bool :=
  exc.kind.isInstance .upstreamSaturated

def offloadReasonFor (exc : UpstreamException) : Option OffloadReason :=
  if endedInGatewayQueue exc then some .queueWait
  else if exc.kind.isInstance .engineWaitExpired then some .engineWait
  else none

def abandonedForOffload (exc : UpstreamException) : Bool :=
  exc.kind.isInstance .engineWaitExpired || exc.kind.isInstance .upstreamQueueWaitExpired

variable {Adapter : Type*} [DecidableEq Adapter]

structure FallbackOrder (Adapter : Type*) where
  ordinary : List Adapter
  offload : Option Adapter
  offloadNext : Option OffloadReason
  retries : List Adapter
  retried : List Adapter

namespace FallbackOrder

/-- `__init__`. Equality of adapters is identity of the objects. -/
def init (ordinary : List Adapter) (offload : Option Adapter) : FallbackOrder Adapter :=
  { ordinary := ordinary.filter fun adapter => offload ≠ some adapter
    offload := offload
    offloadNext := none
    retries := []
    retried := [] }

def offloadPending (order : FallbackOrder Adapter) : Option Adapter := order.offload

/-- The first half of `record_failure`: queue a route that was cut short. -/
def queueRetry (order : FallbackOrder Adapter) (exc : UpstreamException) :
    Option Adapter → FallbackOrder Adapter
  | none => order
  | some adapter =>
    if abandonedForOffload exc && !order.retried.contains adapter then
      { order with
        retried := order.retried ++ [adapter]
        retries := order.retries ++ [adapter] }
    else order

def recordFailure (order : FallbackOrder Adapter) (exc : UpstreamException)
    (adapter : Option Adapter) : FallbackOrder Adapter :=
  let order := order.queueRetry exc adapter
  match order.offload, offloadReasonFor exc with
  | some _, some reason => { order with offloadNext := some reason }
  | _, _ => order

/-- The last two branches of `next`. -/
def nextInOrder (order : FallbackOrder Adapter) :
    Option (Adapter × Option OffloadReason) × FallbackOrder Adapter :=
  match order.ordinary with
  | adapter :: rest => (some (adapter, none), { order with ordinary := rest })
  | [] =>
    match order.retries with
    | adapter :: rest => (some (adapter, none), { order with retries := rest })
    | [] => (none, order)

def next (order : FallbackOrder Adapter) :
    Option (Adapter × Option OffloadReason) × FallbackOrder Adapter :=
  match order.offload with
  | some adapter =>
    if order.offloadNext.isSome || order.ordinary.isEmpty then
      (some (adapter, some (order.offloadNext.getD .lastResort)),
        { order with offload := none, offloadNext := none })
    else order.nextInOrder
  | none => order.nextInOrder

omit [DecidableEq Adapter] in
theorem next_cases (order : FallbackOrder Adapter) : (∃ adapter, order.offload = some adapter ∧
      (order.offloadNext ≠ none ∨ order.ordinary = []) ∧
      order.next = (some (adapter, some (order.offloadNext.getD .lastResort)),
        { order with offload := none, offloadNext := none })) ∨
    (∃ adapter rest, (order.offload = none ∨ order.offloadNext = none) ∧
      order.ordinary = adapter :: rest ∧
      order.next = (some (adapter, none), { order with ordinary := rest })) ∨
    (∃ adapter rest, order.offload = none ∧ order.ordinary = [] ∧ order.retries = adapter :: rest ∧
      order.next = (some (adapter, none), { order with retries := rest })) ∨
    (order.offload = none ∧ order.ordinary = [] ∧ order.retries = [] ∧
      order.next = (none, order)) := by
  rcases order with ⟨ordinary, offload, offloadNext, retries, retried⟩
  cases offload with
  | some adapter =>
    cases offloadNext with
    | some reason => exact Or.inl ⟨adapter, rfl, by simp, by simp [next]⟩
    | none =>
      cases ordinary with
      | nil => exact Or.inl ⟨adapter, rfl, by simp, by simp [next]⟩
      | cons first rest =>
        exact Or.inr (Or.inl ⟨first, rest, by simp, rfl, by simp [next, nextInOrder]⟩)
  | none =>
    cases ordinary with
    | cons first rest =>
      exact Or.inr (Or.inl ⟨first, rest, by simp, rfl, by simp [next, nextInOrder]⟩)
    | nil =>
      cases retries with
      | cons first rest =>
        exact Or.inr (Or.inr (Or.inl ⟨first, rest, rfl, rfl, rfl, by simp [next, nextInOrder]⟩))
      | nil => exact Or.inr (Or.inr (Or.inr ⟨rfl, rfl, rfl, by simp [next, nextInOrder]⟩))

omit [DecidableEq Adapter] in
theorem exhausted_of_next {order : FallbackOrder Adapter} (none_left : order.next.1 = none) :
    order.ordinary = [] ∧ order.offload = none ∧ order.retries = [] := by
  rcases order.next_cases with ⟨adapter, -, -, handed⟩ | ⟨adapter, rest, -, -, handed⟩ |
    ⟨adapter, rest, -, -, -, handed⟩ | ⟨gone, empty, drained, -⟩
  · rw [handed] at none_left
    cases none_left
  · rw [handed] at none_left
    cases none_left
  · rw [handed] at none_left
    cases none_left
  · exact ⟨empty, gone, drained⟩

theorem recordFailure_frame (order : FallbackOrder Adapter) (exc : UpstreamException)
    (adapter : Option Adapter) :
    (order.recordFailure exc adapter).ordinary = order.ordinary ∧
      (order.recordFailure exc adapter).offload = order.offload ∧
      (order.recordFailure exc adapter).retries = (order.queueRetry exc adapter).retries ∧
      (order.recordFailure exc adapter).retried = (order.queueRetry exc adapter).retried := by
  have kept : (order.queueRetry exc adapter).ordinary = order.ordinary ∧
      (order.queueRetry exc adapter).offload = order.offload := by
    unfold queueRetry
    split
    · exact ⟨rfl, rfl⟩
    · split_ifs
      · exact ⟨rfl, rfl⟩
      · exact ⟨rfl, rfl⟩
  unfold recordFailure
  dsimp only
  split <;> exact ⟨kept.1, kept.2, rfl, rfl⟩

theorem recordFailure_offloadNext (order : FallbackOrder Adapter) (exc : UpstreamException)
    (adapter : Option Adapter) (pending : order.offload ≠ none) :
    (order.recordFailure exc adapter).offloadNext =
      (offloadReasonFor exc).or order.offloadNext := by
  have kept : (order.queueRetry exc adapter).offload = order.offload ∧
      (order.queueRetry exc adapter).offloadNext = order.offloadNext := by
    unfold queueRetry
    split
    · exact ⟨rfl, rfl⟩
    · split_ifs
      · exact ⟨rfl, rfl⟩
      · exact ⟨rfl, rfl⟩
  unfold recordFailure
  dsimp only
  rw [kept.1]
  cases offload : order.offload with
  | none => exact absurd offload pending
  | some _ =>
    cases offloadReasonFor exc with
    | none => simpa using kept.2
    | some reason => simp

end FallbackOrder

/-- One request's use of its order: the route of the attempt that may fail next,
and the history of hand-outs and recorded failures. -/
structure FallbackRun (Adapter : Type*) where
  order : FallbackOrder Adapter
  current : Option Adapter
  handedOut : List (Adapter × Option OffloadReason)
  recorded : List (Option Adapter × UpstreamException)

inductive FallbackEvent where
  | next
  | recordFailure (exc : UpstreamException)

namespace FallbackRun

def start (ordinary : List Adapter) (offload primary : Option Adapter) : FallbackRun Adapter :=
  { order := .init ordinary offload
    current := primary
    handedOut := []
    recorded := [] }

def step (run : FallbackRun Adapter) : FallbackEvent → FallbackRun Adapter
  | .next =>
    match run.order.next with
    | (some candidate, order) =>
      { run with
        order := order
        current := some candidate.1
        handedOut := run.handedOut ++ [candidate] }
    | (none, order) => { run with order := order }
  | .recordFailure exc =>
    { run with
      order := run.order.recordFailure exc run.current
      recorded := run.recorded ++ [(run.current, exc)] }

end FallbackRun

def fallbackMachine : Machine (FallbackRun Adapter) FallbackEvent where
  step run event := some (run.step event)

def inOrder (handedOut : List (Adapter × Option OffloadReason)) : List Adapter :=
  (handedOut.filter fun candidate => candidate.2.isNone).map Prod.fst

def offloaded (handedOut : List (Adapter × Option OffloadReason)) : List Adapter :=
  (handedOut.filter fun candidate => candidate.2.isSome).map Prod.fst

def cutShort (recorded : List (Option Adapter × UpstreamException)) : List Adapter :=
  (recorded.filter fun failure => abandonedForOffload failure.2).filterMap Prod.fst

def lastWait (recorded : List (Option Adapter × UpstreamException)) : Option OffloadReason :=
  (recorded.filterMap fun failure => offloadReasonFor failure.2).getLast?

/-- What the order holds, in terms of the history: `taken` are the ordinary
candidates handed out and `given` the retries. -/
structure HandsOut (ordinary : List Adapter) (offload primary : Option Adapter)
    (taken given : List Adapter) (run : FallbackRun Adapter) : Prop where
  ordinary_eq : (ordinary.filter fun adapter => offload ≠ some adapter) =
    taken ++ run.order.ordinary
  inOrder_eq : inOrder run.handedOut = taken ++ given
  retried_eq : run.order.retried = given ++ run.order.retries
  retried_nodup : run.order.retried.Nodup
  retried_iff : ∀ adapter, adapter ∈ run.order.retried ↔ adapter ∈ cutShort run.recorded
  given_last : given ≠ [] → run.order.ordinary = [] ∧ run.order.offload = none
  offload_once : (run.order.offload = offload ∧ offloaded run.handedOut = []) ∨
    (run.order.offload = none ∧ ∃ adapter, offload = some adapter ∧
      offloaded run.handedOut = [adapter])
  offloadNext_eq : run.order.offload ≠ none → run.order.offloadNext = lastWait run.recorded
  current_known : ∀ adapter, run.current = some adapter →
    primary = some adapter ∨ offload = some adapter ∨ adapter ∈ ordinary
  cutShort_known : ∀ adapter ∈ cutShort run.recorded,
    primary = some adapter ∨ offload = some adapter ∨ adapter ∈ ordinary

section History

variable {handedOut : List (Adapter × Option OffloadReason)} {adapter : Adapter}
  {recorded : List (Option Adapter × UpstreamException)} {exc : UpstreamException}

omit [DecidableEq Adapter] in
theorem inOrder_concat_none : inOrder (handedOut ++ [(adapter, none)]) =
    inOrder handedOut ++ [adapter] := by
  simp [inOrder]

omit [DecidableEq Adapter] in
theorem inOrder_concat_some (reason : OffloadReason) :
    inOrder (handedOut ++ [(adapter, some reason)]) = inOrder handedOut := by
  simp [inOrder]

omit [DecidableEq Adapter] in
theorem offloaded_concat_none :
    offloaded (handedOut ++ [(adapter, none)]) = offloaded handedOut := by
  simp [offloaded]

omit [DecidableEq Adapter] in
theorem offloaded_concat_some (reason : OffloadReason) :
    offloaded (handedOut ++ [(adapter, some reason)]) = offloaded handedOut ++ [adapter] := by
  simp [offloaded]

omit [DecidableEq Adapter] in
theorem length_eq_inOrder_add_offloaded :
    handedOut.length = (inOrder handedOut).length + (offloaded handedOut).length := by
  induction handedOut with
  | nil => rfl
  | cons candidate rest ih =>
    rcases candidate with ⟨adapter, _ | reason⟩
    all_goals
      simp_all [inOrder, offloaded]
      omega

omit [DecidableEq Adapter] in
theorem lastWait_concat (route : Option Adapter) :
    lastWait (recorded ++ [(route, exc)]) = (offloadReasonFor exc).or (lastWait recorded) := by
  cases reason : offloadReasonFor exc with
  | none => simp [lastWait, reason]
  | some found => simp [lastWait, reason]

omit [DecidableEq Adapter] in
theorem mem_cutShort_concat (route : Option Adapter) :
    adapter ∈ cutShort (recorded ++ [(route, exc)]) ↔
      adapter ∈ cutShort recorded ∨ abandonedForOffload exc = true ∧ route = some adapter := by
  cases abandoned : abandonedForOffload exc with
  | false => simp [cutShort, abandoned]
  | true =>
    have lone : adapter ∈ [(route, exc)].filterMap Prod.fst ↔ route = some adapter := by
      cases route <;> simp [eq_comm]
    simp only [cutShort, List.filter_append, List.filter_cons_of_pos, abandoned,
      List.filter_nil, List.filterMap_append, List.mem_append, lone, true_and]

end History

theorem FallbackOrder.queueRetry_spec (order : FallbackOrder Adapter) (exc : UpstreamException)
    (adapter : Option Adapter) :
    ∃ queued, (order.queueRetry exc adapter).retried = order.retried ++ queued ∧
      (order.queueRetry exc adapter).retries = order.retries ++ queued ∧
      (order.retried.Nodup → (order.retried ++ queued).Nodup) ∧
      ∀ route, route ∈ order.retried ++ queued ↔
        route ∈ order.retried ∨ abandonedForOffload exc = true ∧ adapter = some route := by
  cases adapter with
  | none => exact ⟨[], by simp [queueRetry], by simp [queueRetry], by simp, by simp⟩
  | some current =>
    by_cases fresh : abandonedForOffload exc = true ∧ current ∉ order.retried
    · refine ⟨[current], ?_, ?_, ?_, ?_⟩
      · simp [queueRetry, fresh.1, fresh.2]
      · simp [queueRetry, fresh.1, fresh.2]
      · intro nodup
        rw [← List.concat_eq_append]
        exact nodup.concat fresh.2
      · intro route
        simp [fresh.1, @eq_comm _ route]
    · have seen : abandonedForOffload exc = true → current ∈ order.retried := by
        intro abandoned
        by_contra outside
        exact fresh ⟨abandoned, outside⟩
      have skipped : order.queueRetry exc (some current) = order := by
        unfold queueRetry
        simp only [Bool.and_eq_true, Bool.not_eq_true', List.contains_eq_mem,
          decide_eq_false_iff_not, ite_eq_right_iff]
        intro queued
        exact absurd queued fresh
      refine ⟨[], by simp [skipped], by simp [skipped], by simp, ?_⟩
      intro route
      simp only [List.append_nil, Option.some.injEq, iff_self_or]
      rintro ⟨abandoned, rfl⟩
      exact seen abandoned

namespace HandsOut

variable {ordinary taken given : List Adapter} {offload primary : Option Adapter}
  {run : FallbackRun Adapter}

theorem initial (ordinary : List Adapter) (offload primary : Option Adapter) :
    HandsOut ordinary offload primary [] [] (.start ordinary offload primary) where
  ordinary_eq := rfl
  inOrder_eq := rfl
  retried_eq := rfl
  retried_nodup := List.nodup_nil
  retried_iff := by simp [FallbackRun.start, FallbackOrder.init, cutShort]
  given_last := by simp
  offload_once := Or.inl ⟨rfl, rfl⟩
  offloadNext_eq := fun _ => rfl
  current_known := fun _ primary_eq => Or.inl primary_eq
  cutShort_known := by simp [FallbackRun.start, cutShort]

section

variable (holds : HandsOut ordinary offload primary taken given run)

include holds

theorem recordFailure (exc : UpstreamException) :
    HandsOut ordinary offload primary taken given (run.step (.recordFailure exc)) := by
  rcases run.order.recordFailure_frame exc run.current with
    ⟨ordinaryEq, offloadEq, retriesEq, retriedEq⟩
  have known : ∀ adapter ∈ cutShort (run.recorded ++ [(run.current, exc)]),
      primary = some adapter ∨ offload = some adapter ∨ adapter ∈ ordinary := by
    intro adapter member
    rcases (mem_cutShort_concat run.current).mp member with before | ⟨-, isCurrent⟩
    · exact holds.cutShort_known adapter before
    · exact holds.current_known adapter isCurrent
  have wait : run.order.offload ≠ none → (run.order.recordFailure exc run.current).offloadNext =
        lastWait (run.recorded ++ [(run.current, exc)]) := by
    intro pending
    rw [run.order.recordFailure_offloadNext exc run.current pending, lastWait_concat,
      holds.offloadNext_eq pending]
  rcases run.order.queueRetry_spec exc run.current with
    ⟨queued, queuedRetried, queuedRetries, nodup, members⟩
  constructor
  · simpa only [FallbackRun.step, ordinaryEq] using holds.ordinary_eq
  · exact holds.inOrder_eq
  · simp only [FallbackRun.step, retriedEq, retriesEq, queuedRetried, queuedRetries,
      holds.retried_eq, List.append_assoc]
  · simpa only [FallbackRun.step, retriedEq, queuedRetried] using nodup holds.retried_nodup
  · intro adapter
    simp only [FallbackRun.step, retriedEq, queuedRetried]
    rw [members adapter, mem_cutShort_concat, holds.retried_iff adapter]
  · simpa only [FallbackRun.step, ordinaryEq, offloadEq] using holds.given_last
  · simpa only [FallbackRun.step, offloadEq] using holds.offload_once
  · simpa only [FallbackRun.step, offloadEq] using wait
  · exact holds.current_known
  · exact known

theorem mem_ordinary
    {adapter : Adapter} (held : adapter ∈ run.order.ordinary) : adapter ∈ ordinary := by
  have inside : adapter ∈ ordinary.filter fun adapter => offload ≠ some adapter := by
    rw [holds.ordinary_eq]
    exact List.mem_append_right taken held
  exact List.mem_of_mem_filter inside

theorem offload_pending {adapter : Adapter} (pending : run.order.offload = some adapter) :
    offload = some adapter ∧ offloaded run.handedOut = [] := by
  rcases holds.offload_once with ⟨same, unused⟩ | ⟨gone, -⟩
  · exact ⟨same ▸ pending, unused⟩
  · rw [gone] at pending
    cases pending

theorem next : ∃ taken given, HandsOut ordinary offload primary taken given (run.step .next) := by
  rcases run.order.next_cases with ⟨adapter, pending, due, handed⟩ |
    ⟨adapter, rest, calm, front, handed⟩ | ⟨adapter, rest, gone, empty, front, handed⟩ |
    ⟨gone, empty, drained, handed⟩
  · rcases holds.offload_pending pending with ⟨isOffload, unused⟩
    have unretried : given = [] := by
      by_contra some_given
      rw [(holds.given_last some_given).2] at pending
      cases pending
    refine ⟨taken, given, ?_⟩
    simp only [FallbackRun.step, handed]
    constructor
    · exact holds.ordinary_eq
    · rw [inOrder_concat_some, holds.inOrder_eq]
    · exact holds.retried_eq
    · exact holds.retried_nodup
    · exact holds.retried_iff
    · exact fun some_given => absurd unretried some_given
    · right
      exact ⟨rfl, adapter, isOffload, by rw [offloaded_concat_some, unused, List.nil_append]⟩
    · simp
    · intro other same
      cases same
      exact Or.inr (Or.inl isOffload)
    · exact holds.cutShort_known
  · have unretried : given = [] := by
      by_contra some_given
      rw [(holds.given_last some_given).1] at front
      cases front
    refine ⟨taken ++ [adapter], [], ?_⟩
    simp only [FallbackRun.step, handed]
    constructor
    · rw [holds.ordinary_eq, front]
      simp
    · rw [inOrder_concat_none, holds.inOrder_eq, unretried]
      simp
    · rw [holds.retried_eq, unretried]
    · exact holds.retried_nodup
    · exact holds.retried_iff
    · simp
    · simpa only [offloaded_concat_none] using holds.offload_once
    · exact holds.offloadNext_eq
    · intro other same
      cases same
      have held : adapter ∈ run.order.ordinary := by simp [front]
      exact Or.inr (Or.inr (holds.mem_ordinary held))
    · exact holds.cutShort_known
  · refine ⟨taken, given ++ [adapter], ?_⟩
    simp only [FallbackRun.step, handed]
    constructor
    · exact holds.ordinary_eq
    · rw [inOrder_concat_none, holds.inOrder_eq, List.append_assoc]
    · rw [holds.retried_eq, front]
      simp
    · exact holds.retried_nodup
    · exact holds.retried_iff
    · exact fun _ => ⟨empty, gone⟩
    · simpa only [offloaded_concat_none] using holds.offload_once
    · exact holds.offloadNext_eq
    · intro other same
      cases same
      have queued : adapter ∈ run.order.retried := by
        rw [holds.retried_eq, front]
        simp
      exact holds.cutShort_known adapter ((holds.retried_iff adapter).mp queued)
    · exact holds.cutShort_known
  · refine ⟨taken, given, ?_⟩
    simpa only [FallbackRun.step, handed] using holds

end

end HandsOut

def FollowsHistory (ordinary : List Adapter) (offload primary : Option Adapter)
    (run : FallbackRun Adapter) : Prop :=
  ∃ taken given, HandsOut ordinary offload primary taken given run

section Runs

variable {ordinary : List Adapter} {offload primary : Option Adapter} {run : FallbackRun Adapter}
  {events : List FallbackEvent}

theorem FollowsHistory.of_run
    (ran : fallbackMachine.run (.start ordinary offload primary) events = some run) :
    FollowsHistory ordinary offload primary run := by
  refine Machine.run_invariant ?_ ⟨[], [], .initial ordinary offload primary⟩ ran
  intro state event next invariant stepped
  rcases invariant with ⟨taken, given, holds⟩
  cases stepped
  cases event with
  | next => exact holds.next
  | recordFailure exc => exact ⟨taken, given, holds.recordFailure exc⟩

namespace HandsOut

variable {taken given : List Adapter}

section

variable (holds : HandsOut ordinary offload primary taken given run)

include holds

theorem taken_prefix : taken <+: ordinary.filter fun adapter => offload ≠ some adapter :=
  ⟨run.order.ordinary, holds.ordinary_eq.symm⟩

theorem taken_eq (empty : run.order.ordinary = []) :
    taken = ordinary.filter fun adapter => offload ≠ some adapter := by
  rw [holds.ordinary_eq, empty, List.append_nil]

theorem offloaded_eq
    (gone : run.order.offload = none) : offloaded run.handedOut = offload.toList := by
  rcases holds.offload_once with ⟨same, unused⟩ | ⟨-, adapter, isOffload, used⟩
  · rw [unused, ← same, gone]
    rfl
  · rw [used, isOffload]
    rfl

theorem pending_of_unused {adapter : Adapter} (isOffload : offload = some adapter)
    (unused : offloaded run.handedOut = []) : run.order.offload = some adapter := by
  rcases holds.offload_once with ⟨same, -⟩ | ⟨-, other, -, used⟩
  · exact same.trans isOffload
  · rw [unused] at used
    cases used

theorem given_length_le : given.length ≤ (cutShort run.recorded).toFinset.card := by
  have nodup : given.Nodup := (holds.retried_eq ▸ holds.retried_nodup).of_append_left
  rw [← List.toFinset_card_of_nodup nodup]
  apply Finset.card_le_card
  intro adapter member
  have queued : adapter ∈ run.order.retried := by
    rw [holds.retried_eq]
    exact List.mem_append_left _ (List.mem_toFinset.mp member)
  exact List.mem_toFinset.mpr ((holds.retried_iff adapter).mp queued)

theorem cutShort_card_le : (cutShort run.recorded).toFinset.card ≤ ordinary.length + 2 := by
  have inside : (cutShort run.recorded).toFinset ⊆
      (primary.toList ++ (offload.toList ++ ordinary)).toFinset := by
    intro adapter member
    have known := holds.cutShort_known adapter (List.mem_toFinset.mp member)
    simpa [eq_comm] using known
  have primaryLength : primary.toList.length ≤ 1 := by cases primary <;> simp
  have offloadLength : offload.toList.length ≤ 1 := by cases offload <;> simp
  calc (cutShort run.recorded).toFinset.card
      ≤ (primary.toList ++ (offload.toList ++ ordinary)).toFinset.card :=
        Finset.card_le_card inside
    _ ≤ (primary.toList ++ (offload.toList ++ ordinary)).length := List.toFinset_card_le _
    _ ≤ ordinary.length + 2 := by
        simp only [List.length_append]
        omega

theorem handedOut_length_le : run.handedOut.length ≤ ordinary.length + 1 + given.length := by
  have split : run.handedOut.length =
      (inOrder run.handedOut).length + (offloaded run.handedOut).length :=
    length_eq_inOrder_add_offloaded
  have takenLength := (holds.taken_prefix.length_le).trans (List.length_filter_le _ _)
  have once : (offloaded run.handedOut).length ≤ 1 := by
    rcases holds.offload_once with ⟨-, unused⟩ | ⟨-, adapter, -, used⟩
    · simp [unused]
    · simp [used]
  rw [holds.inOrder_eq, List.length_append] at split
  omega

end

end HandsOut

/-- In every run: ordinary candidates once each and in route order, the offload candidate with a
reason at most once, retries last, and the order is exhausted after all of them. -/
theorem fallback_order_handOuts
    (ran : fallbackMachine.run (.start ordinary offload primary) events = some run) :
    (∃ taken given, inOrder run.handedOut = taken ++ given ∧
      taken <+: (ordinary.filter fun adapter => offload ≠ some adapter) ∧
      given.Nodup ∧ (∀ adapter ∈ given, adapter ∈ cutShort run.recorded) ∧
      (given ≠ [] → taken = (ordinary.filter fun adapter => offload ≠ some adapter) ∧
        run.order.offloadPending = none) ∧
      (run.order.next.1 = none → taken = (ordinary.filter fun adapter => offload ≠ some adapter) ∧
        offloaded run.handedOut = offload.toList ∧
        ∀ adapter ∈ cutShort run.recorded, adapter ∈ given)) ∧
    (offloaded run.handedOut).length ≤ 1 ∧
    (∀ adapter ∈ offloaded run.handedOut, offload = some adapter) ∧
    (∀ adapter, offload = some adapter → offloaded run.handedOut = [] →
      (∀ reason, lastWait run.recorded = some reason →
        run.order.next.1 = some (adapter, some reason)) ∧
      (lastWait run.recorded = none → ∀ handed reason,
        run.order.next.1 = some (handed, some reason) → reason = .lastResort ∧
          inOrder run.handedOut = ordinary.filter fun adapter => offload ≠ some adapter)) ∧
    run.handedOut.length ≤ ordinary.length + 1 + (cutShort run.recorded).toFinset.card ∧
    run.handedOut.length ≤ 2 * ordinary.length + 3 := by
  rcases FollowsHistory.of_run ran with ⟨taken, given, holds⟩
  have givenCut : ∀ adapter ∈ given, adapter ∈ cutShort run.recorded := by
    intro adapter member
    have queued : adapter ∈ run.order.retried := by
      rw [holds.retried_eq]
      exact List.mem_append_left _ member
    exact (holds.retried_iff adapter).mp queued
  have bound := holds.handedOut_length_le
  have givenBound := holds.given_length_le
  have cutBound := holds.cutShort_card_le
  refine ⟨⟨taken, given, holds.inOrder_eq, holds.taken_prefix, ?_, givenCut, ?_, ?_⟩, ?_, ?_, ?_,
    by omega, by omega⟩
  · exact (holds.retried_eq ▸ holds.retried_nodup).of_append_left
  · intro some_given
    rcases holds.given_last some_given with ⟨empty, gone⟩
    exact ⟨holds.taken_eq empty, gone⟩
  · intro none_left
    rcases FallbackOrder.exhausted_of_next none_left with ⟨empty, gone, drained⟩
    refine ⟨holds.taken_eq empty, holds.offloaded_eq gone, ?_⟩
    intro adapter cut
    have queued := (holds.retried_iff adapter).mpr cut
    rwa [holds.retried_eq, drained, List.append_nil] at queued
  · rcases holds.offload_once with ⟨-, unused⟩ | ⟨-, adapter, -, used⟩
    · simp [unused]
    · simp [used]
  · intro adapter member
    rcases holds.offload_once with ⟨-, unused⟩ | ⟨-, other, isOffload, used⟩
    · simp [unused] at member
    · rw [used, List.mem_singleton] at member
      rw [member]
      exact isOffload
  · intro adapter isOffload unused
    have pending := holds.pending_of_unused isOffload unused
    have waiting := holds.offloadNext_eq (by simp [pending])
    constructor
    · intro reason waited
      simp [FallbackOrder.next, pending, waiting, waited]
    · intro calm handed reason isNext
      rw [calm] at waiting
      rcases run.order.next_cases with ⟨other, -, due, next⟩ | ⟨other, rest, -, -, next⟩ |
        ⟨other, rest, gone, -⟩ | ⟨gone, -⟩
      · rw [next, waiting] at isNext
        cases isNext
        have empty : run.order.ordinary = [] := by
          rcases due with waited | empty
          · exact absurd waiting waited
          · exact empty
        have unretried : given = [] := by
          by_contra some_given
          rw [(holds.given_last some_given).2] at pending
          cases pending
        refine ⟨rfl, ?_⟩
        rw [holds.inOrder_eq, unretried, List.append_nil]
        exact holds.taken_eq empty
      · rw [next] at isNext
        cases isNext
      · rw [gone] at pending
        cases pending
      · rw [gone] at pending
        cases pending

/-- The primary is cut short, the offload route and both others fail, and the
primary is handed out again at the end. -/
theorem fallback_order_handOuts_primary_retried :
    let events : List FallbackEvent :=
      [.recordFailure ⟨.engineWaitExpired, none, none, none, none, none⟩, .next,
        .recordFailure ⟨.other, some 500, none, none, none, none⟩, .next,
        .recordFailure ⟨.upstreamSaturated, none, none, none, none, none⟩, .next,
        .recordFailure ⟨.other, none, none, none, none, none⟩, .next, .next]
    ∃ run, fallbackMachine.run (.start [1, 2] (some 9) (some 0)) events = some run ∧
      run.handedOut = [(9, some .engineWait), (1, none), (2, none), (0, none)] ∧
      run.handedOut.length ≤ 2 * [1, 2].length + 3 := by
  intro events
  have ran : fallbackMachine.run (.start [1, 2] (some 9) (some 0)) events = some _ := rfl
  exact ⟨_, ran, by decide, (fallback_order_handOuts ran).2.2.2.2.2⟩

/-- A cut-short attempt of the offload route itself is retried like any other. -/
theorem offload_handed_out_again :
    ¬ ∀ (ordinary : List ℕ) (offload primary : Option ℕ) (events : List FallbackEvent)
      (run : FallbackRun ℕ),
      fallbackMachine.run (.start ordinary offload primary) events = some run →
      ∀ adapter, offload = some adapter →
        (run.handedOut.filter fun candidate => candidate.1 = adapter).length ≤ 1 := by
  intro claim
  have once := claim [] (some 9) (some 0)
    [.next, .recordFailure ⟨.engineWaitExpired, none, none, none, none, none⟩, .next] _ rfl 9 rfl
  revert once
  decide

end Runs

end HybridInference.Routing
