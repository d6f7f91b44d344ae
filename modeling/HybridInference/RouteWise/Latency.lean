import Mathlib.Algebra.Order.Field.Basic
import Mathlib.Data.List.Induction
import Mathlib.Tactic.FieldSimp
import Mathlib.Tactic.Linarith
import Mathlib.Tactic.Ring

/-!
# The latency profile of an endpoint

`routing.routewise.latency`, in exact arithmetic. Counts and a sum follow the outcomes that are
kept, and what is old is dropped from the front only.
-/

namespace HybridInference.RouteWise.Latency

/-- One of `_events`. -/
structure Outcome where
  timestamp : ℚ
  ttftMs : ℚ
  errorType : Option String
  deriving DecidableEq

def Outcome.timed (outcome : Outcome) : Bool := outcome.errorType.isNone && 0 < outcome.ttftMs

structure ProviderProfile where
  windowSec : ℚ
  maxSamples : ℕ
  events : List Outcome := []
  successCount : ℤ := 0
  successSumMs : ℚ := 0
  errorCount : ℤ := 0

/-- `ProviderProfile(...)`, with `__post_init__`. -/
def create (windowSec : ℚ) (maxSamples : ℤ) : ProviderProfile :=
  { windowSec := windowSec, maxSamples := (max maxSamples 1).toNat }

namespace ProviderProfile

variable (profile : ProviderProfile)

def addToAggregates (event : Outcome) : ProviderProfile :=
  if event.errorType.isSome then { profile with errorCount := profile.errorCount + 1 }
  else if 0 < event.ttftMs then
    { profile with
      successCount := profile.successCount + 1
      successSumMs := profile.successSumMs + event.ttftMs }
  else profile

def removeFromAggregates (event : Outcome) : ProviderProfile :=
  let less :=
    if event.errorType.isSome then { profile with errorCount := profile.errorCount - 1 }
    else if 0 < event.ttftMs then
      { profile with
        successCount := profile.successCount - 1
        successSumMs := profile.successSumMs - event.ttftMs }
    else profile
  if less.successCount ≤ 0 then { less with successCount := 0, successSumMs := 0 } else less

/-- `record`; a full deque drops its oldest outcome. -/
def record (event : Outcome) : ProviderProfile :=
  match profile.events with
  | oldest :: rest =>
    if (oldest :: rest).length = profile.maxSamples then
      ({ profile.removeFromAggregates oldest with events := rest ++ [event] }).addToAggregates event
    else ({ profile with events := oldest :: rest ++ [event] }).addToAggregates event
  | [] => ({ profile with events := [event] }).addToAggregates event

/-- The loop of `_prune`. -/
def dropOld (cutoff : ℚ) (profile : ProviderProfile) : List Outcome → ProviderProfile
  | [] => { profile with events := [] }
  | oldest :: rest =>
    if oldest.timestamp < cutoff then dropOld cutoff (profile.removeFromAggregates oldest) rest
    else { profile with events := oldest :: rest }

def prune (now : ℚ) : ProviderProfile := dropOld (now - profile.windowSec) profile profile.events

section Answers

variable (now : ℚ)

def cdfAt (threshold : ℚ) : ℚ :=
  let left := profile.prune now
  if left.successCount = 0 then 0
  else
    let within := left.events.countP fun event =>
      event.errorType.isNone && 0 < event.ttftMs && event.ttftMs / 1000 ≤ threshold
    let rate := 1 - (left.errorCount : ℚ) / (left.successCount + left.errorCount : ℤ)
    rate * (within / (left.successCount : ℚ))

def meanWithErrorsSec (errorPenaltyMs : ℚ) : Option ℚ :=
  let left := profile.prune now
  if left.successCount + left.errorCount = 0 then none
  else some ((left.successSumMs + left.errorCount * errorPenaltyMs) /
    (left.successCount + left.errorCount : ℤ) / 1000)

/-- `mean_ttft_sec`; `none` is infinity. -/
def meanTtftSec : Option ℚ :=
  let left := profile.prune now
  if left.successCount = 0 then none else some (left.successSumMs / left.successCount / 1000)

def sampleCount : ℤ := (profile.prune now).successCount

def totalCount : ℤ := (profile.prune now).successCount + (profile.prune now).errorCount

def lastEventTime : Option ℚ := (profile.prune now).events.getLast?.map Outcome.timestamp

end Answers

end ProviderProfile

inductive Call where
  | record (event : Outcome)
  | query (now : ℚ)

def Call.apply (profile : ProviderProfile) : Call → ProviderProfile
  | .record event => profile.record event
  | .query now => profile.prune now

def Call.recorded : Call → Option Outcome
  | .record event => some event
  | .query _ => none

def Call.queried : Call → Option ℚ
  | .record _ => none
  | .query now => some now

def lastRecorded (count : ℕ) (events : List Outcome) : List Outcome :=
  events.drop (events.length - count)

section Scan

variable (events : List Outcome)

def timedCount : ℕ := events.countP Outcome.timed

def failedCount : ℕ := events.countP fun event => event.errorType.isSome

def timedSum : ℚ := ((events.filter Outcome.timed).map Outcome.ttftMs).sum

structure Summary where
  meanTtftSec : Option ℚ
  meanWithErrorsSec : ℚ → Option ℚ
  sampleCount : ℤ
  totalCount : ℤ
  cdfAt : ℚ → ℚ

def scan : Summary where
  meanTtftSec :=
    if timedCount events = 0 then none else some (timedSum events / timedCount events / 1000)
  meanWithErrorsSec penalty :=
    if timedCount events + failedCount events = 0 then none
    else some ((timedSum events + failedCount events * penalty) /
      (timedCount events + failedCount events : ℕ) / 1000)
  sampleCount := timedCount events
  totalCount := (timedCount events + failedCount events : ℕ)
  cdfAt threshold :=
    if timedCount events = 0 then 0
    else (events.countP fun event => event.timed && event.ttftMs / 1000 ≤ threshold : ℕ) /
      (timedCount events + failedCount events : ℕ)

end Scan

def ProviderProfile.summary (profile : ProviderProfile) (now : ℚ) : Summary where
  meanTtftSec := profile.meanTtftSec now
  meanWithErrorsSec := profile.meanWithErrorsSec now
  sampleCount := profile.sampleCount now
  totalCount := profile.totalCount now
  cdfAt threshold := profile.cdfAt now threshold

structure ProviderProfile.Counts (profile : ProviderProfile) (events : List Outcome) : Prop where
  successes : profile.successCount = timedCount events
  sum : profile.successSumMs = timedSum events
  errors : profile.errorCount = failedCount events

variable {profile : ProviderProfile} {event : Outcome} {events : List Outcome}

theorem counts_cons (event : Outcome) (events : List Outcome) :
    timedCount (event :: events) = timedCount events + (if event.timed then 1 else 0) ∧
      failedCount (event :: events) =
        failedCount events + (if event.errorType.isSome then 1 else 0) ∧
      timedSum (event :: events) = (if event.timed then event.ttftMs else 0) + timedSum events := by
  refine ⟨List.countP_cons, List.countP_cons, ?_⟩
  unfold timedSum
  by_cases timed : event.timed = true
  · rw [List.filter_cons_of_pos timed, List.map_cons, List.sum_cons, if_pos timed]
  · rw [List.filter_cons_of_neg timed, if_neg timed, zero_add]

theorem counts_append (first later : List Outcome) :
    timedCount (first ++ later) = timedCount first + timedCount later ∧
      failedCount (first ++ later) = failedCount first + failedCount later ∧
      timedSum (first ++ later) = timedSum first + timedSum later := by
  refine ⟨List.countP_append, List.countP_append, ?_⟩
  unfold timedSum
  rw [List.filter_append, List.map_append, List.sum_append]

theorem timed_iff : event.timed = true ↔ event.errorType.isSome = false ∧ 0 < event.ttftMs := by
  cases kind : event.errorType <;> simp [Outcome.timed, kind]

theorem timedSum_of_none (none_ : timedCount events = 0) : timedSum events = 0 := by
  have empty : events.filter Outcome.timed = [] := by
    rw [List.filter_eq_nil_iff]
    exact List.countP_eq_zero.mp none_
  rw [timedSum, empty]
  rfl

theorem ProviderProfile.Counts.add (counts : profile.Counts events) (event : Outcome)
    (others : List Outcome) :
    ({ profile with events := others }.addToAggregates event).Counts (events ++ [event]) ∧
      ({ profile with events := others }.addToAggregates event).events = others ∧
      ({ profile with events := others }.addToAggregates event).windowSec = profile.windowSec ∧
      ({ profile with events := others }.addToAggregates event).maxSamples =
        profile.maxSamples := by
  have one := counts_append events [event]
  have single := counts_cons event []
  have nothing : timedCount [] = 0 ∧ failedCount [] = 0 ∧ timedSum [] = 0 := ⟨rfl, rfl, rfl⟩
  rw [single.1, single.2.1, single.2.2, nothing.1, nothing.2.1, nothing.2.2] at one
  unfold ProviderProfile.addToAggregates
  split_ifs with failed timed
  · have untimed : ¬event.timed = true := fun isTimed =>
      absurd (failed.symm.trans (timed_iff.mp isTimed).1) (by decide)
    rw [if_neg untimed, if_neg untimed, if_pos failed] at one
    exact ⟨⟨by simp [one.1, counts.successes], by simp [one.2.2, counts.sum],
      by simp [one.2.1, counts.errors]⟩, rfl, rfl, rfl⟩
  · have isTimed : event.timed = true := timed_iff.mpr ⟨by simpa using failed, timed⟩
    rw [if_pos isTimed, if_pos isTimed, if_neg failed] at one
    exact ⟨⟨by simp [one.1, counts.successes], by simp [one.2.2, counts.sum],
      by simp [one.2.1, counts.errors]⟩, rfl, rfl, rfl⟩
  · have untimed : ¬event.timed = true := fun isTimed => timed (timed_iff.mp isTimed).2
    rw [if_neg untimed, if_neg untimed, if_neg failed] at one
    exact ⟨⟨by simp [one.1, counts.successes], by simp [one.2.2, counts.sum],
      by simp [one.2.1, counts.errors]⟩, rfl, rfl, rfl⟩

theorem ProviderProfile.Counts.remove (counts : profile.Counts (event :: events)) :
    (profile.removeFromAggregates event).Counts events ∧
      (profile.removeFromAggregates event).windowSec = profile.windowSec ∧
      (profile.removeFromAggregates event).maxSamples = profile.maxSamples := by
  have one := counts_cons event events
  have successes := counts.successes
  have sum := counts.sum
  have errors := counts.errors
  rw [one.1] at successes
  rw [one.2.2] at sum
  rw [one.2.1] at errors
  -- an empty count re-anchors a sum that is zero already
  have anchored (less : ProviderProfile) (counts : less.Counts events) :
      (if less.successCount ≤ 0 then { less with successCount := 0, successSumMs := 0 }
        else less : ProviderProfile).Counts events := by
    split_ifs with empty
    · have none_ : timedCount events = 0 := by
        have same := counts.successes
        omega
      exact ⟨by simp [none_], by simp [timedSum_of_none none_], counts.errors⟩
    · exact counts
  unfold ProviderProfile.removeFromAggregates
  refine ⟨anchored _ ?_, ?_, ?_⟩
  · split_ifs with failed timed
    · have untimed : ¬event.timed = true := fun isTimed =>
        absurd (failed.symm.trans (timed_iff.mp isTimed).1) (by decide)
      rw [if_neg untimed] at successes sum
      rw [if_pos failed] at errors
      exact ⟨by simpa using successes, by simpa using sum, by simp [errors]⟩
    · have isTimed : event.timed = true := timed_iff.mpr ⟨by simpa using failed, timed⟩
      rw [if_pos isTimed] at successes sum
      rw [if_neg failed] at errors
      exact ⟨by simp [successes], by simp [sum], by simpa using errors⟩
    · have untimed : ¬event.timed = true := fun isTimed => timed (timed_iff.mp isTimed).2
      rw [if_neg untimed] at successes sum
      rw [if_neg failed] at errors
      exact ⟨by simpa using successes, by simpa using sum, by simpa using errors⟩
  · dsimp only
    split_ifs <;> rfl
  · dsimp only
    split_ifs <;> rfl

theorem dropOld_spec (counts : profile.Counts events) (cutoff : ℚ) :
    (ProviderProfile.dropOld cutoff profile events).Counts
        (events.dropWhile fun event => event.timestamp < cutoff) ∧
      (ProviderProfile.dropOld cutoff profile events).events =
        events.dropWhile (fun event => event.timestamp < cutoff) ∧
      (ProviderProfile.dropOld cutoff profile events).windowSec = profile.windowSec ∧
      (ProviderProfile.dropOld cutoff profile events).maxSamples = profile.maxSamples := by
  induction events generalizing profile with
  | nil => exact ⟨⟨counts.successes, counts.sum, counts.errors⟩, rfl, rfl, rfl⟩
  | cons oldest rest ih =>
    rw [ProviderProfile.dropOld]
    by_cases old : oldest.timestamp < cutoff
    · rcases counts.remove with ⟨left, window, samples⟩
      rw [if_pos old, List.dropWhile_cons_of_pos (by simpa using old), ← window, ← samples]
      exact ih left
    · rw [if_neg old, List.dropWhile_cons_of_neg (by simpa using old)]
      exact ⟨⟨counts.successes, counts.sum, counts.errors⟩, rfl, rfl, rfl⟩

/-- The profile keeps the last outcomes recorded but some that a query found to be too old. -/
structure Follows (windowSec : ℚ) (maxSamples : ℕ) (calls : List Call)
    (profile : ProviderProfile) : Prop where
  window : profile.windowSec = windowSec
  samples : profile.maxSamples = maxSamples
  counts : profile.Counts profile.events
  kept : ∃ dropped, lastRecorded maxSamples (calls.filterMap Call.recorded) =
      dropped ++ profile.events ∧
    ∀ event ∈ dropped, ∃ now ∈ calls.filterMap Call.queried, event.timestamp < now - windowSec

theorem length_lastRecorded (count : ℕ) (events : List Outcome) :
    (lastRecorded count events).length = min count events.length := by
  rw [lastRecorded, List.length_drop]
  omega

theorem lastRecorded_concat {count : ℕ} (positive : 0 < count) (events : List Outcome)
    (event : Outcome) :
    lastRecorded count (events ++ [event]) =
      if events.length < count then lastRecorded count events ++ [event]
      else (lastRecorded count events).tail ++ [event] := by
  unfold lastRecorded
  rw [List.length_append, List.length_singleton, List.drop_append_of_le_length (by omega)]
  split_ifs with fewer
  · rw [Nat.sub_eq_zero_of_le (by omega), Nat.sub_eq_zero_of_le (by omega)]
  · rw [List.tail_drop]
    congr 2
    omega

variable {windowSec : ℚ} {maxSamples : ℕ} {calls : List Call}

theorem Follows.query (follows : Follows windowSec maxSamples calls profile) (now : ℚ) :
    Follows windowSec maxSamples (calls ++ [Call.query now]) (profile.prune now) := by
  rcases dropOld_spec follows.counts (now - profile.windowSec) with ⟨counts, left, window, samples⟩
  rcases follows.kept with ⟨dropped, split, old⟩
  refine ⟨window.trans follows.window, samples.trans follows.samples, ?_, ?_⟩
  · unfold ProviderProfile.prune
    rw [left]
    exact counts
  · have recorded : (calls ++ [Call.query now]).filterMap Call.recorded =
        calls.filterMap Call.recorded := by
      simp [Call.recorded]
    have queried : (calls ++ [Call.query now]).filterMap Call.queried =
        calls.filterMap Call.queried ++ [now] := by
      simp [Call.queried]
    refine ⟨dropped ++ profile.events.takeWhile
      (fun event => event.timestamp < now - profile.windowSec), ?_, ?_⟩
    · unfold ProviderProfile.prune
      rw [recorded, left, List.append_assoc, List.takeWhile_append_dropWhile]
      exact split
    · intro event inside
      rw [queried]
      rcases List.mem_append.mp inside with wasDropped | isDropped
      · rcases old event wasDropped with ⟨earlier, asked, stale⟩
        exact ⟨earlier, List.mem_append_left _ asked, stale⟩
      · have stale := List.all_eq_true.mp List.all_takeWhile event isDropped
        rw [follows.window] at stale
        exact ⟨now, by simp, by simpa using stale⟩

theorem Follows.record (follows : Follows windowSec maxSamples calls profile)
    (positive : 0 < maxSamples) (event : Outcome) :
    Follows windowSec maxSamples (calls ++ [Call.record event]) (profile.record event) := by
  rcases follows.kept with ⟨dropped, split, old⟩
  have recorded : (calls ++ [Call.record event]).filterMap Call.recorded =
      calls.filterMap Call.recorded ++ [event] := by
    simp [Call.recorded]
  have queried : (calls ++ [Call.record event]).filterMap Call.queried =
      calls.filterMap Call.queried := by
    simp [Call.queried]
  have lengths := congrArg List.length split
  rw [length_lastRecorded, List.length_append] at lengths
  have counts := follows.counts
  have samples := follows.samples
  have concat := lastRecorded_concat positive (calls.filterMap Call.recorded) event
  rw [split] at concat
  -- what goes in front is the oldest outcome kept, or one that was dropped already
  have front : ∀ kept : List Outcome, ∀ after : ProviderProfile, after.Counts (kept ++ [event]) →
      after.events = kept ++ [event] → after.windowSec = profile.windowSec →
      after.maxSamples = profile.maxSamples →
      (∃ gone, lastRecorded maxSamples (calls.filterMap Call.recorded ++ [event]) =
        gone ++ (kept ++ [event]) ∧ ∀ one ∈ gone, one ∈ dropped) →
      Follows windowSec maxSamples (calls ++ [Call.record event]) after := by
    intro kept after counted left window same ⟨gone, whole, inside⟩
    refine ⟨window.trans follows.window, same.trans follows.samples, left.symm ▸ counted,
      gone, ?_, ?_⟩
    · rw [recorded, left, whole]
    · rw [queried]
      exact fun one member => old one (inside one member)
  cases events : profile.events with
  | nil =>
    rw [events] at counts split lengths concat
    rcases counts.add event [event] with ⟨counted, left, window, same⟩
    unfold ProviderProfile.record
    rw [events]
    refine front [] _ counted left window same ?_
    split_ifs at concat with fewer
    · exact ⟨dropped, by rw [concat, List.append_nil]; rfl, fun one member => member⟩
    · exact ⟨dropped.tail, by rw [concat, List.append_nil]; rfl,
        fun one member => List.mem_of_mem_tail member⟩
  | cons oldest rest =>
    rw [events] at counts split lengths concat
    unfold ProviderProfile.record
    rw [events]
    dsimp only
    split_ifs with full
    · rcases counts.remove with ⟨removed, window, same⟩
      rcases removed.add event (rest ++ [event]) with ⟨counted, left, window', same'⟩
      refine front rest _ counted left (window'.trans window) (same'.trans same) ?_
      have none_ : dropped = [] := by
        rw [← List.length_eq_zero_iff]
        omega
      rw [none_, if_neg (by omega)] at concat
      exact ⟨[], by rw [concat]; rfl, by simp⟩
    · rcases counts.add event (oldest :: rest ++ [event]) with ⟨counted, left, window, same⟩
      refine front (oldest :: rest) _ counted left window same ?_
      split_ifs at concat with fewer
      · exact ⟨dropped, by rw [concat, List.append_assoc], fun one member => member⟩
      · cases dropped with
        | nil =>
          rw [List.length_nil] at lengths
          omega
        | cons first dropped =>
          exact ⟨dropped, by rw [concat]; simp, fun one member => List.mem_cons_of_mem _ member⟩

theorem follows_run (positive : 0 < maxSamples) (calls : List Call) :
    Follows windowSec maxSamples calls
      (calls.foldl Call.apply { windowSec := windowSec, maxSamples := maxSamples }) := by
  induction calls using List.reverseRecOn with
  | nil => exact ⟨rfl, rfl, ⟨rfl, rfl, rfl⟩, [], List.drop_nil, by simp⟩
  | append_singleton calls call ih =>
    rw [List.foldl_concat]
    cases call with
    | record event => exact ih.record positive event
    | query now => exact ih.query now

def InOrder (cutoff : ℚ) (events : List Outcome) : Prop :=
  events.Pairwise fun first second => cutoff ≤ first.timestamp → cutoff ≤ second.timestamp

def inWindow (cutoff : ℚ) (events : List Outcome) : List Outcome :=
  events.filter fun event => cutoff ≤ event.timestamp

theorem dropWhile_eq_inWindow_iff (cutoff : ℚ) (events : List Outcome) :
    events.dropWhile (fun event => event.timestamp < cutoff) = inWindow cutoff events ↔
      InOrder cutoff events := by
  unfold inWindow InOrder
  induction events with
  | nil => simp
  | cons first rest ih =>
    rw [List.pairwise_cons]
    by_cases old : first.timestamp < cutoff
    · rw [List.dropWhile_cons_of_pos (by simpa using old),
        List.filter_cons_of_neg (by simpa using old), ih]
      exact ⟨fun later => ⟨fun _ _ inside => absurd inside (not_le.mpr old), later⟩, And.right⟩
    · have inside : cutoff ≤ first.timestamp := not_lt.mp old
      rw [List.dropWhile_cons_of_neg (by simpa using old),
        List.filter_cons_of_pos (by simpa using inside), List.cons.injEq, eq_self, true_and,
        eq_comm, List.filter_eq_self]
      simp only [decide_eq_true_eq]
      refine ⟨fun all => ⟨fun event member _ => all event member, ?_⟩, ?_⟩
      · exact List.pairwise_of_forall_mem_list fun _ _ event member _ => all event member
      · exact fun both event member => both.1 event member inside

theorem summary_eq_scan (profile : ProviderProfile) (now : ℚ)
    (counts : (profile.prune now).Counts (profile.prune now).events) :
    profile.summary now = scan (profile.prune now).events := by
  unfold ProviderProfile.summary scan
  unfold ProviderProfile.meanTtftSec ProviderProfile.meanWithErrorsSec ProviderProfile.sampleCount
    ProviderProfile.totalCount ProviderProfile.cdfAt
  generalize profile.prune now = left at counts ⊢
  dsimp only
  rw [counts.successes, counts.sum, counts.errors]
  have zero_iff : ((timedCount left.events : ℤ) = 0) ↔ timedCount left.events = 0 :=
    Int.natCast_eq_zero
  simp only [zero_iff, Int.cast_natCast, Summary.mk.injEq, Nat.cast_add, true_and]
  refine ⟨?_, ?_⟩
  · funext penalty
    norm_cast
  · funext threshold
    split_ifs with none_
    · rfl
    · have positive : (0 : ℚ) < timedCount left.events := by
        exact_mod_cast Nat.pos_of_ne_zero none_
      have within : (left.events.countP fun event => event.errorType.isNone &&
          decide (0 < event.ttftMs) && decide (event.ttftMs / 1000 ≤ threshold)) =
          left.events.countP fun event => event.timed && event.ttftMs / 1000 ≤ threshold := rfl
      rw [within]
      push_cast
      field_simp
      ring

theorem scan_cdfAt (events : List Outcome) :
    (∀ threshold, 0 ≤ (scan events).cdfAt threshold ∧ (scan events).cdfAt threshold ≤ 1) ∧
      ∀ low high, low ≤ high → (scan events).cdfAt low ≤ (scan events).cdfAt high := by
  have total : (0 : ℚ) ≤ (timedCount events + failedCount events : ℕ) := Nat.cast_nonneg _
  unfold scan
  refine ⟨fun threshold => ?_, fun low high le => ?_⟩
  · dsimp only
    split_ifs with none_
    · exact ⟨le_rfl, zero_le_one⟩
    · refine ⟨div_nonneg (Nat.cast_nonneg _) total, div_le_one_of_le₀ ?_ total⟩
      have within : (events.countP fun event => event.timed && event.ttftMs / 1000 ≤ threshold) ≤
          timedCount events := by
        apply List.countP_mono_left
        intro event _ both
        exact (Bool.and_eq_true _ _ ▸ both).1
      exact_mod_cast within.trans (Nat.le_add_right _ _)
  · dsimp only
    split_ifs with none_
    · exact le_rfl
    · apply div_le_div_of_nonneg_right _ total
      have more : (events.countP fun event => event.timed && event.ttftMs / 1000 ≤ low) ≤
          events.countP fun event => event.timed && event.ttftMs / 1000 ≤ high := by
        apply List.countP_mono_left
        intro event _ both
        rw [Bool.and_eq_true, decide_eq_true_eq] at both ⊢
        exact ⟨both.1, both.2.trans le⟩
      exact_mod_cast more

/-- Of timely queries, a profile answers as a scan of its window does where no outcome older than
the window was recorded after one inside it. -/
theorem latency_profile_scans_its_window (windowSec : ℚ) (maxSamples : ℤ) (calls : List Call)
    (now : ℚ) (timely : (calls.filterMap Call.queried ++ [now]).Pairwise (· ≤ ·)) :
    let profile := calls.foldl Call.apply (create windowSec maxSamples)
    let last := lastRecorded (max maxSamples 1).toNat (calls.filterMap Call.recorded)
    let window := inWindow (now - windowSec) last
    (∀ threshold, 0 ≤ profile.cdfAt now threshold ∧ profile.cdfAt now threshold ≤ 1) ∧
    (∀ low high, low ≤ high → profile.cdfAt now low ≤ profile.cdfAt now high) ∧
    ((profile.prune now).events = window ↔ InOrder (now - windowSec) last) ∧
    (InOrder (now - windowSec) last → profile.summary now = scan window ∧
      ((∀ newest ∈ window.getLast?, ∀ event ∈ window, event.timestamp ≤ newest.timestamp) →
        profile.lastEventTime now = (window.map Outcome.timestamp).max?)) := by
  intro profile last window
  have positive : 0 < (max maxSamples 1).toNat := by omega
  have follows : Follows windowSec (max maxSamples 1).toNat calls profile :=
    follows_run positive calls
  rcases dropOld_spec follows.counts (now - profile.windowSec) with ⟨counts, left, -, -⟩
  rcases follows.kept with ⟨dropped, split, old⟩
  rw [← left] at counts
  have summary : profile.summary now = scan (profile.prune now).events :=
    summary_eq_scan profile now counts
  have kept : (profile.prune now).events =
      last.dropWhile fun event => event.timestamp < now - windowSec := by
    have stale : ∀ event ∈ dropped, (event.timestamp < now - windowSec : Bool) = true := by
      intro event inside
      rcases old event inside with ⟨earlier, asked, stale⟩
      have le := (List.pairwise_append.mp timely).2.2 earlier asked now (List.mem_singleton_self _)
      rw [decide_eq_true_eq]
      linarith
    change lastRecorded _ _ = _ at split
    unfold ProviderProfile.prune
    rw [left, follows.window, show last = dropped ++ profile.events from split,
      List.dropWhile_append_of_pos stale]
  have cdf (threshold : ℚ) : profile.cdfAt now threshold =
      (scan (profile.prune now).events).cdfAt threshold := by
    rw [← summary]
    rfl
  have shares := scan_cdfAt (profile.prune now).events
  refine ⟨fun threshold => ?_, fun low high le => ?_, ?_, fun inOrder => ?_⟩
  · rw [cdf]
    exact shares.1 threshold
  · rw [cdf, cdf]
    exact shares.2 low high le
  · rw [kept]
    exact dropWhile_eq_inWindow_iff _ _
  · have exactly : (profile.prune now).events = window :=
      kept.trans ((dropWhile_eq_inWindow_iff _ _).mpr inOrder)
    refine ⟨by rw [summary, exactly], fun newestLast => ?_⟩
    unfold ProviderProfile.lastEventTime
    rw [exactly]
    rcases List.eq_nil_or_concat window with none_ | ⟨others, newest, whole⟩
    · rw [none_]
      rfl
    · rw [List.concat_eq_append] at whole
      have isLast : window.getLast? = some newest := by
        rw [whole, List.getLast?_concat]
      rw [isLast, Option.map_some, eq_comm, List.max?_eq_some_iff]
      refine ⟨List.mem_map_of_mem (whole ▸ by simp), fun time inside => ?_⟩
      rcases List.mem_map.mp inside with ⟨event, member, rfl⟩
      exact newestLast newest isLast event member

theorem latency_profile_scans_its_window_after_expiry :
    let calls := [Call.record ⟨100, 300, none⟩, .query 150, .record ⟨1050, 200, none⟩]
    (calls.foldl Call.apply (create 900 5000)).summary 1100 = scan [⟨1050, 200, none⟩] := by
  intro calls
  have timely : (calls.filterMap Call.queried ++ [1100]).Pairwise (· ≤ ·) := by
    decide +kernel
  have inOrder : InOrder (1100 - 900)
      (lastRecorded (max (5000 : ℤ) 1).toNat (calls.filterMap Call.recorded)) := by
    unfold InOrder
    decide +kernel
  have window : inWindow (1100 - 900)
      (lastRecorded (max (5000 : ℤ) 1).toNat (calls.filterMap Call.recorded)) =
        [⟨1050, 200, none⟩] := by
    decide +kernel
  rw [← window]
  exact ((latency_profile_scans_its_window 900 5000 calls 1100 timely).2.2.2 inOrder).1

/-- A probe outcome of another worker, synchronised late, is counted after it has left the
window. -/
theorem late_outcome_counted_outside_window :
    let profile := [Call.record ⟨1000, 200, none⟩, .record ⟨50, 400, none⟩].foldl
      Call.apply (create 900 5000)
    profile.sampleCount 1001 ≠ (scan (inWindow (1001 - 900)
      (lastRecorded 5000 [⟨1000, 200, none⟩, ⟨50, 400, none⟩]))).sampleCount ∧
    profile.meanTtftSec 1001 ≠ (scan (inWindow (1001 - 900)
      (lastRecorded 5000 [⟨1000, 200, none⟩, ⟨50, 400, none⟩]))).meanTtftSec ∧
    profile.lastEventTime 1001 = some 50 := by
  decide +kernel

end HybridInference.RouteWise.Latency
