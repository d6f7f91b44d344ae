import HybridInference.Library.Dict
import Mathlib.Data.List.Induction

/-!
# Sliding windows

A queue of moments from whose front what is older than a window is dropped, and a
dictionary of such queues. As long as the moments do not
decrease, the queue counts all that was ever recorded in the window.
-/

namespace HybridInference.Library.SlidingWindow

universe u v

section Queue

variable {Moment : Type u} [LinearOrder Moment]

def since (kept : List Moment) (cutoff : Moment) : List Moment :=
  kept.dropWhile (· < cutoff)

def Trails (recorded kept : List Moment) (bound : Moment) : Prop :=
  ∃ dropped, recorded = dropped ++ kept ∧ ∀ moment ∈ dropped, moment < bound

variable {recorded kept : List Moment} {bound later cutoff moment : Moment}

theorem since_nil (cutoff : Moment) : since ([] : List Moment) cutoff = [] := rfl

theorem trails_nil (bound : Moment) : Trails [] [] bound :=
  ⟨[], rfl, by simp⟩

theorem Trails.mono (trails : Trails recorded kept bound) (le : bound ≤ later) :
    Trails recorded kept later := by
  rcases trails with ⟨dropped, split, old⟩
  exact ⟨dropped, split, fun moment member => lt_of_lt_of_le (old moment member) le⟩

theorem Trails.since (trails : Trails recorded kept bound) (le : bound ≤ cutoff) :
    Trails recorded (since kept cutoff) cutoff := by
  rcases trails with ⟨dropped, rfl, old⟩
  refine ⟨dropped ++ kept.takeWhile (· < cutoff), ?_, ?_⟩
  · rw [List.append_assoc, SlidingWindow.since, List.takeWhile_append_dropWhile]
  · intro moment member
    rcases List.mem_append.mp member with wasDropped | isDropped
    · exact lt_of_lt_of_le (old moment wasDropped) le
    · have young := List.all_eq_true.mp List.all_takeWhile moment isDropped
      simpa using young

theorem Trails.append (trails : Trails recorded kept bound) (moment : Moment) :
    Trails (recorded ++ [moment]) (kept ++ [moment]) bound := by
  rcases trails with ⟨dropped, rfl, old⟩
  exact ⟨dropped, by simp, old⟩

theorem length_since (sorted : kept.Pairwise (· ≤ ·)) :
    (since kept cutoff).length = kept.countP (cutoff ≤ ·) := by
  unfold since
  induction kept with
  | nil => rfl
  | cons first rest ih =>
    rw [List.pairwise_cons] at sorted
    by_cases old : first < cutoff
    · simp [old, not_le.mpr old, ih sorted.2]
    · have notOld : cutoff ≤ first := not_lt.mp old
      have all : rest.countP (cutoff ≤ ·) = rest.length := by
        rw [List.countP_eq_length]
        intro moment member
        simpa using notOld.trans (sorted.1 moment member)
      simp [old, notOld, all]

theorem Trails.length_since (trails : Trails recorded kept bound) (le : bound ≤ cutoff)
    (sorted : recorded.Pairwise (· ≤ ·)) :
    (SlidingWindow.since kept cutoff).length = recorded.countP (cutoff ≤ ·) := by
  rcases trails with ⟨dropped, rfl, old⟩
  rw [SlidingWindow.length_since (List.pairwise_append.mp sorted).2.1, List.countP_append]
  have none : dropped.countP (cutoff ≤ ·) = 0 := by
    rw [List.countP_eq_zero]
    intro moment member
    simpa using lt_of_lt_of_le (old moment member) le
  rw [none, Nat.zero_add]

end Queue

section Queues

variable {Key : Type u} {Moment : Type v} [DecidableEq Key]

def queue (queues : Dict Key (List Moment)) (key : Key) : List Moment :=
  (queues.find key).getD []

theorem queue_insert (queues : Dict Key (List Moment)) (key other : Key) (kept : List Moment) :
    queue (queues.insert key kept) other = if other = key then kept else queue queues other := by
  unfold queue
  rw [Dict.find_insert]
  split_ifs <;> rfl

variable [LinearOrder Moment]

def sweepKey (cutoff : Moment) (queues : Dict Key (List Moment)) (key : Key) :
    Dict Key (List Moment) :=
  let kept := since (queue queues key) cutoff
  if kept.isEmpty then queues.erase key else queues.insert key kept

def sweep (queues : Dict Key (List Moment)) (cutoff : Moment) : Dict Key (List Moment) :=
  queues.keys.foldl (sweepKey cutoff) queues

variable {cutoff : Moment}

theorem queue_sweepKey (queues : Dict Key (List Moment)) (key other : Key) :
    queue (sweepKey cutoff queues key) other =
      if other = key then since (queue queues key) cutoff else queue queues other := by
  unfold sweepKey
  by_cases empty : (since (queue queues key) cutoff).isEmpty
  · rw [if_pos empty]
    rw [List.isEmpty_iff] at empty
    rw [empty]
    unfold queue
    rw [Dict.find_erase]
    split_ifs <;> rfl
  · rw [if_neg empty]
    exact queue_insert queues key other _

theorem queue_sweep (queues : Dict Key (List Moment)) (key : Key) :
    queue (sweep queues cutoff) key = since (queue queues key) cutoff := by
  have swept (keys : List Key) (distinct : keys.Nodup) (queues : Dict Key (List Moment)) :
      queue (keys.foldl (sweepKey cutoff) queues) key =
        if key ∈ keys then since (queue queues key) cutoff else queue queues key := by
    induction keys generalizing queues with
    | nil => rfl
    | cons first rest ih =>
      rw [List.nodup_cons] at distinct
      rw [List.foldl_cons, ih distinct.2, queue_sweepKey]
      by_cases equal : key = first
      · subst equal
        simp [distinct.1]
      · simp [equal]
  unfold sweep
  rw [swept _ queues.keys_nodup]
  split_ifs with present
  · rfl
  · have absent : queues.find key = none := by
      cases found : queues.find key with
      | none => rfl
      | some _ => exact absurd (Dict.find_isSome_iff.mp (by simp [found])) present
    simp [queue, absent, since_nil]

end Queues

section Log

variable {Entry : Type*} {Key : Type u} {Moment : Type v} [DecidableEq Key] [LinearOrder Moment]

def Tracks (moment : Entry → Moment) (keyOf : Entry → Option Key)
    (queues : Dict Key (List Moment)) (log : List Entry) (bound : Moment) : Prop :=
  ∀ key, Trails ((log.filter fun entry => keyOf entry = some key).map moment) (queue queues key)
    bound

variable {moment : Entry → Moment} {keyOf : Entry → Option Key} {queues : Dict Key (List Moment)}
  {log : List Entry} {bound later cutoff : Moment} {entry : Entry} {key : Key}

theorem tracks_empty (bound : Moment) : Tracks moment keyOf (∅ : Dict Key (List Moment)) [] bound :=
  fun _ => trails_nil bound

section

variable (tracks : Tracks moment keyOf queues log bound)

include tracks

theorem Tracks.mono (le : bound ≤ later) :
    Tracks moment keyOf queues log later :=
  fun key => (tracks key).mono le

theorem Tracks.sweep (le : bound ≤ cutoff) :
    Tracks moment keyOf (sweep queues cutoff) log cutoff := by
  intro key
  rw [queue_sweep]
  exact (tracks key).since le

theorem Tracks.cut (le : bound ≤ cutoff) :
    Tracks moment keyOf (queues.insert key (since (queue queues key) cutoff)) log cutoff := by
  intro other
  rw [queue_insert]
  split_ifs with same
  · rw [same]
    exact (tracks key).since le
  · exact (tracks other).mono le

theorem Tracks.skip (keyless : keyOf entry = none) :
    Tracks moment keyOf queues (log ++ [entry]) bound := by
  intro key
  simpa [keyless] using tracks key

theorem Tracks.record (le : bound ≤ cutoff) (isKey : keyOf entry = some key) :
    Tracks moment keyOf (queues.insert key (since (queue queues key) cutoff ++ [moment entry]))
      (log ++ [entry]) cutoff := by
  intro other
  rw [queue_insert, List.filter_append, List.map_append]
  split_ifs with same
  · subst same
    simpa [isKey] using ((tracks other).since le).append (moment entry)
  · have different : key ≠ other := fun equal => same equal.symm
    simpa [isKey, different] using (tracks other).mono le

theorem Tracks.length_since (le : bound ≤ cutoff)
    (sorted : log.Pairwise fun earlier later => moment earlier ≤ moment later) :
    (since (queue queues key) cutoff).length =
      log.countP fun entry => keyOf entry = some key && cutoff ≤ moment entry := by
  have inOrder : ((log.filter fun entry => keyOf entry = some key).map moment).Pairwise
      (· ≤ ·) := by
    rw [List.pairwise_map]
    exact sorted.filter _
  rw [(tracks key).length_since le inOrder, List.countP_map, List.countP_filter]
  apply List.countP_congr
  intro entry _
  simp [and_comm]

end

end Log

section Limit

variable {Entry : Type u} {Moment : Type v} [AddCommGroup Moment] [LinearOrder Moment]
  [IsOrderedAddMonoid Moment]

theorem countP_window_le {moment : Entry → Moment} {counted recorded : Entry → Bool}
    {log : List Entry} {limit : ℕ} {length : Moment}
    (sorted : log.Pairwise fun earlier later => moment earlier ≤ moment later)
    (isRecorded : ∀ entry, counted entry = true → recorded entry = true)
    (room : ∀ earlier entry later, log = earlier ++ entry :: later → counted entry = true →
      earlier.countP (fun other => recorded other && moment entry - length ≤ moment other) <
        limit) (until_ : Moment) :
    log.countP (fun entry => counted entry && until_ - length ≤ moment entry &&
      moment entry ≤ until_) ≤ limit := by
  induction log using List.reverseRecOn with
  | nil => simp
  | append_singleton earlier last ih =>
    have before := ih (List.pairwise_append.mp sorted).1 (by
      intro first entry rest split isCounted
      exact room first entry (rest ++ [last]) (by rw [split]; simp) isCounted)
    rw [List.countP_append, List.countP_singleton]
    by_cases inside : (counted last && until_ - length ≤ moment last && moment last ≤ until_) = true
    · rw [if_pos inside]
      simp only [Bool.and_eq_true, decide_eq_true_eq] at inside
      have found := room earlier last [] rfl inside.1.1
      have fewer : earlier.countP (fun entry => counted entry &&
          until_ - length ≤ moment entry && moment entry ≤ until_) ≤
          earlier.countP fun other => recorded other && moment last - length ≤ moment other := by
        apply List.countP_mono_left
        intro entry _ within
        simp only [Bool.and_eq_true, decide_eq_true_eq] at within ⊢
        exact ⟨isRecorded entry within.1.1, (sub_le_sub_right inside.2 length).trans within.1.2⟩
      omega
    · rw [if_neg inside]
      exact before

end Limit

end HybridInference.Library.SlidingWindow
