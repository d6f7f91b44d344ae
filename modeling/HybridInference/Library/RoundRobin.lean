import Mathlib.Order.Interval.Finset.Nat

/-!
# Numbers within a group, and taking turns

The records of each group are numbered in the order of a list. Serving the
records by their numbers gives every group its turn: as long as a group has a
record waiting, no other group is ahead of it by more than one.
-/

namespace HybridInference.Library

universe u v

variable {Record : Type u} {Group : Type v} [DecidableEq Group]

def sortBy {Key : Type*} [LinearOrder Key] (key : Record → Key) (records : List Record) :
    List Record :=
  records.insertionSort fun earlier later => key earlier ≤ key later

section Sorted

variable {Key : Type*} [LinearOrder Key] (key : Record → Key) (records : List Record)

theorem sortBy_perm : (sortBy key records).Perm records :=
  List.perm_insertionSort _ records

theorem sortBy_sorted :
    (sortBy key records).Pairwise fun earlier later => key earlier ≤ key later :=
  haveI : Std.Total fun earlier later : Record => key earlier ≤ key later :=
    ⟨fun earlier later => le_total (key earlier) (key later)⟩
  haveI : IsTrans Record fun earlier later => key earlier ≤ key later :=
    ⟨fun _ _ _ first second => first.trans second⟩
  List.pairwise_insertionSort _ records

end Sorted

variable (group : Record → Group)

/-- The numbers of the records after those of `seen`. -/
def rowNumbersAfter : List Record → List Record → List (Record × ℕ)
  | _, [] => []
  | seen, record :: rest =>
    (record, seen.countP (fun other => group other = group record) + 1) ::
      rowNumbersAfter (record :: seen) rest

def rowNumbers (records : List Record) : List (Record × ℕ) :=
  rowNumbersAfter group [] records

variable {group}

theorem map_fst_rowNumbersAfter (seen records : List Record) :
    (rowNumbersAfter group seen records).map Prod.fst = records := by
  induction records generalizing seen with
  | nil => rfl
  | cons record rest ih => simp [rowNumbersAfter, ih]

variable {entry : Record × ℕ}

theorem seen_lt_of_mem {seen records : List Record}
    (member : entry ∈ rowNumbersAfter group seen records) :
    seen.countP (fun other => group other = group entry.1) < entry.2 := by
  induction records generalizing seen with
  | nil => cases member
  | cons record rest ih =>
    rcases List.mem_cons.mp member with rfl | later
    · exact Nat.lt_succ_self _
    · have beyond := ih later
      rw [List.countP_cons] at beyond
      omega

theorem rowNumbersAfter_increasing (seen records : List Record) :
    (rowNumbersAfter group seen records).Pairwise fun earlier later =>
      group earlier.1 = group later.1 → earlier.2 < later.2 := by
  induction records generalizing seen with
  | nil => exact List.Pairwise.nil
  | cons record rest ih =>
    refine List.Pairwise.cons ?_ (ih (record :: seen))
    intro later member same
    have beyond := seen_lt_of_mem member
    simp only [List.countP_cons, same, decide_true, if_true] at beyond
    simp only [same]
    exact beyond

theorem rowNumbersAfter_contiguous {seen records : List Record}
    (member : entry ∈ rowNumbersAfter group seen records) :
    seen.countP (fun other => group other = group entry.1) +
      (rowNumbersAfter group seen records).countP (fun other =>
        group other.1 = group entry.1 ∧ other.2 < entry.2) + 1 = entry.2 := by
  induction records generalizing seen with
  | nil => cases member
  | cons record rest ih =>
    rw [rowNumbersAfter, List.countP_cons]
    rcases List.mem_cons.mp member with rfl | later
    · have none : (rowNumbersAfter group (record :: seen) rest).countP (fun other =>
          group other.1 = group record ∧
            other.2 < seen.countP (fun other => group other = group record) + 1) = 0 := by
        apply List.countP_eq_zero.mpr
        intro other otherMember
        have beyond := seen_lt_of_mem otherMember
        rw [List.countP_cons] at beyond
        simp only [decide_eq_true_eq, not_and, not_lt]
        intro same
        simp only [same, decide_true, if_true] at beyond
        omega
      dsimp only
      rw [none]
      simp
    · have numbered := ih later
      have beyond := seen_lt_of_mem later
      rw [List.countP_cons] at numbered beyond
      by_cases same : group record = group entry.1
      · simp only [same, decide_true, if_true] at numbered beyond ⊢
        simp only [true_and, beyond, decide_true, if_true]
        omega
      · simp only [same, decide_false, Bool.false_eq_true, if_false, false_and] at numbered ⊢
        omega

theorem map_fst_rowNumbers (records : List Record) :
    (rowNumbers group records).map Prod.fst = records :=
  map_fst_rowNumbersAfter [] records

theorem rowNumbers_increasing (records : List Record) :
    (rowNumbers group records).Pairwise fun earlier later =>
      group earlier.1 = group later.1 → earlier.2 < later.2 :=
  rowNumbersAfter_increasing [] records

theorem apart_of_perm_rowNumbers {records : List Record} {entries : List (Record × ℕ)}
    (perm : entries.Perm (rowNumbers group records)) :
    entries.Pairwise fun earlier later =>
      group earlier.1 = group later.1 → earlier.2 ≠ later.2 := by
  refine (perm.pairwise_iff ?_).mpr ((rowNumbers_increasing records).imp ?_)
  · intro earlier later differ same
    exact (differ same.symm).symm
  · intro earlier later less same
    exact (less same).ne

theorem rowNumbers_contiguous {records : List Record} (member : entry ∈ rowNumbers group records) :
    (rowNumbers group records).countP (fun other =>
      group other.1 = group entry.1 ∧ other.2 < entry.2) + 1 = entry.2 := by
  have numbered := rowNumbersAfter_contiguous member
  simp only [List.countP_nil, Nat.zero_add] at numbered
  exact numbered

theorem key_le_of_rowNumbers {Key : Type*} [Preorder Key] {key : Record → Key}
    {records : List Record} (sorted : records.Pairwise fun earlier later => key earlier ≤ key later)
    {first second : Record × ℕ} (firstMember : first ∈ rowNumbers group records)
    (secondMember : second ∈ rowNumbers group records) (same : group first.1 = group second.1)
    (le : first.2 ≤ second.2) : key first.1 ≤ key second.1 := by
  have ordered : (rowNumbers group records).Pairwise fun earlier later =>
      (group earlier.1 = group later.1 → earlier.2 < later.2) ∧ key earlier.1 ≤ key later.1 := by
    refine (rowNumbers_increasing records).and ?_
    have names : (rowNumbers group records).map Prod.fst = records := map_fst_rowNumbers records
    rw [← names] at sorted
    exact sorted.of_map Prod.fst fun _ _ le => le
  rcases List.mem_iff_getElem.mp firstMember with ⟨i, iInside, rfl⟩
  rcases List.mem_iff_getElem.mp secondMember with ⟨j, jInside, rfl⟩
  rcases Nat.lt_trichotomy i j with before | equal | after
  · exact (List.pairwise_iff_getElem.mp ordered i j iInside jInside before).2
  · subst equal
    exact le_rfl
  · have smaller := (List.pairwise_iff_getElem.mp ordered j i jInside iInside after).1 same.symm
    omega

section Turns

variable {served left : List Record} {number : Record → ℕ} {first second : Group}

omit [DecidableEq Group] in
theorem exists_smallest (waits : ∃ waiting ∈ left, group waiting = second) :
    ∃ waiting ∈ left, group waiting = second ∧
      ∀ other ∈ left, group other = second → number waiting ≤ number other := by
  rcases waits with ⟨waiting, member, itsGroup⟩
  induction hne : number waiting using Nat.strong_induction_on generalizing waiting with
  | _ size ih =>
    by_cases smaller : ∃ other ∈ left, group other = second ∧ number other < number waiting
    · rcases smaller with ⟨other, otherMember, otherGroup, less⟩
      exact ih (number other) (hne ▸ less) other otherMember otherGroup rfl
    · refine ⟨waiting, member, itsGroup, fun other otherMember otherGroup => ?_⟩
      exact not_lt.mp fun less => smaller ⟨other, otherMember, otherGroup, less⟩

theorem served_in_turn (group : Record → Group) (number : Record → ℕ)
    (inTurn : ∀ done ∈ served, ∀ waiting ∈ left, group done = first → group waiting = second →
      number done ≤ number waiting)
    (contiguous : ∀ waiting ∈ left, group waiting = second →
      (served ++ left).countP (fun other => group other = second ∧ number other < number waiting)
        + 1 = number waiting)
    (apart : served.Pairwise fun earlier later =>
      group earlier = group later → number earlier ≠ number later)
    (positive : ∀ done ∈ served, 0 < number done)
    (waits : ∃ waiting ∈ left, group waiting = second) :
    served.countP (fun record => group record = first) ≤
      served.countP (fun record => group record = second) + 1 := by
  rcases exists_smallest waits with ⟨waiting, member, itsGroup, smallest⟩
  have numbersOfSecond : number waiting ≤
      served.countP (fun record => group record = second) + 1 := by
    have noneLeft : left.countP (fun other =>
        group other = second ∧ number other < number waiting) = 0 := by
      apply List.countP_eq_zero.mpr
      intro other otherMember
      simp only [decide_eq_true_eq, not_and, not_lt]
      exact smallest other otherMember
    have numbered := contiguous waiting member itsGroup
    rw [List.countP_append, noneLeft] at numbered
    have fewer : served.countP (fun other => group other = second ∧ number other < number waiting) ≤
        served.countP (fun record => group record = second) := by
      apply List.countP_mono_left
      intro other _ holds
      simp only [decide_eq_true_eq] at holds ⊢
      exact holds.1
    omega
  have numbersOfFirst : served.countP (fun record => group record = first) ≤ number waiting := by
    let turns := (served.filter fun record => group record = first).map number
    have distinct : turns.Nodup := by
      apply List.pairwise_map.mpr
      refine (apart.filter _).imp_of_mem ?_
      intro earlier later earlierMember laterMember differ
      have earlierFirst : group earlier = first := by
        simpa using (List.mem_filter.mp earlierMember).2
      have laterFirst : group later = first := by
        simpa using (List.mem_filter.mp laterMember).2
      exact differ (earlierFirst.trans laterFirst.symm)
    have within : turns.toFinset ⊆ Finset.Icc 1 (number waiting) := by
      intro turn turnMember
      rcases List.mem_map.mp (List.mem_toFinset.mp turnMember) with ⟨done, doneMember, rfl⟩
      rcases List.mem_filter.mp doneMember with ⟨wasServed, isFirst⟩
      have le := inTurn done wasServed waiting member (by simpa using isFirst) itsGroup
      have pos := positive done wasServed
      exact Finset.mem_Icc.mpr ⟨pos, le⟩
    have card := Finset.card_le_card within
    rw [List.toFinset_card_of_nodup distinct, Nat.card_Icc, List.length_map,
      ← List.countP_eq_length_filter] at card
    omega
  exact numbersOfFirst.trans numbersOfSecond

end Turns

end HybridInference.Library
