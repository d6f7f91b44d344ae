import HybridInference.Library.Tally
import Mathlib.Algebra.Order.Field.Rat

/-!
# Sums that know how many records they are made of

A table often keeps, for each of its keys, a sum over records together with the
number of records in it, and drops the entry when that number reaches zero.
The entry is then a function of the records alone.
-/

namespace HybridInference.Library

universe u

@[ext]
structure CountedSum where
  total : ℚ := 0
  count : ℤ := 0
  deriving DecidableEq

namespace CountedSum

variable {Record : Type u}

def of (chosen : Record → Bool) (amount : Record → ℚ) (records : List Record) : CountedSum where
  total := tally (fun record => if chosen record then amount record else 0) records
  count := tally (fun record => if chosen record then 1 else 0) records

def entry (sum : CountedSum) : Option CountedSum :=
  if sum.count ≤ 0 then none else some sum

def add (sum : CountedSum) (amount : ℚ) : CountedSum where
  total := sum.total + amount
  count := sum.count + 1

def remove (sum : CountedSum) (amount : ℚ) (number : ℤ) : CountedSum where
  total := sum.total - amount
  count := sum.count - number

theorem entry_remove (sum : CountedSum) (amount : ℚ) {number : ℤ} (nonneg : 0 ≤ number) :
    (sum.entry.bind fun entry => (entry.remove amount number).entry) =
      (sum.remove amount number).entry := by
  by_cases nothing : sum.count ≤ 0
  · have less : (sum.remove amount number).count ≤ 0 := by
      simp only [remove]
      omega
    rw [entry, entry, if_pos nothing, if_pos less, Option.bind_none]
  · rw [entry, if_neg nothing, Option.bind_some]

theorem entry_add {sum : CountedSum} (more : ℚ) (nonneg : 0 ≤ sum.count)
    (empty : sum.count ≤ 0 → sum = {}) :
    (sum.add more).entry = some ((sum.entry.getD {}).add more) := by
  have positive : ¬(sum.add more).count ≤ 0 := by
    simp only [add]
    omega
  unfold entry
  split_ifs with nothing
  · rw [empty nothing]
    rfl
  · rfl

section Of

variable {chosen : Record → Bool} {amount : Record → ℚ} {records : List Record}

theorem of_count_nonneg : 0 ≤ (of chosen amount records).count := by
  apply tally_nonneg
  intro record _
  split_ifs <;> omega

theorem of_eq_zero (nothing : (of chosen amount records).count ≤ 0) :
    of chosen amount records = {} := by
  induction records with
  | nil => rfl
  | cons record rest ih =>
    have restNonneg := @of_count_nonneg _ chosen amount rest
    simp only [of, tally_cons] at nothing ih restNonneg
    by_cases holds : chosen record = true
    · rw [if_pos holds] at nothing
      omega
    · have restNothing := ih (by simpa [holds] using nothing)
      simpa [of, holds] using restNothing

theorem getD_entry_of : (of chosen amount records).entry.getD {} = of chosen amount records := by
  unfold entry
  split_ifs with nothing
  · rw [of_eq_zero nothing]
    rfl
  · rfl

theorem of_append_chosen {record : Record} (isChosen : chosen record = true) :
    of chosen amount (records ++ [record]) = (of chosen amount records).add (amount record) := by
  simp [of, add, isChosen]

theorem of_append_other {record : Record} (other : chosen record = false) :
    of chosen amount (records ++ [record]) = of chosen amount records := by
  simp [of, other]

theorem of_set_chosen {index : ℕ} {old new : Record} (found : records[index]? = some old)
    (wasChosen : chosen old = true) (other : chosen new = false) :
    of chosen amount (records.set index new) =
      (of chosen amount records).remove (amount old) 1 := by
  have total := tally_set (fun record => if chosen record then amount record else 0) new found
  have count := tally_set (fun record => if chosen record then (1 : ℤ) else 0) new found
  simp only [wasChosen, other, if_true, Bool.false_eq_true, if_false, add_zero] at total count
  ext
  · simp only [of, remove, ← total, add_sub_cancel_right]
  · simp only [of, remove, ← count, add_sub_cancel_right]

theorem of_set_other {index : ℕ} {old new : Record} (found : records[index]? = some old)
    (before : chosen old = false) (after : chosen new = false) :
    of chosen amount (records.set index new) = of chosen amount records := by
  have total := tally_set (fun record => if chosen record then amount record else 0) new found
  have count := tally_set (fun record => if chosen record then (1 : ℤ) else 0) new found
  simp only [before, after, Bool.false_eq_true, if_false, add_zero] at total count
  simp only [of, total, count]

end Of

end CountedSum

end HybridInference.Library
