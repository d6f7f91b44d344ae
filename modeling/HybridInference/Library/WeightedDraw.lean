import Mathlib.MeasureTheory.Measure.Lebesgue.Basic

/-!
# A weighted draw

One uniform number of `[0, 1)` is scaled to the total of the weights and falls
into a bucket: a draw picks the first index whose running total reaches it, and
the last index when none does. With positive weights the chance of an index is
its share of the total.
-/

namespace HybridInference.Library

section Draw

variable {K : Type*} [Field K] [LinearOrder K]

def pickFrom (threshold : K) : K → List K → ℕ
  | _, [] => 0
  | _, [_] => 0
  | cumulative, weight :: next :: rest =>
    if threshold ≤ cumulative + max weight 0 then 0
    else pickFrom threshold (cumulative + max weight 0) (next :: rest) + 1

def totalWeight (weights : List K) : K :=
  (weights.map fun weight => max weight 0).sum

/-- The index that a number of `[0, 1)` draws. -/
def weightedPick (weights : List K) (draw : K) : ℕ :=
  if totalWeight weights ≤ 0 then weights.length - 1
  else pickFrom (draw * totalWeight weights) 0 weights

end Draw

section Buckets

variable {threshold cumulative : ℝ} {weights : List ℝ}

theorem totalWeight_of_pos (positive : ∀ weight ∈ weights, 0 < weight) :
    totalWeight weights = weights.sum := by
  unfold totalWeight
  congr 1
  conv_rhs => rw [← List.map_id weights]
  apply List.map_congr_left
  intro weight member
  exact max_eq_left (positive weight member).le

theorem pickFrom_of_inside (positive : ∀ weight ∈ weights, 0 < weight) {index : ℕ}
    (within : index < weights.length)
    (above : cumulative + (weights.take index).sum < threshold)
    (below : threshold < cumulative + (weights.take (index + 1)).sum) :
    pickFrom threshold cumulative weights = index := by
  induction weights generalizing cumulative index with
  | nil => simp at within
  | cons weight rest ih =>
    have first : 0 < weight := positive weight (by simp)
    have bucket : max weight 0 = weight := max_eq_left first.le
    cases rest with
    | nil =>
      have only : index = 0 := by
        simp only [List.length_cons, List.length_nil] at within
        omega
      rw [only]
      rfl
    | cons next rest =>
      rw [pickFrom, bucket]
      cases index with
      | zero =>
        simp only [zero_add, List.take_succ_cons, List.take_zero, List.sum_cons,
          List.sum_nil, add_zero] at below
        rw [if_pos below.le]
      | succ index =>
        simp only [List.take_succ_cons, List.sum_cons] at above below
        have later : 0 ≤ ((next :: rest).take index).sum := by
          apply List.sum_nonneg
          intro other member
          exact (positive other (List.mem_cons_of_mem _ (List.mem_of_mem_take member))).le
        rw [if_neg (by linarith)]
        congr 1
        apply ih
        · intro other member
          exact positive other (List.mem_cons_of_mem _ member)
        · simpa using within
        · simpa [add_assoc] using above
        · simpa [add_assoc] using below

theorem bounds_of_pickFrom (positive : ∀ weight ∈ weights, 0 < weight) (nonempty : weights ≠ [])
    (above : cumulative ≤ threshold) (below : threshold ≤ cumulative + weights.sum) :
    cumulative + (weights.take (pickFrom threshold cumulative weights)).sum ≤ threshold ∧
      threshold ≤ cumulative + (weights.take (pickFrom threshold cumulative weights + 1)).sum := by
  induction weights generalizing cumulative with
  | nil => exact absurd rfl nonempty
  | cons weight rest ih =>
    have first : 0 < weight := positive weight (by simp)
    have bucket : max weight 0 = weight := max_eq_left first.le
    cases rest with
    | nil =>
      simp only [pickFrom, List.take_zero, List.sum_nil, add_zero, zero_add,
        List.take_succ_cons, List.sum_cons] at below ⊢
      exact ⟨above, below⟩
    | cons next rest =>
      rw [pickFrom, bucket]
      by_cases here : threshold ≤ cumulative + weight
      · rw [if_pos here]
        simp only [List.take_zero, List.sum_nil, add_zero, zero_add, List.take_succ_cons,
          List.sum_cons]
        exact ⟨above, here⟩
      · rw [if_neg here]
        have rest_above : cumulative + weight ≤ threshold := by
          linarith
        have rest_below : threshold ≤ cumulative + weight + (next :: rest).sum := by
          simp only [List.sum_cons] at below ⊢
          linarith
        have inner := ih (fun other member => positive other (List.mem_cons_of_mem _ member))
          (by simp) rest_above rest_below
        simp only [List.take_succ_cons, List.sum_cons] at inner ⊢
        constructor
        · linarith [inner.1]
        · linarith [inner.2]

end Buckets

noncomputable def chance (weights : List ℝ) (index : ℕ) : ENNReal :=
  MeasureTheory.volume {draw : ℝ | 0 ≤ draw ∧ draw < 1 ∧ weightedPick weights draw = index}

section Chance

variable {weights : List ℝ}

theorem sum_take_le (positive : ∀ weight ∈ weights, 0 < weight) (count : ℕ) :
    (weights.take count).sum ≤ weights.sum := by
  conv_rhs => rw [← List.take_append_drop count weights]
  rw [List.sum_append]
  have rest : 0 ≤ (weights.drop count).sum := by
    apply List.sum_nonneg
    intro weight member
    exact (positive weight (List.mem_of_mem_drop member)).le
  linarith

theorem sum_take_nonneg (positive : ∀ weight ∈ weights, 0 < weight) (count : ℕ) :
    0 ≤ (weights.take count).sum := by
  apply List.sum_nonneg
  intro weight member
  exact (positive weight (List.mem_of_mem_take member)).le

theorem chance_eq_share (positive : ∀ weight ∈ weights, 0 < weight) {index : ℕ}
    (within : index < weights.length) :
    chance weights index = ENNReal.ofReal (weights[index] / weights.sum) := by
  have nonempty : weights ≠ [] := List.ne_nil_of_length_pos (by omega)
  have total : 0 < weights.sum := List.sum_pos weights positive nonempty
  have step : (weights.take (index + 1)).sum = (weights.take index).sum + weights[index] :=
    List.sum_take_succ weights index within
  have scaled (draw : ℝ) : weightedPick weights draw = pickFrom (draw * weights.sum) 0 weights := by
    unfold weightedPick
    rw [totalWeight_of_pos positive, if_neg (by linarith)]
  have width : (weights.take (index + 1)).sum / weights.sum -
      (weights.take index).sum / weights.sum = weights[index] / weights.sum := by
    rw [step]
    ring
  apply le_antisymm
  · calc chance weights index
        ≤ MeasureTheory.volume (Set.Icc ((weights.take index).sum / weights.sum)
            ((weights.take (index + 1)).sum / weights.sum)) := by
          apply MeasureTheory.measure_mono
          rintro draw ⟨low, high, picked⟩
          rw [scaled] at picked
          have bounds := bounds_of_pickFrom positive nonempty
            (mul_nonneg low total.le) (by nlinarith)
          rw [picked, zero_add, zero_add] at bounds
          exact ⟨(div_le_iff₀ total).mpr bounds.1, (le_div_iff₀ total).mpr bounds.2⟩
      _ = ENNReal.ofReal (weights[index] / weights.sum) := by
          rw [Real.volume_Icc, width]
  · calc ENNReal.ofReal (weights[index] / weights.sum)
        = MeasureTheory.volume (Set.Ioo ((weights.take index).sum / weights.sum)
            ((weights.take (index + 1)).sum / weights.sum)) := by
          rw [Real.volume_Ioo, width]
      _ ≤ chance weights index := by
          apply MeasureTheory.measure_mono
          rintro draw ⟨above, below⟩
          have low : 0 ≤ draw :=
            (div_nonneg (sum_take_nonneg positive index) total.le).trans above.le
          have high : draw < 1 := by
            apply below.trans_le
            rw [div_le_one total]
            exact sum_take_le positive (index + 1)
          refine ⟨low, high, ?_⟩
          rw [scaled]
          apply pickFrom_of_inside positive within
          · rw [zero_add]
            exact (div_lt_iff₀ total).mp above
          · rw [zero_add]
            exact (lt_div_iff₀ total).mp below

end Chance

end HybridInference.Library
