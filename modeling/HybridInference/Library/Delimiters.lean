import Mathlib.Data.List.Infix

/-!
# Cutting at the first occurrence of a delimiter

What stands before and after the first occurrence of a pattern in a sequence, and how the search
goes on when a sequence arrives in pieces: an occurrence that was found stays the first one, and
when there is none it is enough to keep as much as the pattern is long.
-/

namespace HybridInference.Library.Delimiters

universe u

variable {Symbol : Type u} [DecidableEq Symbol]

def cut (pattern : List Symbol) : List Symbol → Option (List Symbol × List Symbol)
  | [] => if pattern = [] then some ([], []) else none
  | first :: rest =>
    if pattern.isPrefixOf (first :: rest) then some ([], (first :: rest).drop pattern.length)
    else (cut pattern rest).map fun parts => (first :: parts.1, parts.2)

variable {pattern text before after more : List Symbol}

theorem cut_eq_some (found : cut pattern text = some (before, after)) :
    text = before ++ (pattern ++ after) := by
  induction text generalizing before with
  | nil =>
    rw [cut] at found
    split_ifs at found with empty
    cases found
    simp [empty]
  | cons first rest ih =>
    rw [cut] at found
    split_ifs at found with here
    · cases found
      rcases List.isPrefixOf_iff_prefix.mp here with ⟨tail, whole⟩
      rw [← whole, List.drop_left, List.nil_append]
    · rcases Option.map_eq_some_iff.mp found with ⟨⟨front, back⟩, later, same⟩
      cases same
      rw [List.cons_append, ← ih later]

theorem cut_eq_none_iff : cut pattern text = none ↔ ¬pattern <:+: text := by
  induction text with
  | nil => simp [cut]
  | cons first rest ih =>
    rw [cut, List.infix_cons_iff, not_or, ← ih]
    split_ifs with here
    · simp [List.isPrefixOf_iff_prefix.mp here]
    · rw [List.isPrefixOf_iff_prefix] at here
      simp [here]

theorem length_of_cut (found : cut pattern text = some (before, after)) :
    text.length = before.length + (pattern.length + after.length) := by
  rw [cut_eq_some found, List.length_append, List.length_append]

theorem cut_append (found : cut pattern text = some (before, after)) (more : List Symbol) :
    cut pattern (text ++ more) = some (before, after ++ more) := by
  induction text generalizing before with
  | nil =>
    rw [cut] at found
    split_ifs at found with empty
    cases found
    subst empty
    cases more <;> simp [cut]
  | cons first rest ih =>
    rw [cut] at found
    rw [List.cons_append, cut]
    split_ifs at found with here
    · cases found
      have longer : pattern.isPrefixOf (first :: (rest ++ more)) = true := by
        rw [List.isPrefixOf_iff_prefix] at here ⊢
        exact here.trans (List.prefix_append (first :: rest) more)
      have le : pattern.length ≤ (first :: rest).length :=
        (List.isPrefixOf_iff_prefix.mp here).length_le
      rw [if_pos longer, ← List.cons_append, List.drop_append_of_le_length le]
    · rcases Option.map_eq_some_iff.mp found with ⟨⟨front, back⟩, later, same⟩
      cases same
      have notHere : ¬pattern.isPrefixOf (first :: (rest ++ more)) = true := by
        intro now
        apply here
        rw [List.isPrefixOf_iff_prefix] at now ⊢
        have fits : pattern.length ≤ (first :: rest).length := by
          have length := length_of_cut later
          rw [List.length_cons]
          omega
        rw [← List.cons_append] at now
        exact List.prefix_of_prefix_length_le now (List.prefix_append _ _) fits
      rw [if_neg notHere, ih later]
      rfl

/-- Input without the delimiter may be given up but for its last bytes. -/
theorem cut_of_kept {front kept : List Symbol} (none_ : cut pattern (front ++ kept) = none)
    (enough : pattern.length ≤ kept.length + 1) (more : List Symbol) :
    cut pattern (front ++ kept ++ more) =
      (cut pattern (kept ++ more)).map fun parts => (front ++ parts.1, parts.2) := by
  induction front with
  | nil =>
    rw [List.nil_append]
    cases cut pattern (kept ++ more) with
    | none => rfl
    | some parts => rfl
  | cons first rest ih =>
    rw [cut_eq_none_iff, List.cons_append, List.infix_cons_iff, not_or] at none_
    have notHere : ¬pattern.isPrefixOf (first :: (rest ++ kept ++ more)) = true := by
      intro here
      apply none_.1
      rw [List.isPrefixOf_iff_prefix] at here
      have fits : pattern.length ≤ (first :: (rest ++ kept)).length := by
        rw [List.length_cons, List.length_append]
        omega
      have whole : first :: (rest ++ kept) <+: first :: (rest ++ kept ++ more) := by
        rw [← List.cons_append]
        exact List.prefix_append _ _
      exact List.prefix_of_prefix_length_le here whole fits
    rw [List.cons_append, List.cons_append, cut, if_neg notHere,
      ih (cut_eq_none_iff.mpr none_.2), Option.map_map]
    rfl

theorem length_lt_of_cut_append (none_ : cut pattern text = none)
    (found : cut pattern (text ++ more) = some (before, after)) :
    text.length < before.length + pattern.length := by
  by_contra inside
  apply cut_eq_none_iff.mp none_
  have whole := cut_eq_some found
  rw [← List.append_assoc] at whole
  have front : before ++ pattern <+: text :=
    List.prefix_of_prefix_length_le ⟨after, whole.symm⟩ (List.prefix_append _ _)
      (by rw [List.length_append]; omega)
  exact (List.suffix_append before pattern).isInfix.trans front.isInfix

theorem cut_of_free (nonempty : pattern ≠ []) (free : ¬pattern <:+: before ++ pattern.dropLast)
    (after : List Symbol) : cut pattern (before ++ (pattern ++ after)) = some (before, after) := by
  induction before with
  | nil =>
    rw [List.nil_append]
    cases pattern with
    | nil => exact absurd rfl nonempty
    | cons first rest =>
      have here : (first :: rest).isPrefixOf (first :: rest ++ after) = true := by
        rw [List.isPrefixOf_iff_prefix]
        exact List.prefix_append _ _
      rw [List.cons_append] at here ⊢
      rw [cut, if_pos here, ← List.cons_append, List.drop_left]
  | cons first rest ih =>
    rw [List.cons_append, List.infix_cons_iff, not_or] at free
    have notHere : ¬pattern.isPrefixOf (first :: (rest ++ (pattern ++ after))) = true := by
      intro here
      apply free.1
      rw [List.isPrefixOf_iff_prefix] at here
      have fits : pattern.length ≤ (first :: (rest ++ pattern.dropLast)).length := by
        rw [List.length_cons, List.length_append, List.length_dropLast]
        omega
      have whole : first :: (rest ++ pattern.dropLast) <+:
          first :: (rest ++ (pattern ++ after)) := by
        rw [← List.cons_append, ← List.cons_append, List.prefix_append_right_inj]
        exact (List.dropLast_prefix pattern).trans (List.prefix_append _ _)
      exact List.prefix_of_prefix_length_le here whole fits
    rw [List.cons_append, cut, if_neg notHere, ih free.2]
    rfl

omit [DecidableEq Symbol] in
theorem not_infix_append_dropLast {first : Symbol} {rest : List Symbol}
    (distinct : first ∉ rest) (free : ¬first :: rest <:+: before) :
    ¬first :: rest <:+: before ++ (first :: rest).dropLast := by
  rintro ⟨front, back, whole⟩
  have lengths := congrArg List.length whole
  rw [List.append_assoc, List.append_eq_append_iff] at whole
  rcases whole with ⟨tail, inside, rest_⟩ | ⟨tail, -, rest_⟩
  · rw [List.append_eq_append_iff] at rest_
    rcases rest_ with ⟨later, inFront, -⟩ | ⟨later, straddles, last⟩
    · apply free
      rw [inside, inFront]
      exact ⟨front, later, by rw [List.append_assoc]⟩
    · cases later with
      | nil =>
        apply free
        rw [List.append_nil] at straddles
        exact ⟨front, [], by rw [straddles, inside, List.append_nil]⟩
      | cons symbol later =>
        cases tail with
        | nil =>
          rw [inside, List.append_nil] at lengths
          simp only [List.length_append, List.length_cons, List.length_dropLast] at lengths
          omega
        | cons head tail =>
          rw [List.cons_append, List.cons.injEq] at straddles
          have symbolFirst : symbol = first := by
            cases rest with
            | nil => exact absurd straddles.2.symm (by simp)
            | cons second rest =>
              rw [List.dropLast_cons_cons, List.cons_append, List.cons.injEq] at last
              exact last.1.symm
          apply distinct
          rw [straddles.2, symbolFirst]
          simp
  · have tooLong := congrArg List.length rest_
    simp only [List.length_append, List.length_cons, List.length_dropLast] at tooLong
    omega

omit [DecidableEq Symbol] in
theorem not_infix_dropLast (nonempty : pattern ≠ []) : ¬pattern <:+: pattern.dropLast := by
  intro inside
  have size := inside.length_le
  have some_ := List.length_pos_iff.mpr nonempty
  rw [List.length_dropLast] at size
  omega

omit [DecidableEq Symbol] in
theorem not_infix_append_cons {gap : Symbol} {front back : List Symbol} (nonempty : pattern ≠ [])
    (without : gap ∉ pattern) (inFront : ¬pattern <:+: front) (inBack : ¬pattern <:+: back) :
    ¬pattern <:+: front ++ gap :: back := by
  rintro ⟨left, right, whole⟩
  rw [List.append_assoc, List.append_eq_append_iff] at whole
  rcases whole with ⟨tail, split, rest⟩ | ⟨tail, -, rest⟩
  · rw [List.append_eq_append_iff] at rest
    rcases rest with ⟨later, inside, -⟩ | ⟨later, straddles, last⟩
    · apply inFront
      rw [split, inside]
      exact ⟨left, later, by rw [List.append_assoc]⟩
    · cases later with
      | nil =>
        apply inFront
        rw [split, ← List.append_nil tail, ← straddles]
        exact (List.suffix_append left pattern).isInfix
      | cons symbol later =>
        rw [List.cons_append, List.cons.injEq] at last
        apply without
        rw [straddles, last.1]
        simp
  · cases tail with
    | nil =>
      cases pattern with
      | nil => exact nonempty rfl
      | cons symbol others =>
        rw [List.nil_append, List.cons_append, List.cons.injEq] at rest
        exact without (rest.1 ▸ List.mem_cons_self)
    | cons symbol tail =>
      rw [List.cons_append, List.cons.injEq] at rest
      exact inBack ⟨tail, right, by rw [rest.2, List.append_assoc]⟩

end HybridInference.Library.Delimiters
