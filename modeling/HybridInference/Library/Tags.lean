import Mathlib.Data.List.Infix

/-!
# Text between tags

A tag starts with an angle bracket and holds no other, so a tag that starts inside a piece of
text and ends after it leaves no room for a tag that starts in between.
-/

namespace HybridInference.Library.Tags

/-- `text.find(pattern)`, of a pattern that is not empty. -/
def find (pattern : List Char) : List Char → Option ℕ
  | [] => none
  | c :: rest =>
    if pattern.isPrefixOf (c :: rest) then some 0 else (find pattern rest).map fun i => i + 1

theorem find_eq_none_iff {pattern text : List Char} (nonempty : pattern ≠ []) :
    find pattern text = none ↔ ¬pattern <:+: text := by
  induction text with
  | nil => simp [find, nonempty]
  | cons c rest ih =>
    rw [find, List.infix_cons_iff, not_or, ← ih]
    split_ifs with isPrefix
    · simp [List.isPrefixOf_iff_prefix.mp isPrefix]
    · rw [List.isPrefixOf_iff_prefix] at isPrefix
      simp [isPrefix]

theorem find_eq_some {pattern text : List Char} {i : ℕ} (nonempty : pattern ≠ [])
    (found : find pattern text = some i) :
    text = text.take i ++ (pattern ++ text.drop (i + pattern.length)) ∧
      ¬pattern <:+: text.take i := by
  induction text generalizing i with
  | nil => contradiction
  | cons c rest ih =>
    rw [find] at found
    split_ifs at found with isPrefix
    · cases found
      refine ⟨?_, by simpa using nonempty⟩
      rcases List.isPrefixOf_iff_prefix.mp isPrefix with ⟨after, whole⟩
      simp [← whole]
    · rcases Option.map_eq_some_iff.mp found with ⟨j, foundRest, rfl⟩
      rcases ih foundRest with ⟨split, free⟩
      constructor
      · have shift : j + 1 + pattern.length = (j + pattern.length) + 1 := by omega
        rw [shift, List.take_succ_cons, List.drop_succ_cons, List.cons_append]
        exact congrArg (List.cons c) split
      · rw [List.take_succ_cons, List.infix_cons_iff, not_or]
        refine ⟨fun inFront => ?_, free⟩
        rw [List.isPrefixOf_iff_prefix] at isPrefix
        have whole : c :: rest.take j <+: c :: rest :=
          (List.cons_prefix_cons).mpr ⟨rfl, List.take_prefix j rest⟩
        exact isPrefix (inFront.trans whole)

def rfind (c : Char) : List Char → Option ℕ
  | [] => none
  | d :: rest =>
    match rfind c rest with
    | some i => some (i + 1)
    | none => if d = c then some 0 else none

variable {c : Char}

theorem rfind_eq_none {text : List Char} (missing : rfind c text = none) : c ∉ text := by
  induction text with
  | nil => exact List.not_mem_nil
  | cons d rest ih =>
    rw [rfind] at missing
    cases later : rfind c rest with
    | some i => simp [later] at missing
    | none =>
      rw [later] at missing
      split_ifs at missing with same
      rw [List.mem_cons, not_or]
      exact ⟨fun equal => same equal.symm, ih later⟩

theorem rfind_eq_some {text : List Char} {i : ℕ} (found : rfind c text = some i) :
    text = text.take i ++ c :: text.drop (i + 1) ∧ c ∉ text.drop (i + 1) := by
  induction text generalizing i with
  | nil => contradiction
  | cons d rest ih =>
    rw [rfind] at found
    cases later : rfind c rest with
    | some j =>
      rw [later] at found
      cases found
      rcases ih later with ⟨split, free⟩
      exact ⟨congrArg (List.cons d) split, free⟩
    | none =>
      rw [later] at found
      split_ifs at found with same
      cases found
      exact ⟨by simp [same], rfind_eq_none later⟩

theorem drop_rfind {text : List Char} {i : ℕ} (found : rfind c text = some i) :
    text.drop i = c :: text.drop (i + 1) := by
  have split := (rfind_eq_some found).1
  have inside : i < text.length := by
    have lengths := congrArg List.length split
    simp only [List.length_append, List.length_take, List.length_cons] at lengths
    omega
  nth_rewrite 1 [split]
  rw [List.drop_append_of_le_length (by rw [List.length_take]; omega)]
  simp

theorem rfind_of_not_mem {text : List Char} (missing : c ∉ text) : rfind c text = none := by
  cases found : rfind c text with
  | none => rfl
  | some i =>
    have split := (rfind_eq_some found).1
    rw [split] at missing
    exact absurd (List.mem_append_right _ List.mem_cons_self) missing

theorem rfind_append (c : Char) (first second : List Char) : rfind c (first ++ second) =
      ((rfind c second).map fun i => first.length + i).or (rfind c first) := by
  induction first with
  | nil => simp [rfind]
  | cons d rest ih =>
    rw [List.cons_append, rfind, rfind, ih]
    cases rfind c second with
    | none => simp
    | some i =>
      simp only [Option.map_some, Option.some_or, List.length_cons, Option.some.injEq]
      omega

structure Tag where
  rest : List Char
  plain : '<' ∉ rest

namespace Tag

variable {tag : Tag} {before held suffix : List Char}

def text (tag : Tag) : List Char := '<' :: tag.rest

theorem text_ne_nil (tag : Tag) : tag.text ≠ [] := List.cons_ne_nil _ _

theorem prefix_append_iff_of_not {text more : List Char} (notPrefix : ¬tag.text <+: text) :
    tag.text <+: text ++ more → text <+: tag.text ∧ text ≠ tag.text := by
  intro inFront
  rcases List.prefix_or_prefix_of_prefix inFront (List.prefix_append text more) with short | long
  · exact absurd short notPrefix
  · refine ⟨long, ?_⟩
    rintro rfl
    exact notPrefix (List.prefix_refl _)

theorem not_prefix_append (free : ¬tag.text <:+: before) (nonempty : before ≠ []) :
    ¬tag.text <+: before ++ '<' :: suffix := by
  intro inFront
  rcases prefix_append_iff_of_not (fun short => free short.isInfix) inFront with ⟨long, differ⟩
  rcases long with ⟨later, whole⟩
  rw [← whole] at inFront
  have inSuffix : later <+: '<' :: suffix := (List.prefix_append_right_inj before).mp inFront
  cases later with
  | nil =>
    rw [List.append_nil] at whole
    exact differ whole
  | cons d more =>
    rw [List.cons_prefix_cons] at inSuffix
    cases before with
    | nil => exact nonempty rfl
    | cons c others =>
      have inRest : tag.rest = others ++ d :: more := (List.cons.inj whole).2.symm
      apply tag.plain
      rw [inRest, ← inSuffix.1]
      simp

end Tag

section Finding

variable {pattern text : List Char} {tag : Tag} {before after : List Char} {i : ℕ}

theorem find_append (found : find tag.text text = some i) (more : List Char) :
    find tag.text (text ++ more) = some i := by
  induction text generalizing i with
  | nil => contradiction
  | cons c rest ih =>
    rw [find] at found
    rw [List.cons_append, find]
    split_ifs at found with isPrefix
    · rw [if_pos, found]
      rw [List.isPrefixOf_iff_prefix] at isPrefix ⊢
      exact isPrefix.trans (List.prefix_append _ _)
    · rcases Option.map_eq_some_iff.mp found with ⟨j, foundRest, rfl⟩
      rw [if_neg, ih foundRest]
      · rfl
      · rw [List.isPrefixOf_iff_prefix] at isPrefix ⊢
        intro inFront
        have short := congrArg List.length (find_eq_some tag.text_ne_nil foundRest).1
        simp only [List.length_append] at short
        apply isPrefix
        apply List.prefix_of_prefix_length_le inFront (List.prefix_append (c :: rest) more)
        rw [List.length_cons]
        omega

theorem find_tag (free : ¬tag.text <:+: before) :
    find tag.text (before ++ (tag.text ++ after)) = some before.length := by
  induction before with
  | nil =>
    rw [List.nil_append, Tag.text, List.cons_append, find, if_pos]
    · rfl
    · exact List.isPrefixOf_iff_prefix.mpr (List.prefix_append tag.text after)
  | cons c rest ih =>
    rw [List.infix_cons_iff, not_or] at free
    rw [List.cons_append, find, if_neg, ih free.2]
    · rfl
    · rw [List.isPrefixOf_iff_prefix]
      apply Tag.not_prefix_append _ (List.cons_ne_nil c rest)
      rw [List.infix_cons_iff, not_or]
      exact free

theorem append_tag_inj {first second later : List Char} (freeFirst : ¬tag.text <:+: first)
    (freeSecond : ¬tag.text <:+: second)
    (same : first ++ (tag.text ++ after) = second ++ (tag.text ++ later)) :
    first = second ∧ after = later := by
  have lengths : find tag.text (first ++ (tag.text ++ after)) = some first.length :=
    find_tag freeFirst
  rw [same, find_tag freeSecond] at lengths
  rcases List.append_inj same (Option.some.inj lengths).symm with ⟨isFirst, isLater⟩
  exact ⟨isFirst, (List.append_right_inj tag.text).mp isLater⟩

theorem exists_append_tag (inside : tag.text <:+: text) :
    ∃ before after, text = before ++ (tag.text ++ after) ∧ ¬tag.text <:+: before := by
  cases found : find tag.text text with
  | none => exact absurd inside ((find_eq_none_iff tag.text_ne_nil).mp found)
  | some i =>
    rcases find_eq_some tag.text_ne_nil found with ⟨split, free⟩
    exact ⟨_, _, split, free⟩

theorem infix_of_plain (plain : '<' ∉ before) (inside : tag.text <:+: before ++ after) :
    tag.text <:+: after := by
  induction before with
  | nil => exact inside
  | cons c rest ih =>
    rw [List.mem_cons, not_or] at plain
    rcases List.infix_cons_iff.mp inside with inFront | later
    · exact absurd (List.cons_prefix_cons.mp inFront).1 plain.1
    · exact ih plain.2 later

end Finding

theorem suffix_append_cases {tail front back : List Char} (suffix : tail <:+ front ++ back) :
    tail <:+ back ∨ ∃ part, part <:+ front ∧ part ≠ [] ∧ tail = part ++ back := by
  rcases suffix with ⟨skipped, whole⟩
  rcases List.append_eq_append_iff.mp whole with ⟨part, isFront, isTail⟩ | ⟨part, -, isBack⟩
  · by_cases nothing : part = []
    · left
      rw [isTail, nothing]
      exact List.suffix_rfl
    · exact Or.inr ⟨part, ⟨skipped, isFront.symm⟩, nothing, isTail⟩
  · exact Or.inl ⟨part, isBack.symm⟩

structure TagPair where
  name : List Char
  plain : '<' ∉ name ∧ '>' ∉ name

namespace TagPair

def openTag (pair : TagPair) : Tag where
  rest := pair.name ++ ['>']
  plain := by simp [pair.plain.1]

def closeTag (pair : TagPair) : Tag where
  rest := '/' :: pair.name ++ ['>']
  plain := by simp [pair.plain.1]

theorem name_eq_of_prefix {first second : List Char} (firstPlain : '>' ∉ first)
    (secondPlain : '>' ∉ second) {text : List Char} (inFront : first ++ ['>'] <+: text)
    (other : second ++ ['>'] <+: text) : first = second := by
  induction first generalizing second text with
  | nil =>
    cases second with
    | nil => rfl
    | cons d more =>
      rcases inFront with ⟨after, rfl⟩
      rw [List.cons_append, List.nil_append, List.cons_append, List.cons_prefix_cons] at other
      simp [other.1] at secondPlain
  | cons c others ih =>
    cases text with
    | nil => simp at inFront
    | cons e later =>
      rw [List.cons_append, List.cons_prefix_cons] at inFront
      cases second with
      | nil =>
        rw [List.nil_append, List.cons_prefix_cons] at other
        simp [inFront.1, ← other.1] at firstPlain
      | cons d more =>
        rw [List.cons_append, List.cons_prefix_cons] at other
        rw [List.mem_cons, not_or] at firstPlain secondPlain
        rw [inFront.1, other.1, ih firstPlain.2 secondPlain.2 inFront.2 other.2]

theorem eq_of_prefix {first second : TagPair} {text : List Char}
    (inFront : first.openTag.text <+: text) (other : second.openTag.text <+: text) :
    first = second := by
  cases text with
  | nil => simp [Tag.text] at inFront
  | cons c rest =>
    have sameName := name_eq_of_prefix first.plain.2 second.plain.2
      (List.cons_prefix_cons.mp inFront).2 (List.cons_prefix_cons.mp other).2
    cases first
    cases second
    simp_all

end TagPair

end HybridInference.Library.Tags
