import HybridInference.Library.Tags

/-!
# Taking a tag out of a text

Occurrences of a tag do not overlap, since a tag holds one angle bracket and starts with it.
Taking a tag out of two texts one after the other is the same as taking it out of both together
unless it straddles the place where they meet.
-/

namespace HybridInference.Library.Tags

/-- `text.replace(tag, "")`, with some characters of a tag still to pass. -/
def removeAll (tag : Tag) : ℕ → List Char → List Char
  | _, [] => []
  | skip + 1, _ :: rest => removeAll tag skip rest
  | 0, c :: rest =>
    if tag.text.isPrefixOf (c :: rest) then removeAll tag tag.rest.length rest
    else c :: removeAll tag 0 rest

def Tag.Straddles (tag : Tag) (front back : List Char) : Prop :=
  ∃ held later, held ≠ [] ∧ later ≠ [] ∧ held ++ later = tag.text ∧ held <:+ front ∧ later <+: back

variable {tag other : Tag} {front back text rest : List Char}

theorem removeAll_skip (skipped rest : List Char) :
    removeAll tag skipped.length (skipped ++ rest) = removeAll tag 0 rest := by
  induction skipped with
  | nil => rfl
  | cons c others ih => rw [List.length_cons, List.cons_append, removeAll, ih]

theorem removeAll_tag (rest : List Char) :
    removeAll tag 0 (tag.text ++ rest) = removeAll tag 0 rest := by
  have inFront : tag.text.isPrefixOf ('<' :: (tag.rest ++ rest)) = true :=
    List.isPrefixOf_iff_prefix.mpr (List.prefix_append tag.text rest)
  rw [Tag.text, List.cons_append, removeAll, if_pos inFront]
  exact removeAll_skip tag.rest rest

theorem removeAll_cons {c : Char} (notTag : ¬tag.text <+: c :: rest) :
    removeAll tag 0 (c :: rest) = c :: removeAll tag 0 rest := by
  rw [removeAll, if_neg]
  rw [List.isPrefixOf_iff_prefix]
  exact notTag

theorem tag_induction {motive : List Char → Prop} (tag : Tag) (nil : motive [])
    (tagged : ∀ rest, motive rest → motive (tag.text ++ rest))
    (cons : ∀ c rest, ¬tag.text <+: c :: rest → motive rest → motive (c :: rest))
    (text : List Char) : motive text := by
  generalize length_eq : text.length = length
  induction length using Nat.strong_induction_on generalizing text with
  | _ length ih =>
    subst length_eq
    cases text with
    | nil => exact nil
    | cons c rest =>
      by_cases inFront : tag.text <+: c :: rest
      · rcases inFront with ⟨after, whole⟩
        have shorter := congrArg List.length whole
        rw [List.length_append, Tag.text, List.length_cons] at shorter
        rw [← whole]
        exact tagged after (ih after.length (by omega) after rfl)
      · exact cons c rest inFront (ih rest.length (Nat.lt_succ_self _) rest rfl)

theorem removeAll_of_free (free : ¬tag.text <:+: text) : removeAll tag 0 text = text := by
  induction text with
  | nil => rfl
  | cons c rest ih =>
    rw [List.infix_cons_iff, not_or] at free
    rw [removeAll_cons free.1, ih free.2]

theorem removeAll_of_plain {skip : ℕ} (plain : '<' ∉ text) :
    removeAll tag skip text = text.drop skip := by
  induction text generalizing skip with
  | nil => simp [removeAll]
  | cons c rest ih =>
    rw [List.mem_cons, not_or] at plain
    cases skip with
    | zero =>
      rw [removeAll_cons, ih plain.2, List.drop_zero, List.drop_zero]
      intro inFront
      exact plain.1 (List.cons_prefix_cons.mp inFront).1
    | succ skip => rw [removeAll, ih plain.2, List.drop_succ_cons]

theorem removeAll_append_of_plain (plain : '<' ∉ front) :
    removeAll tag 0 (front ++ back) = front ++ removeAll tag 0 back := by
  induction front with
  | nil => rfl
  | cons c rest ih =>
    rw [List.mem_cons, not_or] at plain
    rw [List.cons_append, removeAll_cons, ih plain.2, List.cons_append]
    intro inFront
    exact plain.1 (List.cons_prefix_cons.mp inFront).1

theorem removeAll_sublist (tag : Tag) (text : List Char) : (removeAll tag 0 text).Sublist text := by
  induction text using tag_induction tag with
  | nil => exact List.Sublist.refl []
  | tagged rest ih =>
    rw [removeAll_tag]
    exact ih.trans (List.sublist_append_right tag.text rest)
  | cons c rest notTag ih =>
    rw [removeAll_cons notTag]
    exact ih.cons_cons c

theorem Tag.Straddles.of_prefix {more : List Char} (straddles : tag.Straddles front back)
    (inFront : back <+: more) : tag.Straddles front more := by
  rcases straddles with ⟨held, later, someHeld, someLater, whole, isEnd, isStart⟩
  exact ⟨held, later, someHeld, someLater, whole, isEnd, isStart.trans inFront⟩

theorem Tag.Straddles.of_suffix {more : List Char} (straddles : tag.Straddles front back)
    (atEnd : front <:+ more) : tag.Straddles more back := by
  rcases straddles with ⟨held, later, someHeld, someLater, whole, isEnd, isStart⟩
  exact ⟨held, later, someHeld, someLater, whole, isEnd.trans atEnd, isStart⟩

theorem Tag.parts {held later : List Char} (someHeld : held ≠ [])
    (whole : held ++ later = tag.text) : (∃ more, held = '<' :: more) ∧ '<' ∉ later := by
  cases held with
  | nil => exact absurd rfl someHeld
  | cons c more =>
    rw [List.cons_append, Tag.text, List.cons.injEq] at whole
    refine ⟨⟨more, by rw [whole.1]⟩, fun inside => tag.plain ?_⟩
    rw [← whole.2]
    exact List.mem_append_right more inside

theorem not_straddles_nil : ¬tag.Straddles front [] := by
  rintro ⟨held, later, -, someLater, -, -, isStart⟩
  exact someLater (List.prefix_nil.mp isStart)

theorem not_straddles_bracket : ¬tag.Straddles front ('<' :: back) := by
  rintro ⟨held, later, someHeld, someLater, whole, -, isStart⟩
  cases later with
  | nil => exact someLater rfl
  | cons c more =>
    have isBracket := (List.cons_prefix_cons.mp isStart).1
    apply (Tag.parts someHeld whole).2
    rw [isBracket]
    exact List.mem_cons_self

theorem not_straddles_of_plain {near : List Char} (plain : '<' ∉ near) (atEnd : near <:+ front)
    (long : tag.rest.length ≤ near.length ∨ near = front) : ¬tag.Straddles front back := by
  rintro ⟨held, later, someHeld, someLater, whole, isEnd, -⟩
  have inNear : held <:+ near := by
    rcases long with long | rfl
    · apply List.suffix_of_suffix_length_le isEnd atEnd
      have lengths := congrArg List.length whole
      have positive := List.length_pos_iff.mpr someLater
      rw [List.length_append, Tag.text, List.length_cons] at lengths
      omega
    · exact isEnd
  rcases (Tag.parts someHeld whole).1 with ⟨more, rfl⟩
  exact plain (inNear.subset List.mem_cons_self)

theorem removeAll_append (apart : ¬tag.Straddles front back) :
    removeAll tag 0 (front ++ back) = removeAll tag 0 front ++ removeAll tag 0 back := by
  induction front using tag_induction tag with
  | nil => rfl
  | tagged rest ih =>
    rw [List.append_assoc, removeAll_tag, removeAll_tag, ih]
    exact fun straddles => apart (straddles.of_suffix (List.suffix_append tag.text rest))
  | cons c rest notTag ih =>
    rw [List.cons_append, removeAll_cons, removeAll_cons notTag, ih, List.cons_append]
    · exact fun straddles => apart (straddles.of_suffix (List.suffix_cons c rest))
    · intro inFront
      rcases Tag.prefix_append_iff_of_not notTag inFront with ⟨⟨later, whole⟩, differ⟩
      apply apart
      refine ⟨c :: rest, later, List.cons_ne_nil c rest, ?_, whole, List.suffix_rfl, ?_⟩
      · rintro rfl
        exact differ (by rw [← whole, List.append_nil])
      · rw [← whole] at inFront
        exact (List.prefix_append_right_inj (c :: rest)).mp inFront

theorem removeAll_append_tag (before after : List Char) :
    removeAll tag 0 (before ++ (tag.text ++ after)) =
      removeAll tag 0 before ++ removeAll tag 0 after := by
  rw [removeAll_append, removeAll_tag]
  exact not_straddles_bracket

theorem removeAll_of_straddles (straddles : tag.Straddles front back) :
    ∃ before after, removeAll tag 0 (front ++ back) = before ++ after ∧
      removeAll tag 0 front ++ removeAll tag 0 back = before ++ (tag.text ++ after) := by
  rcases straddles with ⟨held, later, someHeld, someLater, whole, ⟨before, rfl⟩, ⟨after, rfl⟩⟩
  rcases Tag.parts someHeld whole with ⟨⟨more, startsHeld⟩, plain⟩
  have noneHeld : ¬tag.text <:+: held := by
    intro inside
    have shorter := inside.length_le
    have lengths := congrArg List.length whole
    have positive := List.length_pos_iff.mpr someLater
    rw [List.length_append] at lengths
    omega
  have joined : before ++ held ++ (later ++ after) = before ++ (tag.text ++ after) := by
    simp [← whole]
  have split : removeAll tag 0 (before ++ held) = removeAll tag 0 before ++ held := by
    rw [removeAll_append, removeAll_of_free noneHeld]
    rw [startsHeld]
    exact not_straddles_bracket
  refine ⟨removeAll tag 0 before, removeAll tag 0 after, ?_, ?_⟩
  · rw [joined, removeAll_append_tag]
  · rw [split, removeAll_append_of_plain plain, List.append_assoc, ← List.append_assoc held, whole]

/-- Cleaning the whole text removes at least as much. -/
theorem removeAll_append_sublist (tag : Tag) (front back : List Char) :
    (removeAll tag 0 (front ++ back)).Sublist (removeAll tag 0 front ++ removeAll tag 0 back) := by
  by_cases straddles : tag.Straddles front back
  · rcases removeAll_of_straddles straddles with ⟨before, after, joined, apart⟩
    rw [joined, apart]
    exact (List.sublist_append_right tag.text after).append_left before
  · rw [removeAll_append straddles]

/-- Two texts can be cleaned apart exactly when no tag straddles the cut. -/
theorem removeAll_append_iff :
    removeAll tag 0 (front ++ back) = removeAll tag 0 front ++ removeAll tag 0 back ↔
      ¬tag.Straddles front back := by
  refine ⟨fun same straddles => ?_, removeAll_append⟩
  rcases removeAll_of_straddles straddles with ⟨before, after, joined, apart⟩
  rw [joined, apart] at same
  have lengths := congrArg List.length same
  simp only [List.length_append, Tag.text, List.length_cons] at lengths
  omega

theorem suffix_removeAll {near : List Char} {skip : ℕ} (plain : '<' ∉ near)
    (few : skip ≤ tag.rest.length) (far : List Char) :
    near.drop tag.rest.length <:+ removeAll tag skip (far ++ near) := by
  induction far generalizing skip with
  | nil =>
    rw [List.nil_append, removeAll_of_plain plain]
    have later := List.drop_suffix (tag.rest.length - skip) (near.drop skip)
    rwa [List.drop_drop, Nat.add_sub_cancel' few] at later
  | cons c far ih =>
    rw [List.cons_append]
    cases skip with
    | zero =>
      rw [removeAll]
      split_ifs
      · exact ih le_rfl
      · exact (ih (Nat.zero_le _)).trans (List.suffix_cons _ _)
    | succ skip =>
      exact ih (by omega)

theorem not_straddles_removeAll {far near : List Char} (plain : '<' ∉ near)
    (long : tag.rest.length + other.rest.length ≤ near.length ∨ far = []) :
    ¬tag.Straddles (removeAll other 0 (far ++ near)) back := by
  rcases long with long | rfl
  · apply @not_straddles_of_plain tag _ back (near.drop other.rest.length)
    · exact fun inside => plain (List.mem_of_mem_drop inside)
    · exact suffix_removeAll plain (Nat.zero_le _) far
    · left
      rw [List.length_drop]
      omega
  · rw [List.nil_append, removeAll_of_plain plain]
    exact not_straddles_of_plain plain List.suffix_rfl (Or.inr rfl)

end HybridInference.Library.Tags
