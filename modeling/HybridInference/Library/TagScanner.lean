import HybridInference.Library.Tags

/-!
# Scanning tagged text

The scanner reads a text from left to right: an opening tag of a known pair moves it inside,
the closing tag of that pair moves it outside again, and what is left of a closing tag at the
end of a text is dropped. `Reading` says the same without an order of steps: which pieces of a
text are outside and which are inside, none of them holding the tag that would end it.
-/

namespace HybridInference.Library.Tags

inductive Place where
  | outside
  | inside
  deriving DecidableEq

abbrev Letter := Place × Char

def lettersAt (place : Place) (text : List Char) : List Letter := text.map fun c => (place, c)

def scan (pairs : List TagPair) : Option Tag → ℕ → List Char → List Letter
  | _, _, [] => []
  | closing, skip + 1, _ :: rest => scan pairs closing skip rest
  | none, 0, c :: rest =>
    match pairs.find? fun pair => pair.openTag.text.isPrefixOf (c :: rest) with
    | some pair => scan pairs (some pair.closeTag) pair.openTag.rest.length rest
    | none => (.outside, c) :: scan pairs none 0 rest
  | some closing, 0, c :: rest =>
    if closing.text.isPrefixOf (c :: rest) then scan pairs none closing.rest.length rest
    else if (c :: rest).isPrefixOf closing.text then []
    else (.inside, c) :: scan pairs (some closing) 0 rest

def NoneStarts (tags : List Tag) (text suffix : List Char) : Prop :=
  ∀ skipped tail, text = skipped ++ tail → tail ≠ [] → ∀ tag ∈ tags, ¬tag.text <+: tail ++ suffix

def Free (tags : List Tag) (text : List Char) : Prop := ∀ tag ∈ tags, ¬tag.text <:+: text

variable {pairs : List TagPair} {tags : List Tag} {closing : Option Tag}
  {before held suffix rest text : List Char}

theorem NoneStarts.tail {c : Char} (none : NoneStarts tags (c :: before) suffix) :
    NoneStarts tags before suffix := by
  intro skipped tail split nonempty
  refine none (c :: skipped) tail ?_ nonempty
  rw [split, List.cons_append]

theorem NoneStarts.front {c : Char} (none : NoneStarts tags (c :: before) suffix) :
    ∀ tag ∈ tags, ¬tag.text <+: c :: before ++ suffix :=
  none [] (c :: before) rfl (List.cons_ne_nil c before)

theorem Free.of_append_right (free : Free tags (before ++ suffix)) : Free tags suffix :=
  fun tag known inside => free tag known (inside.trans (List.suffix_append _ _).isInfix)

theorem Free.noneStarts_tag (free : Free tags before) : NoneStarts tags before ('<' :: suffix) := by
  rintro skipped tail rfl nonempty tag known
  exact Tag.not_prefix_append (free.of_append_right tag known) nonempty

theorem Free.noneStarts_end (free : Free tags before) : NoneStarts tags before [] := by
  rintro skipped tail rfl - tag known inFront
  rw [List.append_nil] at inFront
  exact free.of_append_right tag known inFront.isInfix

def NoPartial (tags : List Tag) (front held : List Char) : Prop :=
  ∀ skipped tail, front = skipped ++ tail → tail ≠ [] → ∀ tag ∈ tags,
    tail ++ held <+: tag.text → tail ++ held = tag.text

theorem Free.noneStarts_held (free : Free tags (before ++ held))
    (complete : NoPartial tags before held) (rest : List Char) :
    NoneStarts tags before (held ++ rest) := by
  rintro skipped tail rfl nonempty tag known inFront
  rw [← List.append_assoc] at inFront
  have notPrefix : ¬tag.text <+: tail ++ held := by
    intro short
    rw [List.append_assoc] at free
    exact free.of_append_right tag known short.isInfix
  rcases Tag.prefix_append_iff_of_not notPrefix inFront with ⟨long, differ⟩
  exact differ (complete skipped tail rfl nonempty tag known long)

theorem find_of_noneStarts {tag : Tag} (none : NoneStarts [tag] before suffix) :
    find tag.text (before ++ suffix) = (find tag.text suffix).map fun i => before.length + i := by
  induction before with
  | nil => simp
  | cons c rest ih =>
    have notHere : ¬tag.text.isPrefixOf (c :: (rest ++ suffix)) = true := by
      rw [List.isPrefixOf_iff_prefix]
      exact none.front tag (List.mem_singleton_self tag)
    rw [List.cons_append, find, if_neg notHere, ih none.tail, Option.map_map]
    apply congrArg (Option.map · (find tag.text suffix))
    funext i
    simp only [Function.comp_apply, List.length_cons]
    omega

theorem free_append_of_noneStarts {tag : Tag} (none : NoneStarts [tag] before suffix)
    (free : ¬tag.text <:+: suffix) : ¬tag.text <:+: before ++ suffix := by
  rw [← find_eq_none_iff tag.text_ne_nil] at free ⊢
  rw [find_of_noneStarts none, free]
  rfl

theorem scan_skip (skipped : List Char) :
    scan pairs closing skipped.length (skipped ++ rest) = scan pairs closing 0 rest := by
  induction skipped with
  | nil => rfl
  | cons c others ih => rw [List.length_cons, List.cons_append, scan, ih]

theorem scan_open {pair : TagPair} (known : pair ∈ pairs) :
    scan pairs none 0 (pair.openTag.text ++ rest) = scan pairs (some pair.closeTag) 0 rest := by
  have found : pairs.find? (fun other => other.openTag.text.isPrefixOf
      ('<' :: (pair.openTag.rest ++ rest))) = some pair := by
    cases finds : pairs.find? (fun other => other.openTag.text.isPrefixOf
        ('<' :: (pair.openTag.rest ++ rest))) with
    | none =>
      have opens := List.find?_eq_none.mp finds pair known
      rw [List.isPrefixOf_iff_prefix] at opens
      exact absurd (List.prefix_append pair.openTag.text rest) opens
    | some other =>
      have opens := List.find?_some finds
      rw [List.isPrefixOf_iff_prefix] at opens
      rw [TagPair.eq_of_prefix opens (List.prefix_append pair.openTag.text rest)]
  rw [Tag.text, List.cons_append, scan, found]
  exact scan_skip pair.openTag.rest

theorem scan_close {tag : Tag} :
    scan pairs (some tag) 0 (tag.text ++ rest) = scan pairs none 0 rest := by
  have closes : tag.text.isPrefixOf ('<' :: (tag.rest ++ rest)) = true :=
    List.isPrefixOf_iff_prefix.mpr (List.prefix_append tag.text rest)
  rw [Tag.text, List.cons_append, scan, if_pos closes]
  exact scan_skip tag.rest

theorem scan_outside (free : NoneStarts (pairs.map TagPair.openTag) before suffix) :
    scan pairs none 0 (before ++ suffix) =
      lettersAt .outside before ++ scan pairs none 0 suffix := by
  induction before with
  | nil => rfl
  | cons c others ih =>
    have missing : pairs.find? (fun pair => pair.openTag.text.isPrefixOf
        (c :: (others ++ suffix))) = none := by
      rw [List.find?_eq_none]
      intro pair known
      rw [List.isPrefixOf_iff_prefix]
      exact free.front pair.openTag (List.mem_map_of_mem known)
    rw [List.cons_append, scan, missing, ih free.tail]
    rfl

theorem scan_inside {tag : Tag} (free : NoneStarts [tag] before suffix)
    (complete : ∀ skipped tail, before = skipped ++ tail → tail ≠ [] →
      ¬tail ++ suffix <+: tag.text) :
    scan pairs (some tag) 0 (before ++ suffix) =
      lettersAt .inside before ++ scan pairs (some tag) 0 suffix := by
  induction before with
  | nil => rfl
  | cons c others ih =>
    have notClosed : ¬tag.text.isPrefixOf (c :: (others ++ suffix)) = true := by
      rw [List.isPrefixOf_iff_prefix]
      exact free.front tag (List.mem_singleton_self tag)
    have notPartial : ¬(c :: (others ++ suffix)).isPrefixOf tag.text = true := by
      rw [List.isPrefixOf_iff_prefix]
      exact complete [] (c :: others) rfl (List.cons_ne_nil c others)
    rw [List.cons_append, scan, if_neg notClosed, if_neg notPartial, ih free.tail]
    · rfl
    · intro skipped tail split nonempty
      refine complete (c :: skipped) tail ?_ nonempty
      rw [split, List.cons_append]

theorem scan_held {tag : Tag} (isPartial : held <+: tag.text) (differ : held ≠ tag.text) :
    scan pairs (some tag) 0 held = [] := by
  cases held with
  | nil => rfl
  | cons c others =>
    have notClosed : ¬tag.text.isPrefixOf (c :: others) = true := by
      rw [List.isPrefixOf_iff_prefix]
      intro inFront
      exact differ (isPartial.eq_of_length (le_antisymm isPartial.length_le inFront.length_le))
    rw [scan, if_neg notClosed, if_pos (List.isPrefixOf_iff_prefix.mpr isPartial)]

theorem scan_free (free : Free (pairs.map TagPair.openTag) text) :
    scan pairs none 0 text = lettersAt .outside text := by
  have scanned : scan pairs none 0 (text ++ []) = _ := scan_outside free.noneStarts_end
  rw [List.append_nil] at scanned
  rw [scanned]
  exact List.append_nil _

section Blocks

variable {tag : Tag} {inner after : List Char}

theorem scan_outside_tag (free : Free (pairs.map TagPair.openTag) before) (tag : Tag) :
    scan pairs none 0 (before ++ (tag.text ++ rest)) =
      lettersAt .outside before ++ scan pairs none 0 (tag.text ++ rest) :=
  scan_outside free.noneStarts_tag

theorem scan_inside_tag (free : Free [tag] inner) :
    scan pairs (some tag) 0 (inner ++ (tag.text ++ after)) =
      lettersAt .inside inner ++ scan pairs none 0 after := by
  have none : NoneStarts [tag] inner (tag.text ++ after) := free.noneStarts_tag
  rw [scan_inside none, scan_close]
  rintro skipped tail rfl nonempty inFront
  have shorter := inFront.length_le
  have positive := List.length_pos_iff.mpr nonempty
  simp only [List.length_append] at shorter
  omega

theorem scan_inside_held (free : Free [tag] (inner ++ held)) (complete : NoPartial [tag] inner held)
    (rest : List Char) :
    scan pairs (some tag) 0 (inner ++ (held ++ rest)) =
      lettersAt .inside inner ++ scan pairs (some tag) 0 (held ++ rest) := by
  apply scan_inside (free.noneStarts_held complete rest)
  rintro skipped tail rfl nonempty inFront
  have short : tail ++ held <+: tag.text := by
    apply List.IsPrefix.trans _ inFront
    rw [← List.append_assoc]
    exact List.prefix_append _ _
  have whole := complete skipped tail rfl nonempty tag (List.mem_singleton_self tag) short
  rw [List.append_assoc] at free
  exact free.of_append_right tag (List.mem_singleton_self tag) (whole ▸ List.infix_rfl)

theorem scan_outside_held (free : Free (pairs.map TagPair.openTag) (before ++ held))
    (complete : NoPartial (pairs.map TagPair.openTag) before held) (rest : List Char) :
    scan pairs none 0 (before ++ (held ++ rest)) =
      lettersAt .outside before ++ scan pairs none 0 (held ++ rest) :=
  scan_outside (free.noneStarts_held complete rest)

end Blocks

/-- The pieces of a text; an unclosed pair is read to the end, but for the longest tail that may be
the start of its closing tag. -/
inductive Reading (pairs : List TagPair) : List Char → List (Place × List Char) → Prop
  | plain {text : List Char} (free : Free (pairs.map TagPair.openTag) text) :
      Reading pairs text [(.outside, text)]
  | closed {before inner after : List Char} {pair : TagPair} {pieces : List (Place × List Char)}
      (known : pair ∈ pairs) (free : Free (pairs.map TagPair.openTag) before)
      (open_ : Free [pair.closeTag] inner) (later : Reading pairs after pieces) :
      Reading pairs (before ++ (pair.openTag.text ++ (inner ++ (pair.closeTag.text ++ after))))
        ((.outside, before) :: (.inside, inner) :: pieces)
  | unclosed {before inner held : List Char} {pair : TagPair} (known : pair ∈ pairs)
      (free : Free (pairs.map TagPair.openTag) before)
      (open_ : Free [pair.closeTag] (inner ++ held)) (isPartial : held <+: pair.closeTag.text)
      (complete : NoPartial [pair.closeTag] inner held) :
      Reading pairs (before ++ (pair.openTag.text ++ (inner ++ held)))
        [(.outside, before), (.inside, inner)]

def letters (pieces : List (Place × List Char)) : List Letter :=
  pieces.flatMap fun piece => lettersAt piece.1 piece.2

theorem Reading.scan_eq {pieces : List (Place × List Char)} (reading : Reading pairs text pieces) :
    scan pairs none 0 text = letters pieces := by
  induction reading with
  | plain free =>
    rw [scan_free free]
    simp [letters]
  | closed known free open_ later ih =>
    rw [scan_outside_tag free, scan_open known, scan_inside_tag open_, ih]
    simp [letters]
  | @unclosed before inner held pair known free open_ isPartial complete =>
    have scanned : scan pairs _ 0 _ = _ := scan_inside_held open_ complete []
    have differ : held ≠ pair.closeTag.text := by
      rintro rfl
      exact open_.of_append_right _ (List.mem_singleton_self _) List.infix_rfl
    rw [List.append_nil, scan_held isPartial differ] at scanned
    rw [scan_outside_tag free, scan_open known, scanned]
    simp [letters]

theorem free_or_first_open (pairs : List TagPair) (text : List Char) :
    Free (pairs.map TagPair.openTag) text ∨
      ∃ before pair after, pair ∈ pairs ∧ Free (pairs.map TagPair.openTag) before ∧
        text = before ++ (pair.openTag.text ++ after) := by
  induction text with
  | nil =>
    left
    intro tag _ inside
    exact tag.text_ne_nil (List.infix_nil.mp inside)
  | cons c rest ih =>
    by_cases opens : ∃ pair ∈ pairs, pair.openTag.text <+: c :: rest
    · right
      rcases opens with ⟨pair, known, after, whole⟩
      refine ⟨[], pair, after, known, ?_, whole.symm⟩
      intro tag _ inside
      exact tag.text_ne_nil (List.infix_nil.mp inside)
    · rcases ih with free | ⟨before, pair, after, known, free, rfl⟩
      · left
        intro tag known inside
        rcases List.mem_map.mp known with ⟨pair, isPair, rfl⟩
        rcases List.infix_cons_iff.mp inside with inFront | later
        · exact opens ⟨pair, isPair, inFront⟩
        · exact free _ known later
      · right
        refine ⟨c :: before, pair, after, known, ?_, rfl⟩
        intro tag isKnown inside
        rcases List.mem_map.mp isKnown with ⟨other, isPair, rfl⟩
        rcases List.infix_cons_iff.mp inside with inFront | later
        · refine opens ⟨other, isPair, inFront.trans ?_⟩
          exact List.cons_prefix_cons.mpr ⟨rfl, List.prefix_append _ _⟩
        · exact free _ isKnown later

theorem exists_held (tag : Tag) (text : List Char) :
    ∃ inner held, text = inner ++ held ∧ held <+: tag.text ∧ NoPartial [tag] inner held := by
  induction text with
  | nil =>
    refine ⟨[], [], rfl, List.nil_prefix, ?_⟩
    intro skipped tail split nonempty
    exact absurd (List.append_eq_nil_iff.mp split.symm).2 nonempty
  | cons c rest ih =>
    by_cases isPartial : c :: rest <+: tag.text
    · refine ⟨[], c :: rest, rfl, isPartial, ?_⟩
      intro skipped tail split nonempty
      exact absurd (List.append_eq_nil_iff.mp split.symm).2 nonempty
    · rcases ih with ⟨inner, held, rfl, isStart, complete⟩
      refine ⟨c :: inner, held, rfl, isStart, ?_⟩
      intro skipped tail split nonempty other known inFront
      cases skipped with
      | nil =>
        rw [List.nil_append] at split
        obtain rfl := List.mem_singleton.mp known
        rw [← split, List.cons_append] at inFront
        exact absurd inFront isPartial
      | cons d others =>
        exact complete others tail (List.cons.inj split).2 nonempty other known inFront

theorem exists_reading (pairs : List TagPair) (text : List Char) :
    ∃ pieces, Reading pairs text pieces := by
  induction sized : text.length using Nat.strong_induction_on generalizing text with
  | _ size ih =>
    rcases free_or_first_open pairs text with free | ⟨before, pair, rest, known, free, rfl⟩
    · exact ⟨_, .plain free⟩
    · cases closes : find pair.closeTag.text rest with
      | none =>
        have open_ := (find_eq_none_iff pair.closeTag.text_ne_nil).mp closes
        rcases exists_held pair.closeTag rest with ⟨inner, held, rfl, isPartial, complete⟩
        refine ⟨_, .unclosed known free ?_ isPartial complete⟩
        intro tag isTag
        rw [List.mem_singleton.mp isTag]
        exact open_
      | some i =>
        rcases find_eq_some pair.closeTag.text_ne_nil closes with ⟨split, open_⟩
        have shorter : (rest.drop (i + pair.closeTag.text.length)).length < size := by
          rw [← sized]
          simp only [List.length_append, List.length_drop, Tag.text, List.length_cons]
          omega
        rcases ih _ shorter _ rfl with ⟨pieces, later⟩
        rw [split]
        refine ⟨_, .closed known free ?_ later⟩
        intro tag isTag
        rw [List.mem_singleton.mp isTag]
        exact open_

end HybridInference.Library.Tags
