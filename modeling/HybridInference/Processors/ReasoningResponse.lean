import HybridInference.Library.Strip
import HybridInference.Processors.ReasoningExtract

/-!
# Reasoning in a reply that is not streamed

`ReasoningExtractProcessor.process_response` cuts the closed blocks out of a reply and then
looks for an opening tag in what is left. It agrees with the stream unless the text around
blocks comes together to an opening tag.
-/

namespace HybridInference.Processors

open Library
open Library.Tags

structure Message where
  content : Option String
  reasoningContent : Option String

def closedAt (pairs : List TagPair) (text : List Char) : Option (List Char × ℕ) :=
  match pairs.find? fun pair => pair.openTag.text.isPrefixOf text with
  | none => none
  | some pair =>
    let after := text.drop pair.openTag.text.length
    (find pair.closeTag.text after).map fun i =>
      (after.take i, pair.openTag.text.length + i + pair.closeTag.text.length)

/-- `_nonstream_re.sub(_grab, content)`: the text without its closed blocks, and the text in
them, with some characters of a block still to pass. -/
def removeClosed (pairs : List TagPair) : ℕ → List Char → List Char × List (List Char)
  | _, [] => ([], [])
  | skip + 1, _ :: rest => removeClosed pairs skip rest
  | 0, c :: rest =>
    match closedAt pairs (c :: rest) with
    | some (inner, length) =>
      let (kept, reasonings) := removeClosed pairs (length - 1) rest
      (kept, inner :: reasonings)
    | none =>
      let (kept, reasonings) := removeClosed pairs 0 rest
      (c :: kept, reasonings)

def extracted (pairs : List TagPair) (content : List Char) : List Char × List (List Char) :=
  let (kept, reasonings) := removeClosed pairs 0 content
  match findOpen pairs kept with
  | none => (kept, reasonings)
  | some (i, pair) =>
    let tail := kept.drop (i + pair.openTag.text.length)
    (kept.take i, reasonings ++ [shown tail [pair.closeTag]])

/-- `process_response`, of the message of the first choice. -/
def processResponse (pairs : List TagPair) (message : Message) : Message :=
  match message.content with
  | none => message
  | some content =>
    if content.isEmpty then message
    else
      let (kept, reasonings) := extracted pairs content.toList
      if reasonings.isEmpty then message
      else
        { content := some (String.ofList (Text.strip kept))
          reasoningContent :=
            some (message.reasoningContent.getD "" ++
              String.ofList (Text.strip reasonings.flatten)) }

section Removing

variable {pair : TagPair} {before after inner held text : List Char}

theorem removeClosed_skip (pairs : List TagPair) (skipped rest : List Char) :
    removeClosed pairs skipped.length (skipped ++ rest) = removeClosed pairs 0 rest := by
  induction skipped with
  | nil => rfl
  | cons c others ih => rw [List.length_cons, List.cons_append, removeClosed, ih]

theorem closedAt_eq_none_of_not_prefix (notOpen : ¬pair.openTag.text <+: text) :
    closedAt [pair] text = none := by
  have missing : pair.openTag.text.isPrefixOf text = false := by
    rw [← Bool.not_eq_true, List.isPrefixOf_iff_prefix]
    exact notOpen
  simp [closedAt, missing]

theorem removeClosed_keep (free : NoneStarts [pair.openTag] before after) :
    removeClosed [pair] 0 (before ++ after) =
      (before ++ (removeClosed [pair] 0 after).1, (removeClosed [pair] 0 after).2) := by
  induction before with
  | nil => rfl
  | cons c rest ih =>
    rw [List.cons_append, removeClosed, closedAt_eq_none_of_not_prefix, ih free.tail]
    · rfl
    · exact free.front pair.openTag (List.mem_singleton_self _)

theorem removeClosed_keep_tag (free : Free [pair.openTag] before) :
    removeClosed [pair] 0 (before ++ (pair.openTag.text ++ after)) =
      (before ++ (removeClosed [pair] 0 (pair.openTag.text ++ after)).1,
        (removeClosed [pair] 0 (pair.openTag.text ++ after)).2) :=
  removeClosed_keep free.noneStarts_tag

theorem removeClosed_block (open_ : ¬pair.closeTag.text <:+: inner) :
    removeClosed [pair] 0 (pair.openTag.text ++ (inner ++ (pair.closeTag.text ++ after))) =
      ((removeClosed [pair] 0 after).1, inner :: (removeClosed [pair] 0 after).2) := by
  have closed : closedAt [pair] (pair.openTag.text ++ (inner ++ (pair.closeTag.text ++ after))) =
      some (inner, (pair.openTag.text ++ inner ++ pair.closeTag.text).length) := by
    simp [closedAt, find_tag open_, Nat.add_assoc]
  have skipped := removeClosed_skip [pair]
    (pair.openTag.rest ++ (inner ++ pair.closeTag.text)) after
  rw [Tag.text, List.cons_append] at closed ⊢
  rw [removeClosed, closed]
  have length : ('<' :: pair.openTag.rest ++ inner ++ pair.closeTag.text).length - 1 =
      (pair.openTag.rest ++ (inner ++ pair.closeTag.text)).length := by
    simp only [List.length_append, List.length_cons]
    omega
  have split : pair.openTag.rest ++ (inner ++ (pair.closeTag.text ++ after)) =
      pair.openTag.rest ++ (inner ++ pair.closeTag.text) ++ after := by
    simp
  dsimp only
  rw [length, split, skipped]

theorem closedAt_eq_none_of_unclosed {c : Char} {rest : List Char}
    (open_ : ¬pair.closeTag.text <:+: rest) : closedAt [pair] (c :: rest) = none := by
  unfold closedAt
  cases finds : [pair].find? fun pair => pair.openTag.text.isPrefixOf (c :: rest) with
  | none => rfl
  | some other =>
    obtain rfl := List.mem_singleton.mp (List.mem_of_find?_eq_some finds)
    have suffix : (c :: rest).drop other.openTag.text.length <:+ rest := by
      rw [Tag.text, List.length_cons, List.drop_succ_cons]
      exact List.drop_suffix _ _
    dsimp only
    rw [(find_eq_none_iff other.closeTag.text_ne_nil).mpr
      fun inside => open_ (inside.trans suffix.isInfix)]
    rfl

theorem removeClosed_unclosed {c : Char} {rest : List Char}
    (open_ : ¬pair.closeTag.text <:+: rest) :
    removeClosed [pair] 0 (c :: rest) = (c :: rest, []) := by
  induction rest generalizing c with
  | nil => rw [removeClosed, closedAt_eq_none_of_unclosed open_, removeClosed]
  | cons d others ih =>
    rw [removeClosed, closedAt_eq_none_of_unclosed open_, ih]
    rw [List.infix_cons_iff, not_or] at open_
    exact open_.2

end Removing

section Agreeing

variable {pair : TagPair} {text : List Char} {pieces : List (Place × List Char)}

def textAt (place : Place) (letters : List Letter) : List Char :=
  (letters.filter fun letter => letter.1 = place).map Prod.snd

theorem textAt_append (place : Place) (first second : List Letter) :
    textAt place (first ++ second) = textAt place first ++ textAt place second := by
  simp [textAt]

theorem textAt_lettersAt (place other : Place) (text : List Char) :
    textAt place (lettersAt other text) = if other = place then text else [] := by
  unfold textAt lettersAt
  rw [List.filter_map]
  by_cases same : other = place <;> simp [same, Function.comp_def]

inductive Rest (pair : TagPair) : List Char → List Char → Prop
  | nothing : Rest pair [] []
  | unclosed {inner held : List Char} (open_ : Free [pair.closeTag] (inner ++ held))
      (isPartial : held <+: pair.closeTag.text) (complete : NoPartial [pair.closeTag] inner held) :
      Rest pair (pair.openTag.text ++ (inner ++ held)) inner

theorem removeClosed_reading (reading : Reading [pair] text pieces) :
    ∃ tail inner, Rest pair tail inner ∧
      (removeClosed [pair] 0 text).1 = textAt .outside (letters pieces) ++ tail ∧
      (removeClosed [pair] 0 text).2.flatten ++ inner = textAt .inside (letters pieces) := by
  induction reading with
  | @plain text free =>
    have kept := removeClosed_keep (free.noneStarts_end : NoneStarts [pair.openTag] text [])
    rw [List.append_nil] at kept
    refine ⟨[], [], .nothing, ?_, ?_⟩
    · rw [kept]
      simp [letters, textAt_lettersAt, removeClosed]
    · rw [kept]
      simp [letters, textAt_lettersAt, removeClosed]
  | @closed before inner after other pieces known free open_ later ih =>
    obtain rfl := List.mem_singleton.mp known
    rcases ih with ⟨tail, left, rest, kept, reasoning⟩
    have cut := @removeClosed_keep_tag other before (inner ++ (other.closeTag.text ++ after)) free
    rw [removeClosed_block (free_singleton_iff.mp open_)] at cut
    refine ⟨tail, left, rest, ?_, ?_⟩
    · rw [cut, kept]
      simp [letters, textAt_append, textAt_lettersAt]
    · rw [cut]
      simp [letters, textAt_append, textAt_lettersAt, reasoning]
  | @unclosed before inner held other known free open_ isPartial complete =>
    obtain rfl := List.mem_singleton.mp known
    have cut := @removeClosed_keep_tag other before (inner ++ held) free
    have noClose : ¬other.closeTag.text <:+: other.openTag.rest ++ (inner ++ held) := by
      intro inside
      exact free_singleton_iff.mp open_ (infix_of_plain other.openTag.plain inside)
    have unclosed : removeClosed [other] 0 (other.openTag.text ++ (inner ++ held)) =
        (other.openTag.text ++ (inner ++ held), []) := removeClosed_unclosed noClose
    rw [unclosed] at cut
    refine ⟨_, inner, .unclosed open_ isPartial complete, ?_, ?_⟩
    · rw [cut]
      simp [letters, textAt_append, textAt_lettersAt]
    · rw [cut]
      simp [letters, textAt_append, textAt_lettersAt]

theorem findOpen_singleton (text : List Char) :
    findOpen [pair] text = (find pair.openTag.text text).map fun i => (i, pair) := by
  unfold findOpen
  rw [List.foldl_cons, List.foldl_nil]
  unfold earlier
  cases find pair.openTag.text text <;> rfl

theorem shown_eq {tag : Tag} {inner tail : List Char} (open_ : Free [tag] (inner ++ tail))
    (isPartial : tail <+: tag.text) (complete : NoPartial [tag] inner tail) :
    shown (inner ++ tail) [tag] = inner := by
  have whole := shown_append_held (inner ++ tail) [tag]
  rcases List.append_eq_append_iff.mp whole with ⟨more, isInner, isHeld⟩ | ⟨more, isShown, isTail⟩
  · by_cases nothing : more = []
    · rw [nothing, List.append_nil] at isInner
      exact isInner.symm
    · rcases held_eq_nil_or (inner ++ tail) [tag] with noHeld | ⟨other, known, isStart, differ⟩
      · rw [noHeld] at isHeld
        exact absurd (List.append_eq_nil_iff.mp isHeld.symm).1 nothing
      · rw [isHeld] at isStart differ
        exact absurd (complete _ more isInner nothing other known isStart) differ
  · by_cases nothing : more = []
    · rw [isShown, nothing, List.append_nil]
    · have isTag : tail = tag.text := by
        rw [isTail]
        apply noPartial_held (inner ++ tail) [tag] _ more isShown nothing tag
          (List.mem_singleton_self tag)
        rw [← isTail]
        exact isPartial
      apply absurd _ (free_singleton_iff.mp open_)
      rw [isTag]
      exact (List.suffix_append inner tag.text).isInfix

theorem extracted_of_free
    (free : ¬pair.openTag.text <:+: textAt .outside (scan [pair] none 0 text)) :
    (extracted [pair] text).1 = textAt .outside (scan [pair] none 0 text) ∧
      (extracted [pair] text).2.flatten = textAt .inside (scan [pair] none 0 text) := by
  rcases exists_reading [pair] text with ⟨pieces, reading⟩
  rcases removeClosed_reading reading with ⟨tail, inner, rest, kept, reasoning⟩
  rw [reading.scan_eq] at free ⊢
  unfold extracted
  dsimp only
  rw [findOpen_singleton, kept]
  cases rest with
  | nothing =>
    rw [List.append_nil] at reasoning ⊢
    rw [(find_eq_none_iff pair.openTag.text_ne_nil).mpr free]
    exact ⟨rfl, reasoning⟩
  | @unclosed inner held open_ isPartial complete =>
    rw [find_tag free]
    dsimp only [Option.map_some]
    constructor
    · exact List.take_left
    · have after : (textAt .outside (letters pieces) ++ (pair.openTag.text ++ (inner ++ held))).drop
          ((textAt .outside (letters pieces)).length + pair.openTag.text.length) =
          inner ++ held := by
        rw [← List.append_assoc, ← List.length_append, List.drop_left]
      rw [after, shown_eq open_ isPartial complete, List.flatten_append, ← reasoning]
      simp

theorem extracted_of_not_free
    (opens : pair.openTag.text <:+: textAt .outside (scan [pair] none 0 text)) :
    ∃ after, textAt .outside (scan [pair] none 0 text) =
      (extracted [pair] text).1 ++ (pair.openTag.text ++ after) := by
  rcases exists_reading [pair] text with ⟨pieces, reading⟩
  rcases removeClosed_reading reading with ⟨tail, inner, rest, kept, reasoning⟩
  rw [reading.scan_eq] at opens ⊢
  cases found : find pair.openTag.text (textAt .outside (letters pieces)) with
  | none => exact absurd opens ((find_eq_none_iff pair.openTag.text_ne_nil).mp found)
  | some i =>
    rcases find_eq_some pair.openTag.text_ne_nil found with ⟨split, -⟩
    refine ⟨(textAt .outside (letters pieces)).drop (i + pair.openTag.text.length), ?_⟩
    unfold extracted
    dsimp only
    rw [findOpen_singleton, kept, find_append found]
    dsimp only [Option.map_some]
    have short : i ≤ (textAt .outside (letters pieces)).length := by
      have lengths := congrArg List.length split
      have positive := List.length_pos_iff.mpr pair.openTag.text_ne_nil
      simp only [List.length_append, List.length_take] at lengths
      omega
    rw [List.take_append_of_le_length short]
    exact split

end Agreeing

/-- The reply that is not streamed is what the stream makes of the text, up to the whitespace
around both. -/
structure AgreesWithStream (pair : TagPair) (chunks : List TextChunk) : Prop where
  content : Text.strip ((processResponse [pair]
      ⟨some (String.ofList (textOf chunks)), none⟩).content.getD "").toList =
    Text.strip (textAt .outside
      ((streamed [pair] (chunks.map TextChunk.toChunk)).flatMap Chunk.letters))
  reasoning : Text.strip ((processResponse [pair]
      ⟨some (String.ofList (textOf chunks)), none⟩).reasoningContent.getD "").toList =
    Text.strip (textAt .inside
      ((streamed [pair] (chunks.map TextChunk.toChunk)).flatMap Chunk.letters))

theorem removeClosed_of_isEmpty {pairs : List TagPair} {text : List Char}
    (none_ : (removeClosed pairs 0 text).2 = []) : (removeClosed pairs 0 text).1 = text := by
  induction text with
  | nil => rfl
  | cons c rest ih =>
    rw [removeClosed] at none_ ⊢
    cases closed : closedAt pairs (c :: rest) with
    | none =>
      rw [closed] at none_
      exact congrArg (List.cons c) (ih none_)
    | some block =>
      rw [closed] at none_
      contradiction

theorem extracted_of_isEmpty {pairs : List TagPair} {text : List Char}
    (none_ : (extracted pairs text).2 = []) : (extracted pairs text).1 = text := by
  unfold extracted at none_ ⊢
  dsimp only at none_ ⊢
  cases opens : findOpen pairs (removeClosed pairs 0 text).1 with
  | none =>
    rw [opens] at none_
    exact removeClosed_of_isEmpty none_
  | some first =>
    rw [opens] at none_
    exact absurd none_ (by simp)

theorem strip_processResponse (pairs : List TagPair) (text : List Char) :
    Text.strip ((processResponse pairs ⟨some (String.ofList text), none⟩).content.getD "").toList =
        Text.strip (extracted pairs text).1 ∧
      Text.strip ((processResponse pairs
          ⟨some (String.ofList text), none⟩).reasoningContent.getD "").toList =
        Text.strip (extracted pairs text).2.flatten := by
  unfold processResponse
  by_cases blank : (String.ofList text).isEmpty = true
  · have nothing : text = [] := by simpa using blank
    subst nothing
    have empty : extracted pairs [] = ([], []) := by
      cases opens : findOpen pairs [] with
      | none => simp [extracted, removeClosed, opens]
      | some first =>
        have split := (findOpen_eq_some opens).2.1
        simp [Tag.text] at split
    rw [empty]
    exact ⟨rfl, rfl⟩
  · dsimp only
    rw [if_neg blank, String.toList_ofList]
    split_ifs with nothing
    · rw [List.isEmpty_iff] at nothing
      rw [nothing, extracted_of_isEmpty nothing]
      simp
    · simp [Text.strip_strip]

/-- A reply and its stream agree exactly when the text around the blocks does not come together
to an opening tag. -/
theorem extraction_agrees_with_stream_iff (chunks : List TextChunk) :
    AgreesWithStream mmThink chunks ↔
      ¬mmThink.openTag.text <:+: textAt .outside (scan [mmThink] none 0 (textOf chunks)) := by
  rcases strip_processResponse [mmThink] (textOf chunks) with ⟨content, reasoning⟩
  constructor
  · intro agrees opens
    rcases extracted_of_not_free opens with ⟨after, whole⟩
    have same := agrees.content
    rw [content, letters_streamed, whole] at same
    have solids := congrArg List.length (congrArg Text.solid same)
    rw [Text.solid_strip, Text.solid_strip] at solids
    have bracket : Text.solid mmThink.openTag.text ≠ [] := by decide +kernel
    have positive := List.length_pos_iff.mpr bracket
    simp only [Text.solid, List.filter_append, List.length_append] at solids positive
    omega
  · intro free
    rcases extracted_of_free free with ⟨kept, reasonings⟩
    refine ⟨?_, ?_⟩
    · rw [content, letters_streamed, kept]
    · rw [reasoning, letters_streamed, reasonings]

/-- A block cut out of the middle of an opening tag leaves a tag that only the stream keeps. -/
theorem tag_around_block_disagrees : ¬AgreesWithStream mmThink
      [⟨"<mm:th<mm:think>plan</mm:think>ink>answer", .null, .null, none⟩] := by
  intro agrees
  exact absurd agrees.content (by decide +kernel)

end HybridInference.Processors
