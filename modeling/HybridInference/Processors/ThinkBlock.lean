import HybridInference.Processors.ReasoningResponse

/-!
# Hiding the thinking of a reply

`ThinkBlockProcessor` of `serving.adapters.processors` takes `<think>` blocks out of a reply.
It forwards a chunk that carries usage as it is, text included, and cuts only closed blocks out
of a reply that is not streamed.
-/

namespace HybridInference.Processors

open Library
open Library.Tags

def thinkTags : TagPair := ⟨"think".toList, by decide⟩

structure Hiding where
  buffer : List Char
  inThink : Bool
  modelId : String

def Hiding.fresh : Hiding := ⟨[], false, "unknown"⟩

structure Shown where
  pieces : List (List Char)
  inThink : Bool
  buffer : List Char

def shownPiece (text : List Char) : List (List Char) := if text.isEmpty then [] else [text]

def hideLoop : ℕ → Bool → List Char → Shown
  | 0, inThink, buffer => ⟨[], inThink, buffer⟩
  | rounds + 1, true, buffer =>
    match find thinkTags.closeTag.text buffer with
    | some i => hideLoop rounds false (buffer.drop (i + 8))
    | none => ⟨[], true, if 8 < buffer.length then buffer.drop (buffer.length - 8) else buffer⟩
  | rounds + 1, false, buffer =>
    match find thinkTags.openTag.text buffer with
    | some i =>
      let later := hideLoop rounds true (buffer.drop (i + 7))
      { later with pieces := shownPiece (buffer.take i) ++ later.pieces }
    | none =>
      let safe := safeIndex 8 buffer
      ⟨shownPiece (buffer.take safe), false, buffer.drop safe⟩

/-- `ThinkBlockProcessor.process_stream_chunk`. -/
def hideInChunk (state : Hiding) (chunk : Chunk) : Hiding × List Chunk :=
  match chunk.choices with
  | [] => (state, [chunk])
  | choice :: _ =>
    if (choice.delta.get "tool_calls").isTruthy then (state, [chunk])
    else if (choice.delta.get "reasoning_content").isTruthy ||
        (choice.delta.get "reasoning").isTruthy || (choice.delta.get "thinking").isTruthy then
      (state, [chunk])
    else if !chunk.usage.isNull then (state, [chunk])
    else
      match choice.delta.text "content" with
      | none => (state, signalsOf chunk)
      | some content =>
        let buffer := state.buffer ++ content.toList
        let shown := hideLoop (buffer.length + 1) state.inThink buffer
        (⟨shown.buffer, shown.inThink, chunk.model.getD state.modelId⟩,
          if shown.pieces.isEmpty then signalsOf chunk
          else shown.pieces.map (withContent chunk))

/-- `_THINK_RE.sub("", text)`. -/
def withoutThink (text : List Char) : List Char := (removeClosed [thinkTags] 0 text).1

def hideFlush (state : Hiding) : List Chunk :=
  if state.buffer.isEmpty || state.inThink then []
  else
    let text := Text.strip (withoutThink state.buffer)
    if text.isEmpty then [] else [standaloneChunk state.modelId "content" (String.ofList text)]

/-- `ThinkBlockProcessor.process_response`, of the message of the first choice. -/
def hideInResponse (message : Message) : Message :=
  match message.content with
  | none => message
  | some content =>
    if content.isEmpty then message
    else
      { message with
        content := some (String.ofList (Text.strip (withoutThink content.toList))) }

def hideRun (state : Hiding) : List Chunk → Hiding × List Chunk
  | [] => (state, [])
  | chunk :: rest =>
    let (after, first) := hideInChunk state chunk
    let (last, later) := hideRun after rest
    (last, first ++ later)

def shownOf (chunks : List Chunk) : List Char :=
  textAt .outside (((hideRun .fresh chunks).2 ++ hideFlush (hideRun .fresh chunks).1).flatMap
    Chunk.letters)

def visible (inThink : Bool) (text : List Char) : List Char :=
  textAt .outside (scan [thinkTags] (if inThink then some thinkTags.closeTag else none) 0 text)

section Visible

variable {before inner after held text : List Char}

theorem visible_open (free : ¬thinkTags.openTag.text <:+: before) :
    visible false (before ++ (thinkTags.openTag.text ++ after)) = before ++ visible true after := by
  have noOpen : Free ([thinkTags].map TagPair.openTag) before := free_singleton_iff.mpr free
  have scanned : scan [thinkTags] none 0 (before ++ (thinkTags.openTag.text ++ after)) = _ :=
    scan_outside_tag noOpen thinkTags.openTag
  rw [scan_open (List.mem_singleton_self _)] at scanned
  unfold visible
  rw [if_neg Bool.false_ne_true, if_pos rfl, scanned, textAt_append, textAt_lettersAt, if_pos rfl]

theorem visible_close (free : ¬thinkTags.closeTag.text <:+: inner) :
    visible true (inner ++ (thinkTags.closeTag.text ++ after)) = visible false after := by
  unfold visible
  rw [if_pos rfl, if_neg Bool.false_ne_true, scan_inside_tag (free_singleton_iff.mpr free),
    textAt_append, textAt_lettersAt, if_neg (by decide), List.nil_append]

theorem visible_outside (free : NoneStarts [thinkTags.openTag] before after) :
    visible false (before ++ after) = before ++ visible false after := by
  have noOpen : NoneStarts ([thinkTags].map TagPair.openTag) before after := free
  unfold visible
  rw [if_neg Bool.false_ne_true, scan_outside noOpen, textAt_append, textAt_lettersAt, if_pos rfl]

theorem visible_free (free : ¬thinkTags.openTag.text <:+: text) : visible false text = text := by
  have noOpen : Free ([thinkTags].map TagPair.openTag) text := free_singleton_iff.mpr free
  unfold visible
  rw [if_neg Bool.false_ne_true, scan_free noOpen, textAt_lettersAt, if_pos rfl]

theorem visible_inside (free : ¬thinkTags.closeTag.text <:+: before ++ held)
    (long : held.length = 8) :
    visible true (before ++ (held ++ after)) = visible true (held ++ after) := by
  have closeLength : thinkTags.closeTag.text.length = 8 := by decide
  unfold visible
  rw [if_pos rfl, scan_inside, textAt_append, textAt_lettersAt, if_neg (by decide), List.nil_append]
  · rintro skipped tail rfl nonempty tag known inFront
    obtain rfl := List.mem_singleton.mp known
    rw [← List.append_assoc] at inFront
    have short : thinkTags.closeTag.text <+: tail ++ held := by
      apply List.prefix_of_prefix_length_le inFront (List.prefix_append _ _)
      rw [List.length_append, closeLength]
      omega
    rw [List.append_assoc] at free
    exact free (short.isInfix.trans (List.suffix_append _ _).isInfix)
  · rintro skipped tail rfl nonempty inFront
    have shorter := inFront.length_le
    have positive := List.length_pos_iff.mpr nonempty
    simp only [List.length_append] at shorter
    omega

theorem visible_unclosed (free : ¬thinkTags.closeTag.text <:+: text) : visible true text = [] := by
  rcases exists_held thinkTags.closeTag text with ⟨inner, held, rfl, isPartial, complete⟩
  have differ : held ≠ thinkTags.closeTag.text := by
    rintro rfl
    exact free (List.suffix_append _ _).isInfix
  have scanned : scan [thinkTags] _ 0 _ = _ :=
    scan_inside_held (free_singleton_iff.mpr free) complete []
  rw [List.append_nil, scan_held isPartial differ, List.append_nil] at scanned
  unfold visible
  rw [if_pos rfl, scanned, textAt_lettersAt, if_neg (by decide)]

end Visible

section Looping

variable {rounds : ℕ} {inThink : Bool} {buffer : List Char}

theorem shownPiece_flatten (text : List Char) : (shownPiece text).flatten = text := by
  cases text <;> simp [shownPiece]

theorem openTag_length : thinkTags.openTag.text.length = 7 := by decide

theorem closeTag_length : thinkTags.closeTag.text.length = 8 := by decide

theorem visible_hideLoop (rounds : ℕ) (inThink : Bool) (buffer rest : List Char) :
    (hideLoop rounds inThink buffer).pieces.flatten ++
        visible (hideLoop rounds inThink buffer).inThink
          ((hideLoop rounds inThink buffer).buffer ++ rest) =
      visible inThink (buffer ++ rest) := by
  induction rounds generalizing inThink buffer with
  | zero => cases inThink <;> rfl
  | succ rounds ih =>
    cases inThink with
    | true =>
      rw [hideLoop]
      cases found : find thinkTags.closeTag.text buffer with
      | some i =>
        rcases find_eq_some thinkTags.closeTag.text_ne_nil found with ⟨split, free⟩
        rw [closeTag_length] at split
        dsimp only
        rw [ih]
        nth_rewrite 2 [split]
        rw [List.append_assoc, List.append_assoc, visible_close free]
      | none =>
        have free := (find_eq_none_iff thinkTags.closeTag.text_ne_nil).mp found
        dsimp only
        rw [List.flatten_nil, List.nil_append]
        split_ifs with long
        · rw [← List.take_append_drop (buffer.length - 8) buffer] at free
          nth_rewrite 3 [← List.take_append_drop (buffer.length - 8) buffer]
          rw [List.append_assoc, visible_inside free]
          rw [List.length_drop]
          omega
        · rfl
    | false =>
      rw [hideLoop]
      cases found : find thinkTags.openTag.text buffer with
      | some i =>
        rcases find_eq_some thinkTags.openTag.text_ne_nil found with ⟨split, free⟩
        rw [openTag_length] at split
        dsimp only
        rw [List.flatten_append, shownPiece_flatten, List.append_assoc, ih]
        nth_rewrite 3 [split]
        rw [List.append_assoc, List.append_assoc, visible_open free]
      | none =>
        have free := (find_eq_none_iff thinkTags.openTag.text_ne_nil).mp found
        have fits : thinkTags.openTag.text.length ≤ 8 := by rw [openTag_length]; omega
        dsimp only
        nth_rewrite 5 [← List.take_append_drop (safeIndex 8 buffer) buffer]
        rw [shownPiece_flatten, List.append_assoc,
          visible_outside (noneStarts_safeIndex fits free rest)]

/-- What the processor holds back: no tag that it looks for, and outside of a block a text that
starts with a bracket, if any. -/
structure Withheld (inThink : Bool) (buffer : List Char) : Prop where
  inside : inThink = true → ¬thinkTags.closeTag.text <:+: buffer
  outside : inThink = false → ¬thinkTags.openTag.text <:+: buffer
  bracket : inThink = false → buffer.dropWhile Text.isSpace = buffer

theorem withheld_hideLoop (enough : buffer.length < rounds) :
    Withheld (hideLoop rounds inThink buffer).inThink (hideLoop rounds inThink buffer).buffer := by
  induction rounds generalizing inThink buffer with
  | zero => omega
  | succ rounds ih =>
    cases inThink with
    | true =>
      rw [hideLoop]
      cases found : find thinkTags.closeTag.text buffer with
      | some i =>
        have shorter := congrArg List.length (find_eq_some thinkTags.closeTag.text_ne_nil found).1
        simp only [List.length_append, closeTag_length] at shorter
        apply ih
        omega
      | none =>
        have free := (find_eq_none_iff thinkTags.closeTag.text_ne_nil).mp found
        dsimp only
        refine ⟨fun _ inside => free ?_, by simp, by simp⟩
        split_ifs at inside
        · exact inside.trans (List.drop_suffix _ _).isInfix
        · exact inside
    | false =>
      rw [hideLoop]
      cases found : find thinkTags.openTag.text buffer with
      | some i =>
        have shorter := congrArg List.length (find_eq_some thinkTags.openTag.text_ne_nil found).1
        simp only [List.length_append, openTag_length] at shorter
        apply ih
        rw [List.length_drop]
        omega
      | none =>
        have free := (find_eq_none_iff thinkTags.openTag.text_ne_nil).mp found
        refine ⟨by simp, fun _ inside => free ?_, fun _ => dropWhile_drop_safeIndex 8 buffer⟩
        exact inside.trans (List.drop_suffix _ _).isInfix

end Looping

section Hiding

variable {state : Hiding} {chunk : TextChunk}

theorem hideInChunk_of_usage (usage : chunk.usage.isNull = false) :
    hideInChunk state chunk.toChunk = (state, [chunk.toChunk]) := by
  simp [hideInChunk, TextChunk.toChunk, get_textDelta, Value.isTruthy, usage]

theorem hideInChunk_of_plain (plain : chunk.usage.isNull = true) : hideInChunk state chunk.toChunk =
      (⟨(hideLoop ((state.buffer ++ chunk.text.toList).length + 1) state.inThink
            (state.buffer ++ chunk.text.toList)).buffer,
          (hideLoop ((state.buffer ++ chunk.text.toList).length + 1) state.inThink
            (state.buffer ++ chunk.text.toList)).inThink, chunk.model.getD state.modelId⟩,
        if (hideLoop ((state.buffer ++ chunk.text.toList).length + 1) state.inThink
            (state.buffer ++ chunk.text.toList)).pieces.isEmpty then signalsOf chunk.toChunk
        else (hideLoop ((state.buffer ++ chunk.text.toList).length + 1) state.inThink
            (state.buffer ++ chunk.text.toList)).pieces.map (withContent chunk.toChunk)) := by
  simp [hideInChunk, TextChunk.toChunk, Delta.text, get_textDelta, Value.isTruthy, plain]

theorem textAt_withContents (chunk : TextChunk) (pieces : List (List Char)) :
    textAt .outside ((if pieces.isEmpty then signalsOf chunk.toChunk
      else pieces.map (withContent chunk.toChunk)).flatMap Chunk.letters) = pieces.flatten := by
  split_ifs with nothing
  · rw [letters_signalsOf, List.isEmpty_iff.mp nothing]
    rfl
  · clear nothing
    induction pieces with
    | nil => rfl
    | cons piece rest ih =>
      rw [List.map_cons, List.flatMap_cons, textAt_append, letters_withContent,
        textAt_lettersAt, if_pos rfl, ih, List.flatten_cons]

def RawTextVisible (state : Hiding) (chunks : List TextChunk) : Prop :=
  ∀ before chunk after, chunks = before ++ chunk :: after → chunk.usage.isNull = false →
    chunk.text.toList = [] ∨ (hideRun state (before.map TextChunk.toChunk)).1.inThink = false ∧
        (hideRun state (before.map TextChunk.toChunk)).1.buffer = [] ∧
        NoneStarts [thinkTags.openTag] chunk.text.toList (textOf after)

theorem hideRun_cons (chunk : Chunk) (rest : List Chunk) : hideRun state (chunk :: rest) =
      ((hideRun (hideInChunk state chunk).1 rest).1,
        (hideInChunk state chunk).2 ++ (hideRun (hideInChunk state chunk).1 rest).2) := rfl

theorem RawTextVisible.tail {rest : List TextChunk}
    (visible : RawTextVisible state (chunk :: rest)) :
    RawTextVisible (hideInChunk state chunk.toChunk).1 rest := by
  intro before later after split usage
  exact visible (chunk :: before) later after (by rw [split, List.cons_append]) usage

theorem withheld_hideInChunk (withheld : Withheld state.inThink state.buffer) :
    Withheld (hideInChunk state chunk.toChunk).1.inThink
      (hideInChunk state chunk.toChunk).1.buffer := by
  cases plain : chunk.usage.isNull with
  | false =>
    rw [hideInChunk_of_usage plain]
    exact withheld
  | true =>
    rw [hideInChunk_of_plain plain]
    exact withheld_hideLoop (Nat.lt_succ_self _)

theorem withheld_hideRun (chunks : List TextChunk)
    (withheld : Withheld state.inThink state.buffer) :
    Withheld (hideRun state (chunks.map TextChunk.toChunk)).1.inThink
      (hideRun state (chunks.map TextChunk.toChunk)).1.buffer := by
  induction chunks generalizing state with
  | nil => exact withheld
  | cons chunk rest ih =>
    exact ih (withheld_hideInChunk withheld)

theorem visible_hideInChunk {rest : List TextChunk} (raw : RawTextVisible state (chunk :: rest)) :
    textAt .outside ((hideInChunk state chunk.toChunk).2.flatMap Chunk.letters) ++
        visible (hideInChunk state chunk.toChunk).1.inThink
          ((hideInChunk state chunk.toChunk).1.buffer ++ textOf rest) =
      visible state.inThink (state.buffer ++ (chunk.text.toList ++ textOf rest)) := by
  cases plain : chunk.usage.isNull with
  | false =>
    rw [hideInChunk_of_usage plain, List.flatMap_singleton, letters_toChunk, textAt_lettersAt,
      if_pos rfl]
    rcases raw [] chunk rest rfl plain with empty | ⟨outside, nothing, free⟩
    · rw [empty]
      rfl
    · change state.inThink = false at outside
      change state.buffer = [] at nothing
      dsimp only
      rw [outside, nothing, List.nil_append, List.nil_append, visible_outside free]
  | true =>
    rw [hideInChunk_of_plain plain]
    dsimp only
    rw [textAt_withContents, visible_hideLoop, List.append_assoc]

/-- What a run has shown and withholds is what the whole text shows. -/
theorem visible_hideRun (chunks : List TextChunk) (raw : RawTextVisible state chunks) :
    textAt .outside ((hideRun state (chunks.map TextChunk.toChunk)).2.flatMap Chunk.letters) ++
        visible (hideRun state (chunks.map TextChunk.toChunk)).1.inThink
          (hideRun state (chunks.map TextChunk.toChunk)).1.buffer =
      visible state.inThink (state.buffer ++ textOf chunks) := by
  induction chunks generalizing state with
  | nil => simp [hideRun, textOf, textAt]
  | cons chunk rest ih =>
    have first := visible_hideInChunk raw
    rw [List.map_cons, hideRun_cons, List.flatMap_append, textAt_append, List.append_assoc,
      ih raw.tail, first]
    simp [textOf]

theorem textAt_hideFlush (withheld : Withheld state.inThink state.buffer) :
    textAt .outside ((hideFlush state).flatMap Chunk.letters) =
      Text.strip (visible state.inThink state.buffer) := by
  unfold hideFlush
  cases inThink : state.inThink with
  | true =>
    rw [visible_unclosed (withheld.inside inThink), Bool.or_true, if_pos rfl]
    rfl
  | false =>
    have free := withheld.outside inThink
    have kept := removeClosed_keep (free_singleton_iff.mpr free).noneStarts_end
    rw [List.append_nil] at kept
    rw [visible_free free, Bool.or_false]
    by_cases nothing : state.buffer = []
    · rw [nothing]
      rfl
    · have same : withoutThink state.buffer = state.buffer := by
        rw [withoutThink, kept]
        simp [removeClosed]
      rw [if_neg (by simpa using nothing), same]
      dsimp only
      split_ifs with blank
      · rw [List.isEmpty_iff] at blank
        rw [blank]
        rfl
      · rw [List.flatMap_singleton, (letters_standaloneChunk _ _).1, textAt_lettersAt,
          if_pos rfl, String.toList_ofList]

end Hiding

section Closing

variable {text : List Char} {pieces : List (Place × List Char)}

/-- A `</think>` follows every `<think>`. -/
def EveryThinkCloses (text : List Char) : Prop :=
  ∀ tail, tail <:+ text → thinkTags.openTag.text <+: tail → thinkTags.closeTag.text <:+: tail

theorem not_openTag_prefix_closeTag (after : List Char) :
    ¬thinkTags.openTag.text <+: thinkTags.closeTag.text ++ after := by
  intro inFront
  have short : thinkTags.openTag.text <+: thinkTags.closeTag.text :=
    List.prefix_of_prefix_length_le inFront (List.prefix_append _ _) (by decide)
  exact absurd short (by decide)

theorem everyThinkCloses_block {before inner after : List Char} (closes : EveryThinkCloses after) :
    EveryThinkCloses (before ++ (thinkTags.openTag.text ++
      (inner ++ (thinkTags.closeTag.text ++ after)))) := by
  intro tail suffix opens
  rcases suffix_append_cases suffix with suffix | ⟨part, -, -, rfl⟩
  · rcases suffix_append_cases suffix with suffix | ⟨part, -, -, rfl⟩
    · rcases suffix_append_cases suffix with suffix | ⟨part, -, -, rfl⟩
      · rcases suffix_append_cases suffix with suffix | ⟨part, isSuffix, nonempty, rfl⟩
        · exact closes tail suffix opens
        · rcases List.suffix_cons_iff.mp isSuffix with rfl | inRest
          · exact absurd opens (not_openTag_prefix_closeTag after)
          · cases part with
            | nil => exact absurd rfl nonempty
            | cons c more =>
              have isBracket := (List.cons_prefix_cons.mp opens).1
              have inClose := inRest.subset (List.mem_cons_self (a := c))
              rw [← isBracket] at inClose
              exact absurd inClose thinkTags.closeTag.plain
      · exact ⟨part, after, by simp⟩
    · exact ⟨part ++ inner, after, by simp⟩
  · exact ⟨part ++ thinkTags.openTag.text ++ inner, after, by simp⟩

theorem withoutThink_reading (reading : Reading [thinkTags] text pieces) :
    EveryThinkCloses text ∧ withoutThink text = textAt .outside (letters pieces) ∨
      ¬EveryThinkCloses text ∧ ∃ more, withoutThink text =
        textAt .outside (letters pieces) ++ (thinkTags.openTag.text ++ more) := by
  induction reading with
  | @plain text free =>
    left
    have noOpen := free_singleton_iff.mp free
    have kept := removeClosed_keep (free_singleton_iff.mpr noOpen).noneStarts_end
    rw [List.append_nil] at kept
    refine ⟨fun tail suffix opens => absurd (opens.isInfix.trans suffix.isInfix) noOpen, ?_⟩
    rw [withoutThink, kept]
    simp [letters, textAt_lettersAt, removeClosed]
  | @closed before inner after pair pieces known free open_ later ih =>
    obtain rfl := List.mem_singleton.mp known
    have cut := @removeClosed_keep_tag _ before (inner ++ (thinkTags.closeTag.text ++ after)) free
    rw [removeClosed_block (free_singleton_iff.mp open_)] at cut
    have kept : withoutThink (before ++ (thinkTags.openTag.text ++
        (inner ++ (thinkTags.closeTag.text ++ after)))) = before ++ withoutThink after := by
      rw [withoutThink, cut]
      rfl
    have outside : textAt .outside (letters ((.outside, before) :: (.inside, inner) :: pieces)) =
        before ++ textAt .outside (letters pieces) := by
      simp [letters, textAt_append, textAt_lettersAt]
    rw [kept, outside]
    rcases ih with ⟨closes, same⟩ | ⟨unclosed, more, same⟩
    · exact Or.inl ⟨everyThinkCloses_block closes, by rw [same]⟩
    · refine Or.inr ⟨fun closes => unclosed ?_, more, by rw [same, List.append_assoc]⟩
      intro tail suffix opens
      exact closes tail (suffix.trans ⟨before ++ thinkTags.openTag.text ++ inner ++
        thinkTags.closeTag.text, by simp⟩) opens
  | @unclosed before inner held pair known free open_ isPartial complete =>
    obtain rfl := List.mem_singleton.mp known
    right
    have noClose : ¬thinkTags.closeTag.text <:+: thinkTags.openTag.rest ++ (inner ++ held) := by
      intro inside
      exact free_singleton_iff.mp open_ (infix_of_plain thinkTags.openTag.plain inside)
    constructor
    · intro closes
      have inside := closes _ (List.suffix_append before _) (List.prefix_append _ (inner ++ held))
      rcases List.infix_cons_iff.mp inside with inFront | later
      · exact absurd (List.cons_prefix_cons.mp (List.cons_prefix_cons.mp inFront).2).1 (by decide)
      · exact noClose later
    · have cut := @removeClosed_keep_tag _ before (inner ++ held) free
      have unclosed : removeClosed [thinkTags] 0 (thinkTags.openTag.text ++ (inner ++ held)) =
          (thinkTags.openTag.text ++ (inner ++ held), []) := removeClosed_unclosed noClose
      refine ⟨inner ++ held, ?_⟩
      rw [withoutThink, cut, unclosed]
      simp [letters, textAt_append, textAt_lettersAt]

end Closing

/-- Nothing but the visible text of a reply is shown, streamed or not. -/
structure ThinkingHidden (chunks : List TextChunk) : Prop where
  streamed : Text.strip (shownOf (chunks.map TextChunk.toChunk)) =
    Text.strip (visible false (textOf chunks))
  response : Text.strip
      ((hideInResponse ⟨some (String.ofList (textOf chunks)), none⟩).content.getD "").toList =
    Text.strip (visible false (textOf chunks))

theorem strip_shownOf {chunks : List TextChunk} (raw : RawTextVisible .fresh chunks) :
    Text.strip (shownOf (chunks.map TextChunk.toChunk)) =
      Text.strip (visible false (textOf chunks)) := by
  have start : Withheld Hiding.fresh.inThink Hiding.fresh.buffer :=
    ⟨by simp [Hiding.fresh], fun _ => by decide, fun _ => rfl⟩
  have withheld := withheld_hideRun chunks start
  have shown := visible_hideRun chunks raw
  rw [shownOf, List.flatMap_append, textAt_append, textAt_hideFlush withheld]
  change _ = Text.strip (visible Hiding.fresh.inThink (Hiding.fresh.buffer ++ textOf chunks))
  rw [← shown]
  apply Text.strip_append_strip
  cases inThink : (hideRun .fresh (chunks.map TextChunk.toChunk)).1.inThink with
  | true =>
    rw [visible_unclosed (withheld.inside inThink)]
    rfl
  | false =>
    rw [visible_free (withheld.outside inThink)]
    exact withheld.bracket inThink

theorem strip_hideInResponse (text : List Char) :
    Text.strip ((hideInResponse ⟨some (String.ofList text), none⟩).content.getD "").toList =
      Text.strip (withoutThink text) := by
  unfold hideInResponse
  by_cases blank : (String.ofList text).isEmpty = true
  · have nothing : text = [] := by simpa using blank
    subst nothing
    rfl
  · dsimp only
    rw [if_neg blank, String.toList_ofList]
    simp [Text.strip_strip]

theorem strip_hideInResponse_iff (text : List Char) :
    Text.strip ((hideInResponse ⟨some (String.ofList text), none⟩).content.getD "").toList =
      Text.strip (visible false text) ↔ EveryThinkCloses text := by
  rw [strip_hideInResponse]
  rcases exists_reading [thinkTags] text with ⟨pieces, reading⟩
  have isVisible : visible false text = textAt .outside (letters pieces) := by
    rw [visible, if_neg Bool.false_ne_true, reading.scan_eq]
  rw [isVisible]
  rcases withoutThink_reading reading with ⟨closes, same⟩ | ⟨unclosed, more, same⟩
  · rw [same]
    exact iff_of_true rfl closes
  · refine iff_of_false (fun stripped => ?_) unclosed
    rw [same] at stripped
    have solids := congrArg List.length (congrArg Text.solid stripped)
    rw [Text.solid_strip, Text.solid_strip] at solids
    have bracket : Text.solid thinkTags.openTag.text ≠ [] := by decide +kernel
    have positive := List.length_pos_iff.mpr bracket
    simp only [Text.solid, List.filter_append, List.length_append] at solids positive
    omega

/-- Thinking stays hidden where every block is closed and a chunk with usage carries no text but
what is visible; an unclosed block always shows in a reply that is not streamed. -/
theorem thinking_hidden_iff_every_think_closes {chunks : List TextChunk}
    (raw : RawTextVisible .fresh chunks) :
    ThinkingHidden chunks ↔ EveryThinkCloses (textOf chunks) := by
  rw [← strip_hideInResponse_iff]
  exact ⟨fun hidden => hidden.response, fun response => ⟨strip_shownOf raw, response⟩⟩

def answerWithUsage : List TextChunk :=
  [⟨"<think>plan</think>The answer is", .null, .null, none⟩,
    ⟨" 42.", .str "stop", .obj [("total_tokens", .int 9)], none⟩]

theorem answer_with_usage_hides_thinking : ThinkingHidden answerWithUsage := by
  have raw : RawTextVisible .fresh answerWithUsage := by
    intro before chunk after split usage
    cases before with
    | nil =>
      rw [answerWithUsage, List.nil_append, List.cons.injEq] at split
      rw [← split.1] at usage
      contradiction
    | cons first others =>
      rw [answerWithUsage, List.cons_append, List.cons.injEq] at split
      rcases split with ⟨rfl, split⟩
      cases others with
      | nil =>
        rw [List.nil_append, List.cons.injEq] at split
        rcases split with ⟨rfl, rfl⟩
        refine Or.inr ⟨by decide, by decide, ?_⟩
        exact (free_singleton_iff.mpr (by decide)).noneStarts_end
      | cons second more =>
        simp at split
  have ends : EveryThinkCloses "The answer is 42.".toList := by
    intro tail suffix opens
    exact absurd (opens.isInfix.trans suffix.isInfix) (by decide)
  have closes : EveryThinkCloses (textOf answerWithUsage) :=
    @everyThinkCloses_block [] "plan".toList _ ends
  exact (thinking_hidden_iff_every_think_closes raw).mpr closes

/-- A chunk that carries usage shows its thinking. -/
theorem thinking_shown_with_usage : ¬ThinkingHidden
      [⟨"<think>plan</think>ok", .null, .obj [("total_tokens", .int 3)], none⟩] := by
  intro hidden
  exact absurd hidden.streamed (by decide +kernel)

end HybridInference.Processors
