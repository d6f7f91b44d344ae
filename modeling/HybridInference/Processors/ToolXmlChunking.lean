import HybridInference.Processors.ToolXmlCuts

/-!
# When the cuts of a text do not matter

Qwen loses whitespace of the text before a tool call where the last piece of it starts or ends
with whitespace. GLM shows a `</think>` that taking `<think>` out of a text puts together, if the
text is cut inside of it.
-/

namespace HybridInference.Processors

open Library
open Library.Tags

def untilToolCall (text : List Char) : List Char :=
  match find toolCallTag.text text with
  | some i => text.take i
  | none => text

/-- However a text is cut into chunks, a client gets the same content and calls, and all text before
the first call that is to be kept. -/
structure ChunkingIndependent (processor : XmlProcessor) (clean : List Char → List Char)
    (text : List Char) : Prop where
  same : ∀ first second, Cuts first text → Cuts second text →
    processor.emitted (first.map TextChunk.toChunk) =
      processor.emitted (second.map TextChunk.toChunk)
  interior : ∀ chunks, Cuts chunks text → ∃ emitted,
    processor.emitted (chunks.map TextChunk.toChunk) = .ok emitted ∧
      (Text.strip (clean (untilToolCall text))).Sublist emitted.content

theorem ChunkingIndependent.of_emitted {processor : XmlProcessor} {clean : List Char → List Char}
    {text : List Char} {emitted : Emitted}
    (emits : ∀ chunks, Cuts chunks text →
      processor.emitted (chunks.map TextChunk.toChunk) = .ok emitted)
    (interior : (Text.strip (clean (untilToolCall text))).Sublist emitted.content) :
    ChunkingIndependent processor clean text where
  same := by
    intro first second isFirst isSecond
    rw [emits first isFirst, emits second isSecond]
  interior := fun chunks cuts => ⟨emitted, emits chunks cuts, interior⟩

/-- The text has no tool call, or the whitespace before the first one is never the last
character there, and an angle bracket is among the 19 characters before it. -/
def QwenCutsSafely (text : List Char) : Prop :=
  toolCallTag.text <:+: text → ∀ front c back, untilToolCall text = front ++ c :: back →
    Text.isSpace c = true → back ≠ [] ∧ '<' ∈ front.drop (front.length - 19)

def givenBeforeEnd (text : List Char) : List Char :=
  match find toolCallTag.text text with
  | some i => text.take i
  | none => given text

/-- Taking `<think>` out puts no `</think>` together across an angle bracket. -/
def SplitsSafely (text : List Char) : Prop :=
  ∀ front back, text = front ++ '<' :: back →
    ¬thinkClose.Straddles (removeAll thinkOpen 0 front) (removeAll thinkOpen 0 ('<' :: back))

def GlmCutsSafely (text : List Char) : Prop := SplitsSafely (givenBeforeEnd text)

section Splitting

variable {text before after : List Char}

theorem untilToolCall_of_free (free : ¬toolCallTag.text <:+: text) : untilToolCall text = text := by
  rw [untilToolCall, (find_eq_none_iff toolCallTag.text_ne_nil).mpr free]

theorem untilToolCall_tag (free : ¬toolCallTag.text <:+: before) :
    untilToolCall (before ++ (toolCallTag.text ++ after)) = before := by
  rw [untilToolCall, find_tag free]
  exact List.take_left

theorem givenBeforeEnd_of_free (free : ¬toolCallTag.text <:+: text) :
    givenBeforeEnd text = given text := by
  rw [givenBeforeEnd, (find_eq_none_iff toolCallTag.text_ne_nil).mpr free]

theorem givenBeforeEnd_tag (free : ¬toolCallTag.text <:+: before) :
    givenBeforeEnd (before ++ (toolCallTag.text ++ after)) = before := by
  rw [givenBeforeEnd, find_tag free]
  exact List.take_left

theorem infix_tag (before after : List Char) :
    toolCallTag.text <:+: before ++ (toolCallTag.text ++ after) :=
  ⟨before, after, by simp⟩

end Splitting

section Qwen

variable {codec : JsonCodec} {text seen rest before after : List Char}

theorem composes_id (whole : List Char) : Composes id whole := by
  intro seen text _ _
  exact given_append seen text

theorem qwen_pieces (safely : QwenCutsSafely (before ++ (toolCallTag.text ++ after)))
    (free : ¬toolCallTag.text <:+: seen) (freeBefore : ¬toolCallTag.text <:+: before)
    (split : seen ++ rest = before ++ (toolCallTag.text ++ after)) :
    given seen ++ Text.strip (before.drop (given seen).length) = before := by
  rcases exists_given free split with ⟨more, isBefore, isRest⟩
  have whitespace := safely (infix_tag before after)
  rw [untilToolCall_tag freeBefore] at whitespace
  have unstripped : Text.strip more = more := by
    apply Text.strip_eq_self
    · rintro c back rfl space
      have bracket := (whitespace (given seen) c back isBefore space).2
      rcases safeIndex_cases 20 seen with ⟨others, held⟩ | ⟨whole, -⟩
      · change pending seen = '<' :: others at held
        rw [held, List.cons_append, List.cons_append, List.cons.injEq] at isRest
        rw [← isRest.1] at space
        exact absurd space (by decide)
      · have isSeen : given seen = seen := by rw [given, whole, List.take_length]
        rw [isSeen] at bracket
        exact (safeIndex_eq_length_iff 19 seen).mp whole bracket
    · rintro front c rfl space
      have split : before = (given seen ++ front) ++ c :: [] := by
        rw [isBefore, List.append_assoc]
      exact (whitespace _ c [] split space).1 rfl
  rw [isBefore, List.drop_left, unstripped]

theorem qwenCutsSafely_of_same (freeBefore : ¬toolCallTag.text <:+: before)
    (pieces : ∀ seen, seen <+: before ++ (toolCallTag.text ++ after) → ¬toolCallTag.text <:+: seen →
        given seen ++ Text.strip (before.drop (given seen).length) = before) :
    QwenCutsSafely (before ++ (toolCallTag.text ++ after)) := by
  intro _ front c back isBefore space
  rw [untilToolCall_tag freeBefore] at isBefore
  have whole := pieces [] List.nil_prefix (by decide)
  rw [given, List.take_nil, List.nil_append, List.length_nil, List.drop_zero] at whole
  constructor
  · rintro rfl
    have shorter : Text.strip before = Text.strip front := by
      rw [isBefore, Text.strip_append_of_space space]
    have lengths := congrArg List.length isBefore
    have bound := Text.length_strip_le front
    rw [← shorter, whole] at bound
    rw [List.length_append, List.length_singleton] at lengths
    omega
  · by_contra missing
    have isSafe := (safeIndex_eq_length_iff 19 front).mpr missing
    have isGiven : given front = front := by rw [given, isSafe, List.take_length]
    have inFront : front <+: before := by
      rw [isBefore]
      exact List.prefix_append _ _
    have same := pieces front (inFront.trans (List.prefix_append _ _))
      fun inside => freeBefore (inside.trans inFront.isInfix)
    rw [isGiven] at same
    nth_rewrite 1 [isBefore] at same
    rw [List.drop_left, Text.strip_cons_of_space space] at same
    have lengths := congrArg List.length (same.trans isBefore)
    have bound := Text.length_strip_le back
    rw [List.length_append, List.length_append, List.length_cons] at lengths
    omega

theorem qwen_independent_of_free (free : ¬toolCallTag.text <:+: text) :
    ChunkingIndependent (qwenCoder codec) id text := by
  have emits := fun chunks cuts => @emitted_free _ _ _ _ _ chunks text (qwenCoder_absorbing codec)
    cuts (composes_id text) free
  apply ChunkingIndependent.of_emitted emits
  have same := @Text.strip_append_strip (pending text) (given text)
    (dropWhile_drop_safeIndex 20 text)
  rw [given_append_pending] at same
  rw [untilToolCall_of_free free, id, ← same]
  exact Text.strip_sublist _

theorem qwen_independent_iff (codec : JsonCodec) (text : List Char) :
    ChunkingIndependent (qwenCoder codec) id text ↔ QwenCutsSafely text := by
  by_cases free : ¬toolCallTag.text <:+: text
  · exact ⟨fun _ inside => absurd inside free, fun _ => qwen_independent_of_free free⟩
  · rcases exists_append_tag (not_not.mp free) with ⟨before, after, rfl, freeBefore⟩
    constructor
    · intro independent
      have emits := fun seen rest freeSeen split => @emitted_halves_tag _ _ _ _ _ before after
        (qwenCoder_absorbing codec) seen rest freeSeen freeBefore split
      have cutAtTag : (before ++ ['<']) ++ (toolCallTag.rest ++ after) =
          before ++ (toolCallTag.text ++ after) := by
        simp [Tag.text]
      have atTag := emits _ _ (free_append_bracket freeBefore) cutAtTag
      have cutsAtTag := cuts_halves (before ++ ['<']) (toolCallTag.rest ++ after)
      rw [cutAtTag] at cutsAtTag
      rw [given_append_bracket, List.drop_length] at atTag
      apply qwenCutsSafely_of_same freeBefore
      rintro seen ⟨rest, split⟩ freeSeen
      have cutsSeen := cuts_halves seen rest
      rw [split] at cutsSeen
      have same := independent.same _ _ cutsSeen cutsAtTag
      rw [atTag, emits seen rest freeSeen split, Except.ok.injEq, Emitted.mk.injEq,
        List.append_left_inj] at same
      simpa [Text.strip] using same.1
    · intro safely
      have emits : ∀ chunks, Cuts chunks (before ++ (toolCallTag.text ++ after)) →
          (qwenCoder codec).emitted (chunks.map TextChunk.toChunk) =
            .ok ⟨before ++ (parsed (parseQwenToolXml codec) (toolCallTag.text ++ after)).content,
              (parsed (parseQwenToolXml codec) (toolCallTag.text ++ after)).calls⟩ := by
        intro chunks cuts
        rcases emitted_tag (qwenCoder_absorbing codec) cuts (composes_id _) rfl freeBefore with
          ⟨seen, ⟨rest, split⟩, freeSeen, emitted⟩
        rw [emitted, id, qwen_pieces safely freeSeen freeBefore split]
      apply ChunkingIndependent.of_emitted emits
      rw [untilToolCall_tag freeBefore]
      exact (Text.strip_sublist before).trans (List.sublist_append_left before _)

end Qwen

section Glm

variable {codec : JsonCodec} {text seen rest before after front back more : List Char}

theorem withoutThinkTags_append_iff (apart : ¬thinkOpen.Straddles front back) :
    withoutThinkTags (front ++ back) = withoutThinkTags front ++ withoutThinkTags back ↔
      ¬thinkClose.Straddles (removeAll thinkOpen 0 front) (removeAll thinkOpen 0 back) := by
  unfold withoutThinkTags
  rw [removeAll_append apart]
  exact removeAll_append_iff

theorem not_straddles_given {tag : Tag} (fits : tag.rest.length ≤ 19)
    (inFront : back <+: pending seen ++ rest) : ¬tag.Straddles (given seen) back := by
  rcases safeIndex_cases 20 seen with ⟨others, held⟩ | ⟨whole, far, near, isSeen, plain, long⟩
  · change pending seen = '<' :: others at held
    rw [held, List.cons_append] at inFront
    intro straddles
    exact not_straddles_bracket (straddles.of_prefix inFront)
  · have isGiven : given seen = seen := by rw [given, whole, List.take_length]
    rw [isGiven, isSeen]
    apply not_straddles_of_plain plain (List.suffix_append far near)
    rcases long with long | rfl
    · left
      omega
    · exact Or.inr rfl

theorem glm_pieces (safe : SplitsSafely (given seen ++ (back ++ more)))
    (inFront : back ++ more <+: pending seen ++ rest) (later : ¬thinkOpen.Straddles back more) :
    withoutThinkTags (given seen ++ back) =
      withoutThinkTags (given seen) ++ withoutThinkTags back := by
  have isNext : back <+: pending seen ++ rest := (List.prefix_append back more).trans inFront
  apply (withoutThinkTags_append_iff (not_straddles_given (by decide) isNext)).mpr
  rcases safeIndex_cases 20 seen with ⟨others, held⟩ | ⟨whole, far, near, isSeen, plain, long⟩
  · change pending seen = '<' :: others at held
    cases back with
    | nil => exact not_straddles_nil
    | cons c tail =>
      rw [held, List.cons_append] at isNext
      obtain rfl := (List.cons_prefix_cons.mp isNext).1
      intro straddles
      apply safe (given seen) (tail ++ more) rfl
      rw [← List.cons_append, removeAll_append later]
      exact straddles.of_prefix (List.prefix_append _ _)
  · have isGiven : given seen = seen := by rw [given, whole, List.take_length]
    have lengths : thinkClose.rest.length + thinkOpen.rest.length = 13 := by decide
    rw [isGiven, isSeen]
    apply not_straddles_removeAll plain
    rcases long with long | rfl
    · left
      omega
    · exact Or.inr rfl

theorem glm_given_append (safe : SplitsSafely (given (seen ++ text) ++ more))
    (inFront : more <+: pending (seen ++ text) ++ rest) :
    withoutThinkTags (given (seen ++ text)) =
      withoutThinkTags (given seen) ++ withoutThinkTags (given (pending seen ++ text)) := by
  have apart := @not_straddles_given (seen ++ text) rest more thinkOpen (by decide) inFront
  rw [given_append] at safe apart ⊢
  rw [List.append_assoc] at safe
  apply @glm_pieces seen (text ++ rest) (given (pending seen ++ text)) more safe
  · have isHeld : pending seen ++ (text ++ rest) = given (pending seen ++ text) ++
        (pending (seen ++ text) ++ rest) := by
      rw [pending_append, ← List.append_assoc, ← List.append_assoc, given_append_pending]
    rw [isHeld]
    exact (List.prefix_append_right_inj _).mpr inFront
  · exact fun straddles => apart (straddles.of_suffix (List.suffix_append _ _))

theorem composes_of_safely (safely : GlmCutsSafely text) : Composes withoutThinkTags text := by
  rintro seen later ⟨rest, rfl⟩ free
  unfold GlmCutsSafely at safely
  by_cases freeText : ¬toolCallTag.text <:+: seen ++ later ++ rest
  · rw [givenBeforeEnd_of_free freeText, given_append] at safely
    exact glm_given_append safely (List.take_prefix _ _)
  · rcases exists_append_tag (not_not.mp freeText) with ⟨before, after, split, freeBefore⟩
    rw [split, givenBeforeEnd_tag freeBefore] at safely
    rcases exists_given free split with ⟨more, rfl, isRest⟩
    apply glm_given_append safely
    rw [isRest]
    exact List.prefix_append _ _

theorem withoutThinkTags_nil : withoutThinkTags [] = [] := rfl

theorem glm_safely_of_independent (independent :
    ChunkingIndependent (glm codec) withoutThinkTags text) : GlmCutsSafely text := by
  intro front back isGiven
  apply (withoutThinkTags_append_iff not_straddles_bracket).mp
  have cutsWhole := cuts_halves [] text
  rw [List.nil_append] at cutsWhole
  have atBracket : (front ++ ['<']) ++ back = front ++ '<' :: back := by simp
  by_cases free : ¬toolCallTag.text <:+: text
  · rw [givenBeforeEnd_of_free free] at isGiven
    have split : (front ++ ['<']) ++ (back ++ pending text) = text := by
      rw [← List.append_assoc, atBracket, ← isGiven, given_append_pending]
    have cutsHere := cuts_halves (front ++ ['<']) (back ++ pending text)
    rw [split] at cutsHere
    have later := given_append (front ++ ['<']) (back ++ pending text)
    rw [split, isGiven, given_append_bracket, List.append_right_inj] at later
    have same := independent.same _ _ cutsWhole cutsHere
    rw [emitted_halves_free (glm_absorbing codec) (by rwa [List.nil_append]),
      emitted_halves_free (glm_absorbing codec) (by rwa [split]), split, ← later,
      given_append_bracket, Except.ok.injEq, Emitted.mk.injEq] at same
    have contents := same.1
    rw [List.nil_append, List.append_left_inj] at contents
    change withoutThinkTags [] ++ withoutThinkTags (given text) = _ at contents
    rwa [withoutThinkTags_nil, List.nil_append, isGiven] at contents
  · rcases exists_append_tag (not_not.mp free) with ⟨before, after, rfl, freeBefore⟩
    rw [givenBeforeEnd_tag freeBefore] at isGiven
    have freeFront : ¬toolCallTag.text <:+: front := by
      intro inside
      apply freeBefore
      rw [isGiven]
      exact inside.trans (List.prefix_append _ _).isInfix
    have split : (front ++ ['<']) ++ (back ++ (toolCallTag.text ++ after)) =
        before ++ (toolCallTag.text ++ after) := by
      rw [← List.append_assoc, atBracket, ← isGiven]
    have cutsHere := cuts_halves (front ++ ['<']) (back ++ (toolCallTag.text ++ after))
    rw [split] at cutsHere
    have same := independent.same _ _ cutsWhole cutsHere
    rw [emitted_halves_tag (glm_absorbing codec) (by decide) freeBefore (List.nil_append _),
      emitted_halves_tag (glm_absorbing codec) (free_append_bracket freeFront) freeBefore split,
      given_append_bracket, Except.ok.injEq, Emitted.mk.injEq, List.append_left_inj] at same
    have contents := same.1
    change withoutThinkTags [] ++ withoutThinkTags (before.drop 0) = _ at contents
    rwa [withoutThinkTags_nil, List.nil_append, List.drop_zero, isGiven, List.drop_left] at contents

theorem strip_withoutThinkTags_sublist (text : List Char) :
    (Text.strip (withoutThinkTags text)).Sublist
      (withoutThinkTags (given text) ++ withoutThinkTags (pending text)) := by
  have isNext : pending text <+: pending text ++ [] := List.prefix_append _ _
  have apart := @not_straddles_given text [] (pending text) thinkOpen (by decide) isNext
  have whole : withoutThinkTags text = removeAll thinkClose 0 (removeAll thinkOpen 0 (given text) ++
        removeAll thinkOpen 0 (pending text)) := by
    rw [← removeAll_append apart, given_append_pending]
    rfl
  rw [whole]
  exact (Text.strip_sublist _).trans (removeAll_append_sublist thinkClose _ _)

theorem glm_independent_of_safely (safely : GlmCutsSafely text) :
    ChunkingIndependent (glm codec) withoutThinkTags text := by
  have composes := composes_of_safely safely
  by_cases free : ¬toolCallTag.text <:+: text
  · have emits := fun chunks cuts => @emitted_free _ _ _ _ _ chunks text (glm_absorbing codec)
      cuts composes free
    apply ChunkingIndependent.of_emitted emits
    rw [untilToolCall_of_free free]
    exact strip_withoutThinkTags_sublist text
  · rcases exists_append_tag (not_not.mp free) with ⟨before, after, rfl, freeBefore⟩
    unfold GlmCutsSafely at safely
    rw [givenBeforeEnd_tag freeBefore] at safely
    have emits : ∀ chunks, Cuts chunks (before ++ (toolCallTag.text ++ after)) →
        (glm codec).emitted (chunks.map TextChunk.toChunk) = .ok ⟨withoutThinkTags before ++
              (parsed (parseGlmToolXml codec) (toolCallTag.text ++ after)).content,
            (parsed (parseGlmToolXml codec) (toolCallTag.text ++ after)).calls⟩ := by
      intro chunks cuts
      rcases emitted_tag (glm_absorbing codec) cuts composes rfl freeBefore with
        ⟨seen, ⟨rest, split⟩, freeSeen, emitted⟩
      rcases exists_given freeSeen split with ⟨more, rfl, isRest⟩
      have joined := @glm_pieces seen rest more [] (by rwa [List.append_nil])
        (by rw [List.append_nil, isRest]; exact List.prefix_append _ _) not_straddles_nil
      rw [emitted, List.drop_left, ← joined]
    apply ChunkingIndependent.of_emitted emits
    rw [untilToolCall_tag freeBefore]
    exact (Text.strip_sublist _).trans (List.sublist_append_left _ _)

end Glm

/-- Exactly which texts may be cut anywhere. -/
theorem independent_of_chunking_iff (codec : JsonCodec) (text : List Char) :
    (ChunkingIndependent (qwenCoder codec) id text ↔ QwenCutsSafely text) ∧
      (ChunkingIndependent (glm codec) withoutThinkTags text ↔ GlmCutsSafely text) :=
  ⟨qwen_independent_iff codec text, glm_safely_of_independent, glm_independent_of_safely⟩

/-- A cut before a space loses the space. -/
theorem space_before_tool_call_is_lost :
    ¬ChunkingIndependent (qwenCoder ⟨fun _ => none, fun _ => "\x7b\x7d"⟩) id
      "one two<tool_call><function=run></function></tool_call>".toList := by
  intro independent
  have emits := independent.same
    (halves "one".toList " two<tool_call><function=run></function></tool_call>".toList)
    (halves "one two".toList "<tool_call><function=run></function></tool_call>".toList)
    (cuts_halves _ _) (cuts_halves _ _)
  exact absurd (congrArg (fun emitted => (emitted.toOption.map Emitted.content)) emits)
    (by decide +kernel)

end HybridInference.Processors
