import HybridInference.Processors.ToolXml

/-!
# Cutting a text with tool calls into chunks

What a processor holds back depends only on the text so far, and so do the calls: they are
parsed from the text that starts with the first `<tool_call>`. The content does not: Qwen strips
the last piece before the tag, wherever it starts, and GLM takes its tags out of one piece
after the other.
-/

namespace HybridInference.Processors

open Library
open Library.Tags

def given (text : List Char) : List Char := text.take (safeIndex 20 text)

def pending (text : List Char) : List Char := text.drop (safeIndex 20 text)

def absorbAll (piece pre : List Char → List Char) (inToolMode : Bool) (buffer : List Char) :
    List (List Char) → List Char × List Char × Bool
  | [] => ([], buffer, inToolMode)
  | text :: rest =>
    let first := absorb piece pre inToolMode (buffer ++ text)
    let later := absorbAll piece pre first.2.2 first.2.1 rest
    (first.1 ++ later.1, later.2)

section Absorbing

variable {piece pre : List Char → List Char} {seen text before after rest : List Char}
  {texts : List (List Char)}

theorem given_append_pending (text : List Char) : given text ++ pending text = text :=
  List.take_append_drop _ _

theorem given_append (seen text : List Char) :
    given (seen ++ text) = given seen ++ given (pending seen ++ text) :=
  take_safeIndex_append 20 seen text

theorem pending_append (seen text : List Char) :
    pending (seen ++ text) = pending (pending seen ++ text) :=
  drop_safeIndex_append 20 seen text

theorem given_append_bracket (text : List Char) : given (text ++ ['<']) = text := by
  rw [given, safeIndex_of_bracket (by decide), List.take_left]

theorem noneStarts_given (free : ¬toolCallTag.text <:+: seen) (text : List Char) :
    NoneStarts [toolCallTag] (given seen) (pending seen ++ text) :=
  noneStarts_safeIndex (by decide) free text

theorem free_append_bracket (free : ¬toolCallTag.text <:+: text) :
    ¬toolCallTag.text <:+: text ++ ['<'] := by
  apply free_append_of_noneStarts (free_singleton_iff.mpr free).noneStarts_tag
  decide

theorem exists_given (free : ¬toolCallTag.text <:+: seen)
    (split : seen ++ text = before ++ (toolCallTag.text ++ after)) :
    ∃ more, before = given seen ++ more ∧
      pending seen ++ text = more ++ (toolCallTag.text ++ after) := by
  have whole : given seen ++ (pending seen ++ text) = before ++ (toolCallTag.text ++ after) := by
    rw [← List.append_assoc, given_append_pending, split]
  rcases List.append_eq_append_iff.mp whole with ⟨more, isBefore, isRest⟩ |
    ⟨more, isGiven, isTag⟩
  · exact ⟨more, isBefore, isRest⟩
  · by_cases nothing : more = []
    · refine ⟨[], ?_, ?_⟩
      · rw [isGiven, nothing, List.append_nil, List.append_nil]
      · rw [isTag, nothing]
        rfl
    · have starts := noneStarts_given free text before more isGiven nothing toolCallTag
        (List.mem_singleton_self toolCallTag)
      rw [← isTag] at starts
      exact absurd (List.prefix_append _ _) starts

theorem absorb_free (free : ¬toolCallTag.text <:+: seen ++ text) :
    absorb piece pre false (pending seen ++ text) =
      (piece (given (pending seen ++ text)), pending (seen ++ text), false) := by
  have inHeld : ¬toolCallTag.text <:+: pending seen ++ text := by
    intro inside
    apply free
    have whole := congrArg (· ++ text) (given_append_pending seen)
    simp only [List.append_assoc] at whole
    rw [← whole]
    exact inside.trans (List.suffix_append _ _).isInfix
  rw [absorb, if_neg Bool.false_ne_true, (find_eq_none_iff toolCallTag.text_ne_nil).mpr inHeld,
    pending_append]
  rfl

theorem absorb_tag (free : ¬toolCallTag.text <:+: seen) (freeBefore : ¬toolCallTag.text <:+: before)
    (split : seen ++ text = before ++ (toolCallTag.text ++ after)) :
    absorb piece pre false (pending seen ++ text) =
      (pre (before.drop (given seen).length), toolCallTag.text ++ after, true) := by
  rcases exists_given free split with ⟨more, rfl, held⟩
  have freeMore : ¬toolCallTag.text <:+: more :=
    fun inside => freeBefore (inside.trans (List.suffix_append _ _).isInfix)
  rw [absorb, if_neg Bool.false_ne_true, held, find_tag freeMore]
  dsimp only
  rw [List.take_left, List.drop_left, List.drop_left]

theorem absorbAll_inToolMode (buffer : List Char) (texts : List (List Char)) :
    absorbAll piece pre true buffer texts = ([], buffer ++ texts.flatten, true) := by
  induction texts generalizing buffer with
  | nil => simp [absorbAll]
  | cons text rest ih =>
    rw [absorbAll, absorb, if_pos rfl]
    rw [ih, List.flatten_cons, List.append_assoc]
    rfl

def Composes (piece : List Char → List Char) (whole : List Char) : Prop :=
  ∀ seen text, seen ++ text <+: whole → ¬toolCallTag.text <:+: seen ++ text →
    piece (given (seen ++ text)) = piece (given seen) ++ piece (given (pending seen ++ text))

theorem absorbAll_free (composes : Composes piece (seen ++ texts.flatten))
    (free : ¬toolCallTag.text <:+: seen ++ texts.flatten) :
    piece (given seen) ++ (absorbAll piece pre false (pending seen) texts).1 =
        piece (given (seen ++ texts.flatten)) ∧
      (absorbAll piece pre false (pending seen) texts).2 =
        (pending (seen ++ texts.flatten), false) := by
  induction texts generalizing seen with
  | nil => simp [absorbAll]
  | cons text rest ih =>
    rw [List.flatten_cons, ← List.append_assoc] at free composes ⊢
    have freeText : ¬toolCallTag.text <:+: seen ++ text :=
      fun inside => free (inside.trans (List.prefix_append _ _).isInfix)
    have first := composes seen text (List.prefix_append _ _) freeText
    rw [absorbAll, absorb_free freeText]
    rw [← List.append_assoc, ← first]
    exact ih composes free

theorem absorbAll_tag (composes : Composes piece (seen ++ texts.flatten))
    (free : ¬toolCallTag.text <:+: seen) (freeBefore : ¬toolCallTag.text <:+: before)
    (split : seen ++ texts.flatten = before ++ (toolCallTag.text ++ after)) :
    ∃ last, last <+: seen ++ texts.flatten ∧ ¬toolCallTag.text <:+: last ∧
      piece (given seen) ++ (absorbAll piece pre false (pending seen) texts).1 =
        piece (given last) ++ pre (before.drop (given last).length) ∧
      (absorbAll piece pre false (pending seen) texts).2 = (toolCallTag.text ++ after, true) := by
  induction texts generalizing seen with
  | nil =>
    rw [List.flatten_nil, List.append_nil] at split
    apply absurd _ free
    rw [split]
    exact ⟨before, after, by simp⟩
  | cons text rest ih =>
    rw [List.flatten_cons, ← List.append_assoc] at split composes ⊢
    by_cases freeText : ¬toolCallTag.text <:+: seen ++ text
    · have first := composes seen text (List.prefix_append _ _) freeText
      rw [absorbAll, absorb_free freeText]
      dsimp only
      rw [← List.append_assoc, ← first]
      exact ih composes freeText split
    · rcases exists_append_tag (not_not.mp freeText) with ⟨front, back, isText, freeFront⟩
      have again := split
      rw [isText, List.append_assoc, List.append_assoc] at again
      rcases append_tag_inj freeFront freeBefore again with ⟨rfl, isAfter⟩
      refine ⟨seen, ?_, free, ?_⟩
      · rw [List.append_assoc]
        exact List.prefix_append _ _
      · rw [absorbAll, absorb_tag free freeFront isText]
        dsimp only
        rw [absorbAll_inToolMode, List.append_nil, List.append_assoc, isAfter]
        exact ⟨rfl, rfl⟩

end Absorbing

section Streaming

def TextOnly (chunk : TextChunk) : Prop := chunk.finishReason = .null ∧ chunk.usage = .null

def Cuts (chunks : List TextChunk) (text : List Char) : Prop :=
  (∀ chunk ∈ chunks, TextOnly chunk) ∧ textOf chunks = text

/-- What a processor does with chunks that carry only text, and with its buffer at the end. -/
structure Absorbing (processor : XmlProcessor) (piece pre last : List Char → List Char)
    (parse : List Char → List ToolCall) : Prop where
  fresh : processor.fresh.buffer = [] ∧ processor.fresh.inToolMode = false
  chunk : ∀ state chunk, TextOnly chunk → processor.streamChunk state chunk.toChunk =
    .ok (absorbChunk piece pre state chunk.toChunk chunk.text)
  flush : processor.flush = flushXml parse last
  nothing : last [] = []

variable {processor : XmlProcessor} {piece pre last : List Char → List Char}
  {parse : List Char → List ToolCall} {codec : JsonCodec} {state : XmlState} {chunk : TextChunk}
  {chunks : List TextChunk} {text before after : List Char}

theorem noteFinishReason_of_textOnly (plain : TextOnly chunk) :
    noteFinishReason state ⟨textDelta "content" chunk.text, chunk.finishReason⟩ = state := by
  rw [noteFinishReason, plain.1]
  rfl

theorem find_textDelta (field text : String) :
    (textDelta field text).find field = some (.str text) := by
  rw [textDelta, Dict.find_insert, if_pos rfl]

theorem glm_absorbing (codec : JsonCodec) :
    Absorbing (glm codec) withoutThinkTags withoutThinkTags withoutThinkTags
      (parseGlmToolXml codec) := by
  refine ⟨⟨rfl, rfl⟩, ?_, rfl, rfl⟩
  intro state chunk plain
  have step : (glm codec).streamChunk state chunk.toChunk = glmStreamChunk state
    ⟨[⟨textDelta "content" chunk.text, chunk.finishReason⟩], chunk.usage, chunk.model⟩ := rfl
  rw [step, glmStreamChunk]
  dsimp only
  rw [find_textDelta, noteFinishReason_of_textOnly plain]
  rfl

theorem qwenCoder_absorbing (codec : JsonCodec) :
    Absorbing (qwenCoder codec) id Text.strip Text.strip (parseQwenToolXml codec) := by
  refine ⟨⟨rfl, rfl⟩, ?_, rfl, rfl⟩
  intro state chunk plain
  have step : (qwenCoder codec).streamChunk state chunk.toChunk = .ok (qwenStreamChunk state
    ⟨[⟨textDelta "content" chunk.text, chunk.finishReason⟩], chunk.usage, chunk.model⟩) := rfl
  rw [step, qwenStreamChunk]
  dsimp only
  have noCalls : ((textDelta "content" chunk.text).get "tool_calls").isTruthy = false := by
    rfl
  rw [noCalls, if_neg Bool.false_ne_true, Delta.text, get_textDelta, if_pos rfl,
    noteFinishReason_of_textOnly plain]
  rfl

theorem content_withContent (chunk : TextChunk) (text : List Char) :
    (withContent chunk.toChunk text).content = text := by
  have content : (withContent chunk.toChunk text).content =
    ((Delta.text (AList.insert "content" (.str (String.ofList text))
      (textDelta "content" chunk.text)) "content").getD "").toList := rfl
  rw [content, Delta.text, get_insert, if_pos rfl]
  simp

theorem signalsOf_textOnly (plain : TextOnly chunk) : signalsOf chunk.toChunk = [] := by
  simp [signalsOf, hasStreamSignals, TextChunk.toChunk, plain.1, plain.2, Value.isNull,
    Value.isTruthy]

theorem content_absorbChunk (plain : TextOnly chunk) :
    (absorbChunk piece pre state chunk.toChunk chunk.text).2.flatMap Chunk.content =
      (absorb piece pre state.inToolMode (state.buffer ++ chunk.text.toList)).1 := by
  rw [absorbChunk]
  dsimp only
  split_ifs with nothing
  · rw [signalsOf_textOnly plain, List.isEmpty_iff.mp nothing]
    rfl
  · rw [List.flatMap_singleton, content_withContent]

theorem run_cons_ok {other : Chunk} {rest first later : List Chunk} {middle finished : XmlState}
    (step : processor.streamChunk state other = .ok (middle, first))
    (ran : processor.run middle rest = .ok (finished, later)) :
    processor.run state (other :: rest) = .ok (finished, first ++ later) := by
  rw [XmlProcessor.run, step]
  dsimp only [bind, Except.bind]
  rw [ran]
  rfl

theorem run_absorbing (absorbing : Absorbing processor piece pre last parse)
    (plain : ∀ chunk ∈ chunks, TextOnly chunk) :
    ∃ after sent, processor.run state (chunks.map TextChunk.toChunk) = .ok (after, sent) ∧
      (sent.flatMap Chunk.content, after.buffer, after.inToolMode) =
        absorbAll piece pre state.inToolMode state.buffer
          (chunks.map fun chunk => chunk.text.toList) := by
  induction chunks generalizing state with
  | nil => exact ⟨state, [], rfl, rfl⟩
  | cons chunk rest ih =>
    have plainChunk := plain chunk List.mem_cons_self
    have plainRest := fun other inside => plain other (List.mem_cons_of_mem chunk inside)
    rcases @ih (absorbChunk piece pre state chunk.toChunk chunk.text).1 plainRest with
      ⟨after, sent, ran, same⟩
    refine ⟨after, (absorbChunk piece pre state chunk.toChunk chunk.text).2 ++ sent, ?_, ?_⟩
    · exact run_cons_ok (absorbing.chunk state chunk plainChunk) ran
    · rw [List.map_cons, absorbAll, List.flatMap_append, content_absorbChunk plainChunk]
      have laterSame := congrArg Prod.snd same
      have contentSame := congrArg Prod.fst same
      dsimp only at laterSame contentSame
      rw [contentSame, laterSame]
      rfl

theorem content_flushXml (nothing : last [] = []) (outside : state.inToolMode = false) :
    Emitted.ofStream [] (flushXml parse last state) = ⟨last state.buffer, []⟩ := by
  rw [flushXml, outside, if_neg Bool.false_ne_true]
  split_ifs with empty blank
  · rw [List.isEmpty_iff.mp empty, nothing]
    rfl
  · rw [List.isEmpty_iff.mp blank]
    rfl
  · rfl

def parsed (parse : List Char → List ToolCall) (text : List Char) : Emitted :=
  ⟨if (parse text).isEmpty then text else [],
    (parse text).map fun call => (call.name, call.arguments)⟩

theorem parsed_flushXml (inside : state.inToolMode = true) (some_ : state.buffer ≠ []) :
    Emitted.ofStream [] (flushXml parse last state) = parsed parse state.buffer := by
  unfold flushXml parsed
  rw [inside, if_neg (by simpa using some_), if_pos rfl]
  split_ifs with none_
  · rw [List.isEmpty_iff.mp none_]
    rfl
  · rfl

theorem emitted_of_run {start : XmlState} {sent : List Chunk} {emitted : Emitted}
    (ran : processor.run processor.fresh (chunks.map TextChunk.toChunk) = .ok (start, sent))
    (flushed : Emitted.ofStream [] (processor.flush start) = emitted) :
    processor.emitted (chunks.map TextChunk.toChunk) =
      .ok ⟨sent.flatMap Chunk.content ++ emitted.content, emitted.calls⟩ := by
  rw [XmlProcessor.emitted, ran, ← flushed]
  rfl

theorem emitted_outside (absorbing : Absorbing processor piece pre last parse)
    (plain : ∀ chunk ∈ chunks, TextOnly chunk) {out buffer : List Char}
    (absorbed : absorbAll piece pre false [] (chunks.map fun chunk => chunk.text.toList) =
      (out, buffer, false)) :
    processor.emitted (chunks.map TextChunk.toChunk) = .ok ⟨out ++ last buffer, []⟩ := by
  rcases @run_absorbing processor piece pre last parse processor.fresh chunks absorbing plain with
    ⟨finished, sent, ran, same⟩
  rw [absorbing.fresh.1, absorbing.fresh.2, absorbed, Prod.mk.injEq, Prod.mk.injEq] at same
  have flushed := @content_flushXml last parse finished absorbing.nothing same.2.2
  rw [← absorbing.flush] at flushed
  rw [emitted_of_run ran flushed, same.1, same.2.1]

theorem emitted_inToolMode (absorbing : Absorbing processor piece pre last parse)
    (plain : ∀ chunk ∈ chunks, TextOnly chunk) {out : List Char}
    (absorbed : absorbAll piece pre false [] (chunks.map fun chunk => chunk.text.toList) =
      (out, toolCallTag.text ++ after, true)) :
    processor.emitted (chunks.map TextChunk.toChunk) =
      .ok ⟨out ++ (parsed parse (toolCallTag.text ++ after)).content,
        (parsed parse (toolCallTag.text ++ after)).calls⟩ := by
  rcases @run_absorbing processor piece pre last parse processor.fresh chunks absorbing plain with
    ⟨finished, sent, ran, same⟩
  rw [absorbing.fresh.1, absorbing.fresh.2, absorbed, Prod.mk.injEq, Prod.mk.injEq] at same
  have some_ : finished.buffer ≠ [] := by
    rw [same.2.1]
    exact List.cons_ne_nil _ _
  have flushed := @parsed_flushXml last parse finished same.2.2 some_
  rw [← absorbing.flush] at flushed
  rw [emitted_of_run ran flushed, same.1, same.2.1]

theorem Composes.nil (composes : Composes piece text) : piece [] = [] := by
  have twice := composes [] [] (List.nil_prefix) (by decide)
  exact List.self_eq_append_right.mp twice

theorem emitted_free (absorbing : Absorbing processor piece pre last parse)
    (cuts : Cuts chunks text) (composes : Composes piece text)
    (free : ¬toolCallTag.text <:+: text) :
    processor.emitted (chunks.map TextChunk.toChunk) =
      .ok ⟨piece (given text) ++ last (pending text), []⟩ := by
  have isText : (chunks.map fun chunk => chunk.text.toList).flatten = text := cuts.2
  rcases @absorbAll_free piece pre [] (chunks.map fun chunk => chunk.text.toList)
    (by rwa [List.nil_append, isText]) (by rwa [List.nil_append, isText]) with ⟨out, buffer⟩
  rw [List.nil_append, isText] at out buffer
  apply emitted_outside absorbing cuts.1
  have noOut : piece (given []) = [] := composes.nil
  rw [noOut, List.nil_append] at out
  exact Prod.ext out buffer

theorem emitted_tag (absorbing : Absorbing processor piece pre last parse)
    (cuts : Cuts chunks text) (composes : Composes piece text)
    (split : text = before ++ (toolCallTag.text ++ after))
    (freeBefore : ¬toolCallTag.text <:+: before) :
    ∃ seen, seen <+: text ∧ ¬toolCallTag.text <:+: seen ∧
      processor.emitted (chunks.map TextChunk.toChunk) =
        .ok ⟨piece (given seen) ++ pre (before.drop (given seen).length) ++
            (parsed parse (toolCallTag.text ++ after)).content,
          (parsed parse (toolCallTag.text ++ after)).calls⟩ := by
  have isText : (chunks.map fun chunk => chunk.text.toList).flatten = text := cuts.2
  rcases @absorbAll_tag piece pre [] before after (chunks.map fun chunk => chunk.text.toList)
    (by rwa [List.nil_append, isText]) (by decide) freeBefore
    (by rw [List.nil_append, isText, split]) with ⟨seen, inFront, free, out, buffer⟩
  rw [List.nil_append, isText] at inFront
  have noOut : piece (given []) = [] := composes.nil
  rw [noOut, List.nil_append] at out
  exact ⟨seen, inFront, free, emitted_inToolMode absorbing cuts.1 (Prod.ext out buffer)⟩

def halves (seen rest : List Char) : List TextChunk :=
  [⟨String.ofList seen, .null, .null, none⟩, ⟨String.ofList rest, .null, .null, none⟩]

theorem cuts_halves (seen rest : List Char) : Cuts (halves seen rest) (seen ++ rest) := by
  refine ⟨?_, by simp [halves, textOf]⟩
  intro chunk inside
  rcases List.mem_pair.mp inside with rfl | rfl <;> exact ⟨rfl, rfl⟩

theorem texts_halves (seen rest : List Char) :
    (halves seen rest).map (fun chunk => chunk.text.toList) = [seen, rest] := by
  simp [halves]

theorem emitted_halves_free (absorbing : Absorbing processor piece pre last parse)
    {seen rest : List Char} (free : ¬toolCallTag.text <:+: seen ++ rest) :
    processor.emitted ((halves seen rest).map TextChunk.toChunk) =
      .ok ⟨piece (given seen) ++ piece (given (pending seen ++ rest)) ++
        last (pending (seen ++ rest)), []⟩ := by
  have freeSeen : ¬toolCallTag.text <:+: seen :=
    fun inside => free (inside.trans (List.prefix_append _ _).isInfix)
  have first := @absorb_free piece pre [] seen freeSeen
  have second := @absorb_free piece pre seen rest free
  apply emitted_outside absorbing (cuts_halves seen rest).1
  rw [texts_halves, absorbAll, absorbAll, absorbAll]
  change absorb piece pre false seen = (piece (given seen), pending seen, false) at first
  rw [List.nil_append, first]
  dsimp only
  rw [second]
  simp

theorem emitted_halves_tag (absorbing : Absorbing processor piece pre last parse)
    {seen rest : List Char} (free : ¬toolCallTag.text <:+: seen)
    (freeBefore : ¬toolCallTag.text <:+: before)
    (split : seen ++ rest = before ++ (toolCallTag.text ++ after)) :
    processor.emitted ((halves seen rest).map TextChunk.toChunk) =
      .ok ⟨piece (given seen) ++ pre (before.drop (given seen).length) ++
          (parsed parse (toolCallTag.text ++ after)).content,
        (parsed parse (toolCallTag.text ++ after)).calls⟩ := by
  have first := @absorb_free piece pre [] seen free
  have second := @absorb_tag piece pre seen rest before after free freeBefore split
  apply emitted_inToolMode absorbing (cuts_halves seen rest).1
  rw [texts_halves, absorbAll, absorbAll, absorbAll]
  change absorb piece pre false seen = (piece (given seen), pending seen, false) at first
  rw [List.nil_append, first]
  rw [second]
  simp

end Streaming

end HybridInference.Processors
