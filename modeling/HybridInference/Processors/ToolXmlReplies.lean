import HybridInference.Processors.ToolXmlChunking

/-!
# Tool calls in a reply that is not streamed

Qwen parses the whole text of a reply, the text before the first `<tool_call>` included, and
always reports `"tool_calls"`. GLM does not parse a reply at all. They agree with the stream on
few texts with calls.
-/

namespace HybridInference.Processors

open Library
open Library.Tags

structure Outcome where
  content : List Char
  calls : List (List Char × String)
  finishReason : Value

def orNull (value : Value) : Value := if value.isTruthy then value else .null

def lastFinishReason (reasons : List Value) : Value :=
  reasons.foldl (fun last reason => if reason.isTruthy then reason else last) .null

def sentFinishReasons (sent : List Chunk) : List Value :=
  sent.flatMap fun chunk => chunk.choices.head?.toList.map Choice.finishReason

def flushedFinishReasons (flushed : Option Flushed) : List Value :=
  flushed.toList.map Flushed.finishReason

def wholeChunk (text : String) (finishReason : Value) : TextChunk :=
  ⟨text, finishReason, .null, none⟩

def XmlProcessor.streamed (processor : XmlProcessor) (text : String) (finishReason : Value) :
    Except PyError Outcome := do
  let (state, sent) ← processor.run processor.fresh [(wholeChunk text finishReason).toChunk]
  let emitted := Emitted.ofStream sent (processor.flush state)
  return ⟨Text.strip emitted.content, emitted.calls,
    lastFinishReason (sentFinishReasons sent ++ flushedFinishReasons (processor.flush state))⟩

def XmlProcessor.replied (processor : XmlProcessor) (text : String) (finishReason : Value) :
    Outcome :=
  let reply := processor.response ⟨some text, [], finishReason⟩
  ⟨Text.strip (reply.content.getD "").toList,
    reply.toolCalls.map fun call => (call.name, call.arguments), orNull reply.finishReason⟩

structure RepliesAlike (processor : XmlProcessor) (text : String) (finishReason : Value) :
    Prop where
  same : processor.streamed text finishReason = .ok (processor.replied text finishReason)
  truncated : finishReason = .str "length" →
    (processor.replied text finishReason).finishReason ≠ .str "tool_calls" ∧
      ∀ outcome, processor.streamed text finishReason = .ok outcome →
        outcome.finishReason ≠ .str "tool_calls"

def fromToolCall (text : List Char) : List Char :=
  match find toolCallTag.text text with
  | some i => text.drop i
  | none => []

/-- The first call of the whole text is the first one after an unclosed `<tool_call>`, and the
finish reason and the text in front agree with it. -/
structure QwenCallsAlike (codec : JsonCodec) (text : List Char) (finishReason : Value) : Prop where
  calls : toolBlocks (fromToolCall text) ≠ [] ∨
    qwenCall codec text = qwenCall codec (fromToolCall text)
  complete : (∃ block ∈ parsedBlocks (fromToolCall text), searchFunction block ≠ none) →
    finishReason.isTruthy = false ∨ finishReason = .str "stop" ∨ finishReason = .str "tool_calls"
  gap : (∀ block ∈ parsedBlocks (fromToolCall text), searchFunction block = none) →
    Text.strip (untilToolCall text) = [] ∨
      ∀ front c, untilToolCall text = front ++ [c] → ¬Text.isSpace c = true

def QwenAlike (codec : JsonCodec) (text : List Char) (finishReason : Value) : Prop :=
  toolCallTag.text <:+: text → QwenCallsAlike codec text finishReason

/-- What GLM's text has to be: no `<tool_call>` with a name, and no tag after one. -/
structure GlmAlike (text : List Char) : Prop where
  plain : ¬toolCallTag.text <:+: text → ¬thinkClose.Straddles (removeAll thinkOpen 0 (given text))
      (removeAll thinkOpen 0 (pending text))
  nameless : ∀ segment ∈ segments (fromToolCall text), segmentName segment = []
  untagged : ¬thinkOpen.text <:+: fromToolCall text ∧ ¬thinkClose.text <:+: fromToolCall text

section Streamed

variable {processor : XmlProcessor} {piece pre last : List Char → List Char}
  {parse : List Char → List ToolCall} {text : String} {finishReason : Value} {state : XmlState}
  {before after : List Char}

structure Noting (processor : XmlProcessor) (piece pre last : List Char → List Char)
    (parse : List Char → List ToolCall) : Prop extends
    Absorbing processor piece pre last parse where
  noted : ∀ text finishReason,
    processor.streamChunk processor.fresh (wholeChunk text finishReason).toChunk =
      .ok (absorbChunk piece pre
        { processor.fresh with upstreamFinishReason := orNull finishReason }
        (wholeChunk text finishReason).toChunk text)

theorem noteFinishReason_fresh (fresh : state.upstreamFinishReason = .null) (choice : Choice) :
    noteFinishReason state choice =
      { state with upstreamFinishReason := orNull choice.finishReason } := by
  unfold noteFinishReason orNull
  split_ifs
  · rfl
  · rw [← fresh]

theorem glm_noting (codec : JsonCodec) :
    Noting (glm codec) withoutThinkTags withoutThinkTags withoutThinkTags
      (parseGlmToolXml codec) := by
  refine ⟨glm_absorbing codec, fun text finishReason => ?_⟩
  have step : (glm codec).streamChunk (glm codec).fresh (wholeChunk text finishReason).toChunk =
    glmStreamChunk (glm codec).fresh ⟨[⟨textDelta "content" text, finishReason⟩], .null, none⟩ :=
      rfl
  rw [step, glmStreamChunk]
  dsimp only
  rw [find_textDelta, noteFinishReason_fresh rfl]
  rfl

theorem qwenCoder_noting (codec : JsonCodec) :
    Noting (qwenCoder codec) id Text.strip Text.strip (parseQwenToolXml codec) := by
  refine ⟨qwenCoder_absorbing codec, fun text finishReason => ?_⟩
  have step : (qwenCoder codec).streamChunk (qwenCoder codec).fresh
      (wholeChunk text finishReason).toChunk = .ok (qwenStreamChunk (qwenCoder codec).fresh
        ⟨[⟨textDelta "content" text, finishReason⟩], .null, none⟩) := rfl
  have noCalls : ((textDelta "content" text).get "tool_calls").isTruthy = false := by
    rfl
  rw [step, qwenStreamChunk]
  dsimp only
  rw [noCalls, if_neg Bool.false_ne_true, Delta.text, get_textDelta, if_pos rfl,
    noteFinishReason_fresh rfl]
  rfl

theorem content_absorbChunk_whole :
    (absorbChunk piece pre state (wholeChunk text finishReason).toChunk text).2.flatMap
        Chunk.content =
      (absorb piece pre state.inToolMode (state.buffer ++ text.toList)).1 := by
  rw [absorbChunk]
  dsimp only
  split_ifs with nothing
  · rw [List.isEmpty_iff.mp nothing]
    unfold signalsOf
    split_ifs <;> rfl
  · rw [List.flatMap_singleton, content_withContent]

theorem finishReason_absorbChunk : lastFinishReason (sentFinishReasons (absorbChunk piece pre state
      (wholeChunk text finishReason).toChunk text).2) = orNull finishReason := by
  rw [absorbChunk]
  dsimp only
  split_ifs with nothing
  · have signals : hasStreamSignals (wholeChunk text finishReason).toChunk =
        finishReason.isTruthy := by
      simp [hasStreamSignals, wholeChunk, TextChunk.toChunk, Value.isNull]
    unfold signalsOf orNull
    rw [signals]
    split_ifs with truthy
    · have sent : sentFinishReasons [signalOnlyChunk (wholeChunk text finishReason).toChunk] =
        [finishReason] := rfl
      rw [sent, lastFinishReason, List.foldl_cons, List.foldl_nil, if_pos truthy]
    · rfl
  · rfl

theorem lastFinishReason_append (sent flushed : List Value) : lastFinishReason (sent ++ flushed) =
      flushed.foldl (fun last reason => if reason.isTruthy then reason else last)
        (lastFinishReason sent) :=
  List.foldl_append

theorem toolFinishReason_isTruthy (finishReason : Value) :
    (toolFinishReason (orNull finishReason)).isTruthy = true := by
  unfold orNull
  split_ifs with truthy
  · unfold toolFinishReason
    split
    · rfl
    · rfl
    · rfl
    · exact truthy
  · rfl

theorem toolFinishReason_eq_iff (finishReason : Value) :
    toolFinishReason (orNull finishReason) = .str "tool_calls" ↔
      finishReason.isTruthy = false ∨ finishReason = .str "stop" ∨
        finishReason = .str "tool_calls" := by
  unfold orNull
  split_ifs with truthy
  · constructor
    · intro complete
      unfold toolFinishReason at complete
      split at complete
      · exact absurd truthy (by decide)
      · exact absurd truthy (by decide)
      · exact Or.inr (Or.inl rfl)
      · exact Or.inr (Or.inr complete)
    · rintro (falsy | rfl | rfl)
      · rw [truthy] at falsy
        contradiction
      · rfl
      · rfl
  · exact ⟨fun _ => Or.inl (by simpa using truthy), fun _ => rfl⟩

theorem streamed_of_run {sent : List Chunk}
    (ran : processor.run processor.fresh [(wholeChunk text finishReason).toChunk] =
      .ok (state, sent)) :
    processor.streamed text finishReason =
      .ok ⟨Text.strip (Emitted.ofStream sent (processor.flush state)).content,
        (Emitted.ofStream sent (processor.flush state)).calls,
        lastFinishReason (sentFinishReasons sent ++
          flushedFinishReasons (processor.flush state))⟩ := by
  rw [XmlProcessor.streamed, ran]
  rfl

section

variable (noting : Noting processor piece pre last parse)

include noting

theorem streamed_eq {out buffer : List Char}
    {inToolMode : Bool}
    (absorbed : absorb piece pre false text.toList = (out, buffer, inToolMode)) :
    let finished : XmlState := ⟨buffer, inToolMode, processor.fresh.modelId, orNull finishReason⟩
    let flushed := Emitted.ofStream [] (processor.flush finished)
    processor.streamed text finishReason = .ok ⟨Text.strip (out ++ flushed.content), flushed.calls,
      (flushedFinishReasons (processor.flush finished)).foldl
        (fun last reason => if reason.isTruthy then reason else last) (orNull finishReason)⟩ := by
  intro finished flushed
  generalize noted_eq : ({ processor.fresh with upstreamFinishReason := orNull finishReason } :
    XmlState) = noted
  have step := noting.noted text finishReason
  rw [noted_eq] at step
  have isFresh : noted.buffer = [] ∧ noted.inToolMode = false := by
    rw [← noted_eq]
    exact noting.fresh
  have content := @content_absorbChunk_whole piece pre text finishReason noted
  have reason := @finishReason_absorbChunk piece pre text finishReason noted
  have isFinished : (absorbChunk piece pre noted (wholeChunk text finishReason).toChunk text).1 =
      finished := by
    rw [absorbChunk]
    dsimp only
    rw [isFresh.1, isFresh.2, List.nil_append, absorbed, ← noted_eq]
    rfl
  rw [isFresh.1, isFresh.2, List.nil_append, absorbed] at content
  generalize absorbChunk piece pre noted (wholeChunk text finishReason).toChunk text = absorbed_
    at step content reason isFinished
  have ran : processor.run processor.fresh [(wholeChunk text finishReason).toChunk] =
      .ok (finished, absorbed_.2) := by
    have ran := run_cons_ok step (rfl : processor.run absorbed_.1 [] = .ok (absorbed_.1, []))
    rwa [List.append_nil, isFinished] at ran
  rw [streamed_of_run ran, lastFinishReason_append, reason, Emitted.ofStream, content]
  rfl

theorem streamed_outside (free : ¬toolCallTag.text <:+: text.toList) :
    processor.streamed text finishReason =
      .ok ⟨Text.strip (piece (given text.toList) ++ last (pending text.toList)), [],
        orNull finishReason⟩ := by
  have absorbed := @absorb_free piece pre [] text.toList free
  have streamed :=
    @streamed_eq processor piece pre last parse text finishReason noting _ _ _ absorbed
  dsimp only at streamed
  rw [noting.flush, content_flushXml noting.nothing rfl] at streamed
  rw [streamed, flushXml, if_neg Bool.false_ne_true]
  split_ifs <;> rfl

theorem streamed_inToolMode (free : ¬toolCallTag.text <:+: before)
    (split : text.toList = before ++ (toolCallTag.text ++ after)) :
    processor.streamed text finishReason =
      .ok ⟨Text.strip (pre before ++ (parsed parse (toolCallTag.text ++ after)).content),
        (parsed parse (toolCallTag.text ++ after)).calls,
        if (parse (toolCallTag.text ++ after)).isEmpty then orNull finishReason
        else toolFinishReason (orNull finishReason)⟩ := by
  have absorbed := @absorb_tag piece pre [] text.toList before after (by decide) free split
  have streamed :=
    @streamed_eq processor piece pre last parse text finishReason noting _ _ _ absorbed
  dsimp only at streamed
  rw [noting.flush, parsed_flushXml rfl (List.cons_ne_nil _ _)] at streamed
  have some_ : ¬(toolCallTag.text ++ after).isEmpty = true := by simp [Tag.text]
  rw [streamed, flushXml]
  dsimp only
  rw [if_neg some_, if_pos rfl]
  split_ifs with none_
  · rfl
  · have last : flushedFinishReasons (some ⟨[], parse (toolCallTag.text ++ after),
        toolFinishReason (orNull finishReason)⟩) = [toolFinishReason (orNull finishReason)] := rfl
    rw [last, List.foldl_cons, List.foldl_nil, if_pos (toolFinishReason_isTruthy finishReason)]
    rfl

end

end Streamed

section Qwen

variable {codec : JsonCodec} {text before after : List Char}

theorem closedBlocks_enough {rounds others : ℕ} (enough : after.length ≤ rounds)
    (alsoEnough : after.length ≤ others) :
    closedBlocks rounds after = closedBlocks others after := by
  have nothing : ∀ rounds, closedBlocks rounds [] = [] := by
    intro rounds
    cases rounds <;> rfl
  induction rounds generalizing others after with
  | zero =>
    obtain rfl := List.eq_nil_of_length_eq_zero (Nat.le_zero.mp enough)
    rw [nothing, nothing]
  | succ rounds ih =>
    cases others with
    | zero =>
      obtain rfl := List.eq_nil_of_length_eq_zero (Nat.le_zero.mp alsoEnough)
      rw [nothing, nothing]
    | succ others =>
      rw [closedBlocks, closedBlocks]
      cases find "</tool_call>".toList after with
      | none => rfl
      | some j =>
        dsimp only
        cases find toolCallTag.text (after.drop (j + 12)) with
        | none => rfl
        | some i =>
          dsimp only
          rw [@ih ((after.drop (j + 12)).drop (i + 11)) others]
          all_goals
            simp only [List.length_drop]
            omega

theorem toolBlocks_append (free : ¬toolCallTag.text <:+: before) :
    toolBlocks (before ++ (toolCallTag.text ++ after)) =
      toolBlocks (toolCallTag.text ++ after) := by
  have tagLength : toolCallTag.text.length = 11 := by decide
  have here : find toolCallTag.text (toolCallTag.text ++ after) = some 0 :=
    find_tag (by decide : ¬toolCallTag.text <:+: [])
  have front : (before ++ (toolCallTag.text ++ after)).drop (before.length + 11) = after := by
    rw [← List.append_assoc]
    exact List.drop_left' (by rw [List.length_append, tagLength])
  have back : (toolCallTag.text ++ after).drop (0 + 11) = after :=
    List.drop_left' (by rw [tagLength])
  rw [toolBlocks, toolBlocks, find_tag free, here]
  dsimp only
  rw [front, back]
  apply closedBlocks_enough
  all_goals
    simp only [List.length_append]
    omega

theorem contains_of_searchFunction (searched : searchFunction text ≠ none) :
    contains "<function=".toList text = true := by
  rw [contains, Option.isSome_iff_ne_none]
  intro missing
  apply searched
  have free := (find_eq_none_iff (by decide)).mp missing
  clear missing searched
  induction text with
  | nil => rfl
  | cons c rest ih =>
    rw [List.infix_cons_iff, not_or] at free
    have notNamed : namedTag "<function=".toList (c :: rest) = none := by
      rw [namedTag, if_neg]
      rw [List.isPrefixOf_iff_prefix]
      exact free.1
    rw [searchFunction, notNamed]
    exact ih free.2

def qwenCalls (codec : JsonCodec) (text : List Char) : List (List Char × String) :=
  (parsedBlocks text).filterMap (qwenCall codec)

theorem map_parseQwenToolXml (codec : JsonCodec) (text : List Char) :
    (parseQwenToolXml codec text).map (fun call => (call.name, call.arguments)) =
      qwenCalls codec text := by
  have numbered : ∀ (blocks : List (List Char)) (start : ℕ),
      ((blocks.zipIdx start).filterMap fun block =>
        (qwenCall codec block.1).map fun call => (⟨block.2, call.1, call.2⟩ : ToolCall)).map
          (fun call => (call.name, call.arguments)) = blocks.filterMap (qwenCall codec) := by
    intro blocks
    induction blocks with
    | nil => exact fun _ => rfl
    | cons block rest ih =>
      intro start
      rw [List.zipIdx_cons, List.filterMap_cons, List.filterMap_cons]
      cases qwenCall codec block with
      | none => exact ih (start + 1)
      | some call =>
        dsimp only [Option.map_some]
        rw [List.map_cons, ih]
  exact numbered (parsedBlocks text) 0

theorem parseQwenToolXml_isEmpty (codec : JsonCodec) (text : List Char) :
    (parseQwenToolXml codec text).isEmpty = true ↔ qwenCalls codec text = [] := by
  rw [← map_parseQwenToolXml, List.isEmpty_iff, List.map_eq_nil_iff]

theorem qwenCall_eq_none_iff : qwenCall codec text = none ↔ searchFunction text = none := by
  rw [qwenCall, Option.map_eq_none_iff]

theorem qwenCalls_eq_nil_iff :
    qwenCalls codec text = [] ↔ ∀ block ∈ parsedBlocks text, searchFunction block = none := by
  rw [qwenCalls, List.filterMap_eq_nil_iff]
  exact forall₂_congr fun block _ => qwenCall_eq_none_iff

theorem qwenCalls_ne_nil_iff :
    qwenCalls codec text ≠ [] ↔ ∃ block ∈ parsedBlocks text, searchFunction block ≠ none := by
  rw [Ne, qwenCalls_eq_nil_iff]
  simp only [not_forall, exists_prop, Ne]

theorem qwenCalls_of_unclosed (unclosed : toolBlocks text = []) :
    qwenCalls codec text = (qwenCall codec text).toList := by
  rw [qwenCalls, parsedBlocks, unclosed, List.isEmpty_nil, if_pos rfl]
  by_cases searched : searchFunction text = none
  · have noCall := (@qwenCall_eq_none_iff codec text).mpr searched
    split_ifs
    · rfl
    · rw [noCall]
      rfl
  · rw [if_pos (contains_of_searchFunction searched), List.filterMap_cons]
    cases qwenCall codec text <;> rfl

theorem qwenCalls_append_iff (free : ¬toolCallTag.text <:+: before) :
    qwenCalls codec (before ++ (toolCallTag.text ++ after)) =
        qwenCalls codec (toolCallTag.text ++ after) ↔
      toolBlocks (toolCallTag.text ++ after) ≠ [] ∨
        qwenCall codec (before ++ (toolCallTag.text ++ after)) =
          qwenCall codec (toolCallTag.text ++ after) := by
  have sameBlocks := @toolBlocks_append before after free
  by_cases unclosed : toolBlocks (toolCallTag.text ++ after) = []
  · rw [qwenCalls_of_unclosed unclosed, qwenCalls_of_unclosed (sameBlocks.trans unclosed)]
    have injective : ∀ first second : Option (List Char × String),
        first.toList = second.toList ↔ first = second := by
      intro first second
      cases first <;> cases second <;> simp
    rw [injective]
    exact ⟨Or.inr, fun either => either.resolve_left (not_not.mpr unclosed)⟩
  · refine ⟨fun _ => Or.inl unclosed, fun _ => ?_⟩
    have some_ : ¬(toolBlocks (toolCallTag.text ++ after)).isEmpty = true := by
      simpa using unclosed
    rw [qwenCalls, qwenCalls, parsedBlocks, parsedBlocks, sameBlocks, if_neg some_, if_neg some_]

theorem fromToolCall_tag (free : ¬toolCallTag.text <:+: before) :
    fromToolCall (before ++ (toolCallTag.text ++ after)) = toolCallTag.text ++ after := by
  rw [fromToolCall, find_tag free]
  exact List.drop_left

theorem fromToolCall_of_free (free : ¬toolCallTag.text <:+: text) : fromToolCall text = [] := by
  rw [fromToolCall, (find_eq_none_iff toolCallTag.text_ne_nil).mpr free]

theorem response_qwenCoder (codec : JsonCodec) :
    (qwenCoder codec).response = qwenResponse codec := rfl

theorem replied_of_free {text : String} {finishReason : Value}
    (free : ¬toolCallTag.text <:+: text.toList) :
    (qwenCoder codec).replied text finishReason =
      ⟨Text.strip text.toList, [], orNull finishReason⟩ := by
  have response : (qwenCoder codec).response ⟨some text, [], finishReason⟩ =
      ⟨some text, [], finishReason⟩ := by
    rw [response_qwenCoder, qwenResponse]
    dsimp only
    rw [(find_eq_none_iff toolCallTag.text_ne_nil).mpr free]
  rw [XmlProcessor.replied, response]
  rfl

theorem replied_tag {text : String} {finishReason : Value} (free : ¬toolCallTag.text <:+: before)
    (split : text.toList = before ++ (toolCallTag.text ++ after)) :
    (qwenCoder codec).replied text finishReason = if qwenCalls codec text.toList = [] then
        ⟨Text.strip text.toList, [], orNull finishReason⟩
      else ⟨Text.strip before, qwenCalls codec text.toList, .str "tool_calls"⟩ := by
  have response : (qwenCoder codec).response ⟨some text, [], finishReason⟩ =
      if (parseQwenToolXml codec text.toList).isEmpty then ⟨some text, [], finishReason⟩
      else ⟨if 0 < before.length then some (String.ofList (Text.strip before)) else none,
        parseQwenToolXml codec text.toList, .str "tool_calls"⟩ := by
    have found := @find_tag toolCallTag before after free
    rw [← split] at found
    have taken : text.toList.take before.length = before := by rw [split, List.take_left]
    rw [response_qwenCoder, qwenResponse]
    dsimp only
    rw [found]
    dsimp only
    rw [taken]
  rw [XmlProcessor.replied, response]
  by_cases none_ : qwenCalls codec text.toList = []
  · rw [if_pos none_, if_pos ((parseQwenToolXml_isEmpty codec _).mpr none_)]
    rfl
  · rw [if_neg none_, if_neg fun empty => none_ ((parseQwenToolXml_isEmpty codec _).mp empty)]
    dsimp only
    rw [map_parseQwenToolXml]
    have content : Text.strip ((if 0 < before.length then
        some (String.ofList (Text.strip before)) else none).getD "").toList =
        Text.strip before := by
      split_ifs with some_
      · rw [Option.getD_some, String.toList_ofList, Text.strip_strip]
      · rw [List.eq_nil_of_length_eq_zero (by omega : before.length = 0)]
        rfl
    rw [content]
    rfl

end Qwen

section Alike

variable {processor : XmlProcessor} {piece pre last : List Char → List Char}
  {parse : List Char → List ToolCall} {codec : JsonCodec} {text : String} {finishReason : Value}
  {before after : List Char}

theorem streamed_truncated (noting : Noting processor piece pre last parse) {outcome : Outcome}
    (streamed : processor.streamed text (.str "length") = .ok outcome) :
    outcome.finishReason = .str "length" := by
  by_cases free : ¬toolCallTag.text <:+: text.toList
  · rw [streamed_outside noting free] at streamed
    rw [← Except.ok.inj streamed]
    rfl
  · rcases exists_append_tag (not_not.mp free) with ⟨before, after, split, freeBefore⟩
    rw [streamed_inToolMode noting freeBefore split] at streamed
    rw [← Except.ok.inj streamed]
    split_ifs
    · rfl
    · rfl

theorem repliesAlike_iff (noting : Noting processor piece pre last parse) :
    RepliesAlike processor text finishReason ↔
      processor.streamed text finishReason = .ok (processor.replied text finishReason) := by
  refine ⟨RepliesAlike.same, fun same => ⟨same, ?_⟩⟩
  rintro rfl
  have cutOff : ∀ outcome, processor.streamed text (.str "length") = .ok outcome →
      outcome.finishReason ≠ .str "tool_calls" := by
    intro outcome streamed
    rw [streamed_truncated noting streamed]
    simp
  exact ⟨cutOff _ same, cutOff⟩

theorem qwen_alike_iff (codec : JsonCodec) (text : String) (finishReason : Value) :
    RepliesAlike (qwenCoder codec) text finishReason ↔
      QwenAlike codec text.toList finishReason := by
  rw [repliesAlike_iff (qwenCoder_noting codec)]
  by_cases free : ¬toolCallTag.text <:+: text.toList
  · have same := @Text.strip_append_strip (pending text.toList) (given text.toList)
      (dropWhile_drop_safeIndex 20 text.toList)
    rw [given_append_pending] at same
    rw [streamed_outside (qwenCoder_noting codec) free, replied_of_free free, id, same]
    exact ⟨fun _ inside => absurd inside free, fun _ => rfl⟩
  · rcases exists_append_tag (not_not.mp free) with ⟨before, after, split, freeBefore⟩
    rw [streamed_inToolMode (qwenCoder_noting codec) freeBefore split,
      replied_tag freeBefore split, parsed, map_parseQwenToolXml, split]
    have calls := @qwenCalls_append_iff codec before after freeBefore
    have none_ := @qwenCalls_eq_nil_iff codec (toolCallTag.text ++ after)
    have some_ := @qwenCalls_ne_nil_iff codec (toolCallTag.text ++ after)
    have alike : QwenAlike codec (before ++ (toolCallTag.text ++ after)) finishReason ↔
        (qwenCalls codec (before ++ (toolCallTag.text ++ after)) =
          qwenCalls codec (toolCallTag.text ++ after)) ∧
        (qwenCalls codec (toolCallTag.text ++ after) ≠ [] →
          toolFinishReason (orNull finishReason) = .str "tool_calls") ∧
        (qwenCalls codec (toolCallTag.text ++ after) = [] →
          Text.strip (Text.strip before ++ (toolCallTag.text ++ after)) =
            Text.strip (before ++ (toolCallTag.text ++ after))) := by
      rw [calls, toolFinishReason_eq_iff, Tag.text, List.cons_append,
        Text.strip_strip_append_iff (by decide), ← List.cons_append, ← Tag.text, none_, some_]
      constructor
      · intro alike
        rcases alike (infix_tag before after) with ⟨isCalls, complete, gap⟩
        rw [fromToolCall_tag freeBefore] at isCalls complete gap
        rw [untilToolCall_tag freeBefore] at gap
        exact ⟨isCalls, complete, gap⟩
      · rintro ⟨isCalls, complete, gap⟩ -
        constructor
        · rwa [fromToolCall_tag freeBefore]
        · rwa [fromToolCall_tag freeBefore]
        · rwa [fromToolCall_tag freeBefore, untilToolCall_tag freeBefore]
    rw [alike, Except.ok.injEq]
    have isEmpty := parseQwenToolXml_isEmpty codec (toolCallTag.text ++ after)
    by_cases nothing : qwenCalls codec (toolCallTag.text ++ after) = []
    · rw [if_pos (isEmpty.mpr nothing), if_pos (isEmpty.mpr nothing), nothing]
      split_ifs with wholeNothing
      · rw [wholeNothing, Outcome.mk.injEq]
        simp
      · rw [Outcome.mk.injEq]
        constructor
        · rintro ⟨-, same, -⟩
          exact absurd same.symm wholeNothing
        · rintro ⟨same, -, -⟩
          exact absurd same wholeNothing
    · have notEmpty := fun empty => nothing (isEmpty.mp empty)
      rw [if_neg notEmpty, if_neg notEmpty, List.append_nil, Text.strip_strip]
      split_ifs with wholeNothing
      · rw [Outcome.mk.injEq, wholeNothing]
        constructor
        · rintro ⟨-, same, -⟩
          exact absurd same nothing
        · rintro ⟨same, -, -⟩
          exact absurd same.symm nothing
      · rw [Outcome.mk.injEq]
        constructor
        · rintro ⟨-, same, complete⟩
          exact ⟨same.symm, fun _ => complete, fun empty => absurd empty nothing⟩
        · rintro ⟨same, complete, -⟩
          exact ⟨rfl, same.symm, complete nothing⟩

theorem replied_glm (codec : JsonCodec) (text : String) (finishReason : Value) :
    (glm codec).replied text finishReason =
      ⟨Text.strip (withoutThinkTags text.toList), [], orNull finishReason⟩ := by
  have response : (glm codec).response = glmResponse := rfl
  rw [XmlProcessor.replied, response, glmResponse]
  dsimp only
  split_ifs with empty
  · rw [String.isEmpty_iff] at empty
    rw [empty]
    rfl
  · rw [Option.getD_some, String.toList_ofList]
    rfl

theorem parseGlmToolXml_isEmpty (codec : JsonCodec) (text : List Char) :
    (parseGlmToolXml codec text).isEmpty = true ↔
      ∀ segment ∈ segments text, segmentName segment = [] := by
  rw [List.isEmpty_iff, parseGlmToolXml, List.map_eq_nil_iff, List.zipIdx_eq_nil_iff,
    List.filterMap_eq_nil_iff]
  apply forall₂_congr
  intro segment _
  unfold glmCall
  split_ifs with nameless
  · exact ⟨fun _ => List.isEmpty_iff.mp nameless, fun _ => rfl⟩
  · exact ⟨fun named => absurd named (by simp),
      fun empty => absurd (List.isEmpty_iff.mpr empty) nameless⟩

theorem strip_ne_of_fewer {first second : List Char}
    (fewer : (Text.solid first).length < (Text.solid second).length) :
    Text.strip first ≠ Text.strip second := by
  intro same
  rw [← Text.solid_strip first, ← Text.solid_strip second, same] at fewer
  exact lt_irrefl _ fewer

theorem length_solid_removeAll {tag : Tag} {text : List Char} (inside : tag.text <:+: text) :
    (Text.solid (removeAll tag 0 text)).length < (Text.solid text).length := by
  rcases exists_append_tag inside with ⟨before, after, rfl, -⟩
  have front := Text.length_solid_le (removeAll_sublist tag before)
  have back := Text.length_solid_le (removeAll_sublist tag after)
  have bracket : 0 < (Text.solid tag.text).length := by
    rw [Tag.text, Text.solid, List.filter_cons_of_pos (by decide), List.length_cons]
    omega
  rw [removeAll_append_tag]
  simp only [Text.solid_append, List.length_append]
  omega

theorem withoutThinkTags_eq_or (text : List Char) :
    (¬thinkOpen.text <:+: text ∧ ¬thinkClose.text <:+: text ∧ withoutThinkTags text = text) ∨
      (thinkOpen.text <:+: text ∨ thinkClose.text <:+: text) ∧
        (Text.solid (withoutThinkTags text)).length < (Text.solid text).length := by
  by_cases opens : thinkOpen.text <:+: text
  · right
    have shorter := Text.length_solid_le (removeAll_sublist thinkClose (removeAll thinkOpen 0 text))
    exact ⟨Or.inl opens, shorter.trans_lt (length_solid_removeAll opens)⟩
  · have same := removeAll_of_free opens
    unfold withoutThinkTags
    rw [same]
    by_cases closes : thinkClose.text <:+: text
    · exact Or.inr ⟨Or.inr closes, length_solid_removeAll closes⟩
    · exact Or.inl ⟨opens, closes, removeAll_of_free closes⟩

theorem glm_alike_of_free (free : ¬toolCallTag.text <:+: text.toList) :
    Text.strip (withoutThinkTags (given text.toList) ++ withoutThinkTags (pending text.toList)) =
        Text.strip (withoutThinkTags text.toList) ↔ GlmAlike text.toList := by
  have isNext : pending text.toList <+: pending text.toList ++ [] := List.prefix_append _ _
  have apart :=
    @not_straddles_given text.toList [] (pending text.toList) thinkOpen (by decide) isNext
  have joins := withoutThinkTags_append_iff apart
  rw [given_append_pending] at joins
  have whole : withoutThinkTags text.toList =
      removeAll thinkClose 0 (removeAll thinkOpen 0 (given text.toList) ++
        removeAll thinkOpen 0 (pending text.toList)) := by
    rw [← removeAll_append apart, given_append_pending]
    rfl
  constructor
  · intro same
    refine ⟨fun _ straddles => ?_, ?_, ?_⟩
    · rcases removeAll_of_straddles straddles with ⟨before, after, joined, split⟩
      rw [← whole] at joined
      apply @strip_ne_of_fewer (before ++ after) (before ++ (thinkClose.text ++ after))
      · have solidTag : (Text.solid thinkClose.text).length = 8 := by decide
        simp only [Text.solid_append, List.length_append]
        omega
      · rw [← joined, ← split]
        exact same.symm
    · rw [fromToolCall_of_free free]
      exact fun segment inside => absurd inside List.not_mem_nil
    · rw [fromToolCall_of_free free]
      decide
  · intro alike
    rw [← joins.mpr (alike.plain free)]

theorem glm_alike_iff (codec : JsonCodec) (text : String) (finishReason : Value) :
    RepliesAlike (glm codec) text finishReason ↔ GlmAlike text.toList := by
  rw [repliesAlike_iff (glm_noting codec), replied_glm]
  by_cases free : ¬toolCallTag.text <:+: text.toList
  · rw [streamed_outside (glm_noting codec) free, Except.ok.injEq, Outcome.mk.injEq,
      ← glm_alike_of_free free]
    simp
  · have isInside := not_not.mp free
    rcases exists_append_tag isInside with ⟨before, after, split, freeBefore⟩
    have joins : withoutThinkTags (before ++ (toolCallTag.text ++ after)) =
        withoutThinkTags before ++ withoutThinkTags (toolCallTag.text ++ after) := by
      rw [Tag.text, List.cons_append, withoutThinkTags_append_iff not_straddles_bracket,
        removeAll_cons]
      · exact not_straddles_bracket
      · intro inFront
        rw [← List.cons_append, ← Tag.text] at inFront
        have short := List.prefix_of_prefix_length_le inFront (List.prefix_append _ _) (by decide)
        exact absurd short (by decide)
    have isEmpty := parseGlmToolXml_isEmpty codec (toolCallTag.text ++ after)
    have noTags := withoutThinkTags_eq_or (toolCallTag.text ++ after)
    rw [streamed_inToolMode (glm_noting codec) freeBefore split, parsed, Except.ok.injEq,
      Outcome.mk.injEq, List.map_eq_nil_iff, split, joins]
    constructor
    · rintro ⟨content, none_, -⟩
      have empty : (parseGlmToolXml codec (toolCallTag.text ++ after)).isEmpty = true := by
        rw [none_]
        rfl
      rw [if_pos empty] at content
      dsimp only at content
      refine ⟨fun outside => absurd (infix_tag before after) outside, ?_, ?_⟩
      · rw [fromToolCall_tag freeBefore]
        exact isEmpty.mp empty
      · rw [fromToolCall_tag freeBefore]
        rcases noTags with ⟨noOpen, noClose, -⟩ | ⟨-, fewer⟩
        · exact ⟨noOpen, noClose⟩
        · apply absurd content.symm
          apply strip_ne_of_fewer
          rw [Text.solid_append, Text.solid_append, List.length_append, List.length_append]
          omega
    · rintro ⟨-, nameless, untagged⟩
      rw [fromToolCall_tag freeBefore] at nameless untagged
      have empty := isEmpty.mpr nameless
      rw [if_pos empty, if_pos empty]
      rcases noTags with ⟨-, -, same⟩ | ⟨tagged, -⟩
      · exact ⟨by rw [same], List.isEmpty_iff.mp empty, rfl⟩
      · exact absurd tagged (not_or.mpr untagged)

end Alike

/-- Exactly which replies are the same streamed and not streamed. -/
theorem replies_alike_iff (codec : JsonCodec) (text : String) (finishReason : Value) :
    (RepliesAlike (qwenCoder codec) text finishReason ↔ QwenAlike codec text.toList finishReason) ∧
      (RepliesAlike (glm codec) text finishReason ↔ GlmAlike text.toList) :=
  ⟨qwen_alike_iff codec text finishReason, glm_alike_iff codec text finishReason⟩

/-- A reply with a call that was cut off is reported as complete if it is not streamed. -/
theorem truncated_call_reported_complete :
    ¬RepliesAlike (qwenCoder ⟨fun _ => none, fun _ => "\x7b\x7d"⟩)
      "<tool_call><function=run></function></tool_call>" (.str "length") := by
  intro alike
  have complete := (alike.truncated rfl).1
  exact complete rfl

end HybridInference.Processors
