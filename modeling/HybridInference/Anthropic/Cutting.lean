import HybridInference.Anthropic.Lossless

/-!
# The pieces a stream comes in

What handles the chunks never looks at the buffer, so the pieces of a stream only
decide when its chunks are handled.
-/

namespace HybridInference.Anthropic

open Translator Library

namespace Translator

variable {isJsonObject : String → Bool} {buffer : List Framing.Byte} {translator : Translator}

def withBuffer (buffer : List Framing.Byte) (translator : Translator) : Translator :=
  { translator with buffer }

@[simp]
theorem withBuffer_emit (frame : Frame) :
    (translator.withBuffer buffer).emit frame = (translator.emit frame).withBuffer buffer := rfl

@[simp]
theorem withBuffer_setCall (index : ℤ) (call : Call) :
    (translator.withBuffer buffer).setCall index call =
      (translator.setCall index call).withBuffer buffer := rfl

@[simp]
theorem withBuffer_closeThinking :
    (translator.withBuffer buffer).closeThinking = translator.closeThinking.withBuffer buffer := by
  cases thinking : translator.currentThinking <;> simp [closeThinking, withBuffer, thinking, emit]

@[simp]
theorem withBuffer_closeText :
    (translator.withBuffer buffer).closeText = translator.closeText.withBuffer buffer := by
  cases text : translator.currentText <;> simp [closeText, withBuffer, text, emit]

@[simp]
theorem withBuffer_emitThinking (content : String) :
    (translator.withBuffer buffer).emitThinking content =
      (translator.emitThinking content).withBuffer buffer := by
  have opened : (translator.withBuffer buffer).openThinking =
      translator.openThinking.withBuffer buffer := by
    simp only [openThinking, withBuffer_closeText]
    rfl
  cases thinking : translator.currentThinking with
  | none =>
    have same : (translator.withBuffer buffer).currentThinking = none := thinking
    simp only [emitThinking, thinking, same, opened]
    rfl
  | some index =>
    have same : (translator.withBuffer buffer).currentThinking = some index := thinking
    simp only [emitThinking, thinking, same]
    rfl

@[simp]
theorem withBuffer_emitText (content : String) : (translator.withBuffer buffer).emitText content =
      (translator.emitText content).withBuffer buffer := by
  have opened : (translator.withBuffer buffer).openText =
      translator.openText.withBuffer buffer := by
    simp only [openText, withBuffer_closeThinking]
    rfl
  cases text : translator.currentText with
  | none =>
    have same : (translator.withBuffer buffer).currentText = none := text
    simp only [emitText, text, same, opened]
    rfl
  | some index =>
    have same : (translator.withBuffer buffer).currentText = some index := text
    simp only [emitText, text, same]
    rfl

@[simp]
theorem withBuffer_closeOpenTool :
    (translator.withBuffer buffer).closeOpenTool = translator.closeOpenTool.withBuffer buffer := by
  unfold closeOpenTool
  cases tool : translator.openTool with
  | none => simp [withBuffer, tool]
  | some index =>
    cases found : translator.toolCalls index <;>
      simp [withBuffer, tool, found, emit, setCall]

@[simp]
theorem withBuffer_openToolBlock (index : ℤ) (call : Call) :
    (translator.withBuffer buffer).openToolBlock index call =
      (translator.openToolBlock index call).withBuffer buffer := by
  simp only [openToolBlock, closeVisibleBlocks, withBuffer_closeOpenTool,
    withBuffer_closeThinking, withBuffer_closeText]
  split_ifs <;> rfl

@[simp]
theorem withBuffer_openToolComplete : (translator.withBuffer buffer).openToolComplete isJsonObject =
      ((translator.openToolComplete isJsonObject).1,
        (translator.openToolComplete isJsonObject).2.withBuffer buffer) := by
  unfold openToolComplete
  cases tool : translator.openTool with
  | none => simp [withBuffer, tool]
  | some index =>
    cases found : translator.toolCalls index <;> simp [withBuffer, tool, found, setCall]

@[simp]
theorem withBuffer_freeWire (finalizing : Bool) :
    freeWire isJsonObject finalizing (translator.withBuffer buffer) =
      ((freeWire isJsonObject finalizing translator).1.map (withBuffer buffer),
        (freeWire isJsonObject finalizing translator).2.withBuffer buffer) := by
  have sameTool : (translator.withBuffer buffer).openTool = translator.openTool := rfl
  simp only [freeWire, sameTool, withBuffer_openToolComplete, withBuffer_closeOpenTool]
  split_ifs <;> rfl

theorem withBuffer_drain (finalizing : Bool) (queue : List Pending) :
    drain isJsonObject finalizing queue (translator.withBuffer buffer) =
      (drain isJsonObject finalizing queue translator).withBuffer buffer := by
  induction queue generalizing translator with
  | nil => rfl
  | cons event rest ih =>
    cases event with
    | tool index =>
      have sameCalls : (translator.withBuffer buffer).toolCalls = translator.toolCalls := rfl
      simp only [drain, sameCalls, withBuffer_freeWire]
      cases found : translator.toolCalls index with
      | none => rfl
      | some call =>
        rcases freeWire isJsonObject finalizing translator with ⟨_ | free, blocked⟩
        · simp only [Option.map_none, ih]
          split_ifs <;> rfl
        · simp only [Option.map_some, ih, withBuffer_openToolBlock,
            withBuffer_closeOpenTool, withBuffer_openToolComplete]
          split_ifs <;> rfl
    | thinking content =>
      simp only [drain, withBuffer_freeWire]
      rcases freeWire isJsonObject finalizing translator with ⟨_ | free, blocked⟩
      · rfl
      · simp only [Option.map_some, withBuffer_emitThinking, ih]
    | text content =>
      simp only [drain, withBuffer_freeWire]
      rcases freeWire isJsonObject finalizing translator with ⟨_ | free, blocked⟩
      · rfl
      · simp only [Option.map_some, withBuffer_emitText, ih]

@[simp]
theorem withBuffer_drainPendingEvents (finalizing : Bool) :
    (translator.withBuffer buffer).drainPendingEvents isJsonObject finalizing =
      (translator.drainPendingEvents isJsonObject finalizing).withBuffer buffer :=
  withBuffer_drain finalizing translator.pending

@[simp]
theorem withBuffer_handleContent (event : Pending) :
    (translator.withBuffer buffer).handleContent isJsonObject event =
      (translator.handleContent isJsonObject event).withBuffer buffer := by
  have drained : ({ translator.withBuffer buffer with
        pending := (translator.withBuffer buffer).pending ++ [event] } :
        Translator).drainPendingEvents isJsonObject false =
      (({ translator with pending := translator.pending ++ [event] } :
        Translator).drainPendingEvents isJsonObject false).withBuffer buffer :=
    @withBuffer_drainPendingEvents isJsonObject buffer
      { translator with pending := translator.pending ++ [event] } false
  simp only [handleContent, drained]
  split_ifs with none also also
  · rfl
  · exact absurd none also
  · exact absurd also none
  · rfl

theorem withBuffer_ite {condition : Prop} [Decidable condition] (first second : Translator) :
    (if condition then first.withBuffer buffer else second.withBuffer buffer) =
      (if condition then first else second).withBuffer buffer := by
  split_ifs <;> rfl

theorem withBuffer_appendFragment (index : ℤ) (call : Call) (fragment : String) :
    appendFragment isJsonObject (translator.withBuffer buffer) index call fragment =
      (appendFragment isJsonObject translator index call fragment).withBuffer buffer := by
  have sameCalls (translator : Translator) :
      (translator.withBuffer buffer).toolCalls = translator.toolCalls := rfl
  simp only [appendFragment, withBuffer_setCall, withBuffer_ite, withBuffer_emit,
    withBuffer_drainPendingEvents, sameCalls]

theorem withBuffer_emitToolCallDelta (delta : ToolCallDelta) :
    (translator.withBuffer buffer).emitToolCallDelta isJsonObject delta =
      (translator.emitToolCallDelta isJsonObject delta).map (withBuffer buffer) := by
  have attaches (index : ℤ) :
      emitToolCallDelta.attach isJsonObject (translator.withBuffer buffer) delta index =
        (emitToolCallDelta.attach isJsonObject translator delta index).map (withBuffer buffer) := by
    have state : (translator.withBuffer buffer).toolCallState index delta =
        ((translator.toolCallState index delta).1,
          (translator.toolCallState index delta).2.withBuffer buffer) := by
      cases found : translator.toolCalls index <;> simp [toolCallState, withBuffer, found, setCall]
    simp only [emitToolCallDelta.attach, state, withBuffer_appendFragment]
    split_ifs <;> rfl
  unfold emitToolCallDelta
  cases delta.index with
  | other => rfl
  | missing => exact attaches 0
  | int index => exact attaches index

theorem withBuffer_emitToolCallDeltas (deltas : List ToolCallDelta) :
    (translator.withBuffer buffer).emitToolCallDeltas isJsonObject deltas =
      (translator.emitToolCallDeltas isJsonObject deltas).map (withBuffer buffer) := by
  induction deltas generalizing translator with
  | nil => rfl
  | cons delta rest ih =>
    simp only [emitToolCallDeltas, withBuffer_emitToolCallDelta]
    cases translator.emitToolCallDelta isJsonObject delta with
    | none => rfl
    | some next => exact ih

theorem withBuffer_recordUsage (usage : Usage) : (translator.withBuffer buffer).recordUsage usage =
      (translator.recordUsage usage).withBuffer buffer := by
  simp only [recordUsage]
  by_cases empty : usage.isEmpty = true
  · rw [if_pos empty, if_pos empty]
  · rw [if_neg empty, if_neg empty]
    rfl

theorem withBuffer_handleChoice (choice : Choice) :
    (translator.withBuffer buffer).handleChoice isJsonObject choice =
      (translator.handleChoice isJsonObject choice).map (withBuffer buffer) := by
  have starts : (if (translator.withBuffer buffer).started then translator.withBuffer buffer
      else (translator.withBuffer buffer).emitMessageStart) =
      (if translator.started then translator else translator.emitMessageStart).withBuffer
        buffer := by
    cases started : translator.started <;> simp [withBuffer, started, emitMessageStart, emit]
  simp only [handleChoice, starts, handleReasoning, handleText, withBuffer_handleContent,
    withBuffer_ite, withBuffer_emitToolCallDeltas, Option.map_map]
  rfl

theorem withBuffer_handleChunk (chunk : Chunk) :
    (translator.withBuffer buffer).handleChunk isJsonObject chunk =
      (translator.handleChunk isJsonObject chunk).map (withBuffer buffer) := by
  rcases chunk with ⟨_ | usage, _ | choice⟩
  · rfl
  · exact withBuffer_handleChoice choice
  · exact congrArg some (withBuffer_recordUsage usage)
  · simp only [handleChunk, withBuffer_recordUsage, withBuffer_handleChoice]

theorem withBuffer_handleChunks (chunks : List Chunk) :
    (translator.withBuffer buffer).handleChunks isJsonObject chunks =
      (translator.handleChunks isJsonObject chunks).map (withBuffer buffer) := by
  induction chunks generalizing translator with
  | nil => rfl
  | cons chunk rest ih =>
    simp only [handleChunks, withBuffer_handleChunk]
    cases translator.handleChunk isJsonObject chunk with
    | none => rfl
    | some next => exact ih

theorem handleChunks_append (first second : List Chunk) :
    translator.handleChunks isJsonObject (first ++ second) =
      (translator.handleChunks isJsonObject first).bind fun next =>
        next.handleChunks isJsonObject second := by
  induction first generalizing translator with
  | nil => rfl
  | cons chunk rest ih =>
    simp only [List.cons_append, handleChunks, Option.bind_assoc, ih]

end Translator

section Pieces

variable {isJsonObject : String → Bool} {loads : List Framing.Byte → Option Chunk}
  {received : Received} {translator : Translator}

theorem feedAll_eq (running : Running received translator)
    (cut : Framing.frames translator.buffer = ([], translator.buffer))
    (pieces : List (List Framing.Byte)) :
    translator.feedAll isJsonObject loads pieces = (translator.handleChunks isJsonObject
        ((Framing.frames (translator.buffer ++ pieces.flatten)).1.flatMap (readFrame loads))).map
          (withBuffer (Framing.frames (translator.buffer ++ pieces.flatten)).2) := by
  induction pieces generalizing translator received with
  | nil =>
    simp only [List.flatten_nil, List.append_nil, cut, List.flatMap_nil]
    rfl
  | cons piece rest ih =>
    have unfinished : ¬(translator.closed || translator.aborted) = true := by
      simp [running.closed, running.aborted]
    have fed : translator.feed isJsonObject loads piece = (translator.handleChunks isJsonObject
          ((Framing.frames (translator.buffer ++ piece)).1.flatMap (readFrame loads))).map
            (withBuffer (Framing.frames (translator.buffer ++ piece)).2) := by
      rw [← withBuffer_handleChunks]
      simp only [feed, if_neg unfinished]
      rfl
    have whole : translator.buffer ++ (piece :: rest).flatten =
        translator.buffer ++ piece ++ rest.flatten := by simp
    rw [feedAll, fed, whole, Framing.frames_append (translator.buffer ++ piece) rest.flatten,
      List.flatMap_append, handleChunks_append]
    cases handled : translator.handleChunks isJsonObject
        ((Framing.frames (translator.buffer ++ piece)).1.flatMap (readFrame loads)) with
    | none => rfl
    | some next =>
      have later := ih (running_buffer (running_handleChunks running handled) _)
        (Framing.frames_rest (translator.buffer ++ piece))
      simp only [Option.map_some, Option.bind_some]
      refine later.trans ?_
      have through (chunks : List Chunk) := @withBuffer_handleChunks isJsonObject
        (Framing.frames (translator.buffer ++ piece)).2 next chunks
      simp only [withBuffer] at through ⊢
      rw [through, Option.map_map]
      rfl

structure Payload (loads : List Framing.Byte → Option Chunk) where
  bytes : List Framing.Byte
  chunk : Chunk
  oneLine : Framing.lineFeed ∉ dataMark ++ bytes
  loaded : readLine loads (dataMark ++ bytes) = some chunk

def Payload.frame (payload : Payload loads) : List Framing.Byte :=
  dataMark ++ payload.bytes ++ [Framing.lineFeed, Framing.lineFeed]

theorem readFrame_payload (payload : Payload loads) :
    readFrame loads (dataMark ++ payload.bytes) = [payload.chunk] := by
  have oneLine : (dataMark ++ payload.bytes).splitOn Framing.lineFeed =
      [dataMark ++ payload.bytes] := by
    apply List.splitOnP_eq_singleton
    intro byte byteMem
    have different : byte ≠ Framing.lineFeed := by
      rintro rfl
      exact payload.oneLine byteMem
    simpa using different
  simp [readFrame, oneLine, payload.loaded]

theorem chunks_of_payloads (payloads : List (Payload loads)) :
    Framing.frames (payloads.flatMap Payload.frame) =
      (payloads.map fun payload => dataMark ++ payload.bytes, []) ∧
    (payloads.map fun payload => dataMark ++ payload.bytes).flatMap (readFrame loads) =
      payloads.map Payload.chunk := by
  constructor
  · have oneLine : ∀ body ∈ payloads.map fun payload => dataMark ++ payload.bytes,
        Framing.lineFeed ∉ body := by
      intro body bodyMem
      rcases List.mem_map.mp bodyMem with ⟨payload, -, rfl⟩
      exact payload.oneLine
    rw [← Framing.frames_of_bodies oneLine, List.flatMap_map]
    rfl
  · induction payloads with
    | nil => rfl
    | cons payload rest ih =>
      rw [List.map_cons, List.flatMap_cons, readFrame_payload, ih]
      rfl

/-- The bytes of a stream of chunk objects are translated into a well-formed message
that holds all that the chunks brought, and the pieces they come in do not matter. -/
theorem stream_translation_well_formed_and_lossless (isJsonObject : String → Bool)
    (inputTokensEstimate : ℕ) (payloads : List (Payload loads))
    (pieces : List (List Framing.Byte)) (cut : pieces.flatten = payloads.flatMap Payload.frame) :
    (∀ ended, translate isJsonObject loads inputTokensEstimate pieces = some ended →
      ∃ message, readMessage ended.yielded = some message ∧
        Lossless (receivedFrom {} (payloads.map Payload.chunk)) ended.late message.blocks) ∧
    ∀ others : List (List Framing.Byte), others.flatten = pieces.flatten →
      translate isJsonObject loads inputTokensEstimate others =
        translate isJsonObject loads inputTokensEstimate pieces := by
  have fedAll := @feedAll_eq isJsonObject loads _ _ (running_init inputTokensEstimate) rfl
  constructor
  · intro ended translated
    rcases Option.map_eq_some_iff.mp translated with ⟨fed, fedSome, rfl⟩
    rw [fedAll, cut] at fedSome
    rcases chunks_of_payloads payloads with ⟨bodies, chunks⟩
    have buffer : (init inputTokensEstimate).buffer = [] := rfl
    rw [buffer, List.nil_append, bodies] at fedSome
    simp only [chunks] at fedSome
    rcases Option.map_eq_some_iff.mp fedSome with ⟨handled, handles, rfl⟩
    have running := running_handleChunks (running_init inputTokensEstimate) handles
    exact (running_buffer running []).finalize isJsonObject
  · intro others same
    unfold Translator.translate
    rw [fedAll, fedAll, same]

/-- The payload of a chunk with the delta. -/
def payloadBytes (delta : String) : List Framing.Byte :=
  ("\x7b\"choices\": [\x7b\"delta\": \x7b" ++ delta ++ "\x7d\x7d]\x7d").toUTF8.toList

def callDelta (index : ℤ) (id name : Option String) (arguments : ArgumentsField) : ChunkDelta :=
  { toolCalls := [{ index := .int index, id, name, arguments }] }

/-- The second call starts inside the first one, text waits behind both, the id of the second comes
when its block has started, and the first ends in a blank when its block has stopped. -/
def interleavedDeltas : List (List Framing.Byte × ChunkDelta) :=
  [(payloadBytes "\"content\": \"Hi\"", { content := some "Hi" }),
    (payloadBytes ("\"tool_calls\": [\x7b\"index\": 0, \"id\": \"a\", \"function\": " ++
      "\x7b\"name\": \"f\", \"arguments\": \"\x7b\\\"x\\\"\"\x7d\x7d]"),
      callDelta 0 "a" "f" (.text "\x7b\"x\"")),
    (payloadBytes ("\"tool_calls\": [\x7b\"index\": 1, \"function\": \x7b\"name\": \"g\", " ++
      "\"arguments\": \"\x7b\"\x7d\x7d]"), callDelta 1 none "g" (.text "\x7b")),
    (payloadBytes "\"content\": \"!\"", { content := some "!" }),
    (payloadBytes ("\"tool_calls\": [\x7b\"index\": 0, \"function\": " ++
      "\x7b\"arguments\": \": 1\x7d\"\x7d\x7d]"), callDelta 0 none none (.text ": 1\x7d")),
    (payloadBytes "\"tool_calls\": [\x7b\"index\": 1, \"id\": \"b\"\x7d]",
      callDelta 1 "b" none .absent),
    (payloadBytes ("\"tool_calls\": [\x7b\"index\": 0, \"function\": " ++
      "\x7b\"arguments\": \" \"\x7d\x7d]"), callDelta 0 none none (.text " ")),
    (payloadBytes ("\"tool_calls\": [\x7b\"index\": 1, \"function\": " ++
      "\x7b\"arguments\": \"\x7d\"\x7d\x7d]"), callDelta 1 none none (.text "\x7d"))]

def loadInterleaved (bytes : List Framing.Byte) : Option Chunk :=
  (interleavedDeltas.lookup bytes).map fun delta => { choice := some { delta } }

def interleaved : List (Payload loadInterleaved) :=
  interleavedDeltas.attach.map fun entry =>
    { bytes := entry.1.1
      chunk := { choice := some { delta := entry.1.2 } }
      oneLine := (show ∀ entry ∈ interleavedDeltas,
        Framing.lineFeed ∉ dataMark ++ entry.1 by decide +kernel) entry.1 entry.2
      loaded := (show ∀ entry ∈ interleavedDeltas, readLine loadInterleaved (dataMark ++ entry.1) =
        some { choice := some { delta := entry.2 } } by decide +kernel) entry.1 entry.2 }

/-- `json.loads` of the arguments of the two calls. -/
def readsArguments (text : String) : Bool := text ∈ ["\x7b\"x\": 1\x7d", "\x7b\x7d"]

def interleavedPieces : List (List Framing.Byte) :=
  [(interleaved.flatMap Payload.frame).take 201, (interleaved.flatMap Payload.frame).drop 201]

theorem stream_translation_of_interleaved_calls :
    ∃ ended message, translate readsArguments loadInterleaved 7 interleavedPieces = some ended ∧
      readMessage ended.yielded = some message ∧
      message.blocks =
        [⟨.text, "Hi"⟩, ⟨.toolUse "a" "f", "\x7b\"x\": 1\x7d"⟩, ⟨.toolUse "" "g", "\x7b\x7d"⟩,
          ⟨.text, "!"⟩] ∧
      Lossless (receivedFrom {} (interleaved.map Payload.chunk)) ended.late message.blocks := by
  have ends : (translate readsArguments loadInterleaved 7 interleavedPieces).isSome = true := by
    decide +kernel
  have translated := (Option.some_get ends).symm
  rcases (stream_translation_well_formed_and_lossless readsArguments 7 interleaved
    interleavedPieces (by simp [interleavedPieces])).1 _ translated with
    ⟨message, reads, lossless⟩
  have read : ((translate readsArguments loadInterleaved 7 interleavedPieces).bind fun ended =>
      readMessage ended.yielded).map Message.blocks =
        some [⟨.text, "Hi"⟩, ⟨.toolUse "a" "f", "\x7b\"x\": 1\x7d"⟩,
          ⟨.toolUse "" "g", "\x7b\x7d"⟩, ⟨.text, "!"⟩] := by
    decide +kernel
  rw [translated, Option.bind_some, reads, Option.map_some, Option.some.injEq] at read
  exact ⟨_, message, translated, reads, read, lossless⟩

end Pieces

end HybridInference.Anthropic
