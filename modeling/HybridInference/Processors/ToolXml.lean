import HybridInference.Library.Strip
import HybridInference.Library.TagRemoval
import HybridInference.Processors.ReasoningExtract

/-!
# Tool calls in XML

`GLMProcessor` and `QwenCoderProcessor` of `serving.adapters.processors` hold the text of a
stream back from its first `<tool_call>` on, and parse it when the stream ends. What
`json.loads` reads of a value and `json.dumps` writes of the arguments is left open.
-/

namespace HybridInference.Processors

open Library
open Library.Tags

/-- `json.loads`, of a text that is JSON, and `json.dumps` of a dictionary. -/
structure JsonCodec where
  loads : List Char → Option Value
  dumps : List (List Char × Value) → String

structure ToolCall where
  index : ℕ
  name : List Char
  arguments : String
  deriving DecidableEq

def toolCallTag : Tag := ⟨"tool_call>".toList, by decide⟩

def contains (pattern text : List Char) : Bool := (find pattern text).isSome

def setArgument (args : List (List Char × Value)) (name : List Char) (value : Value) :
    List (List Char × Value) :=
  match args with
  | [] => [(name, value)]
  | (other, was) :: rest =>
    if other = name then (name, value) :: rest else (other, was) :: setArgument rest name value

def argumentValue (codec : JsonCodec) (text : List Char) : Value :=
  if ("[".toList.isPrefixOf text && "]".toList.isSuffixOf text) ||
      ("\x7b".toList.isPrefixOf text && "\x7d".toList.isSuffixOf text) then
    (codec.loads text).getD (.str (String.ofList text))
  else .str (String.ofList text)

/-- `_TOOL_CALL_RE.findall`, after the opening tag of a block. -/
def closedBlocks : ℕ → List Char → List (List Char)
  | 0, _ => []
  | rounds + 1, after =>
    match find "</tool_call>".toList after with
    | none => []
    | some j =>
      let rest := after.drop (j + 12)
      after.take j :: match find toolCallTag.text rest with
        | none => []
        | some i => closedBlocks rounds (rest.drop (i + 11))

/-- `_TOOL_CALL_RE.findall`: each block takes characters off the text, so as many rounds as there
are are enough. -/
def toolBlocks (text : List Char) : List (List Char) :=
  match find toolCallTag.text text with
  | none => []
  | some i => closedBlocks text.length (text.drop (i + 11))

/-- A text without the line break at its end: where `$` first matches in it. -/
def untilEnd (text : List Char) : List Char :=
  if "\n".toList.isSuffixOf text then text.dropLast else text

/-- The name and the rest of a tag such as `<function=name>`, at the front of a text. -/
def namedTag (mark text : List Char) : Option (List Char × List Char) :=
  if mark.isPrefixOf text then
    let after := text.drop mark.length
    let name := after.takeWhile (· ≠ '>')
    match after.dropWhile (· ≠ '>') with
    | [] => none
    | _ :: rest => if name.isEmpty then none else some (name, rest)
  else none

/-- `_FUNCTION_RE.search`: the name and the parameters of the first function of a text. -/
def searchFunction : List Char → Option (List Char × List Char)
  | [] => none
  | c :: rest =>
    match namedTag "<function=".toList (c :: rest) with
    | some (name, body) =>
      some (name, match find "</function>".toList body with
        | some i => body.take i
        | none => untilEnd body)
    | none => searchFunction rest

def parameterValue (text : List Char) : List Char × List Char :=
  let ends : List (ℕ × ℕ) :=
    (find "</parameter>".toList text).toList.map (fun i => (i, 12)) ++
      (find "<parameter=".toList text).toList.map (fun i => (i, 0)) ++
      (find "</function>".toList text).toList.map (fun i => (i, 0))
  let (stop, skipped) := ends.foldl (fun best other => if other.1 < best.1 then other else best)
    ((untilEnd text).length, 0)
  (text.take stop, text.drop (stop + skipped))

/-- `_PARAMETER_RE.finditer`. Each round takes a character off the text. -/
def parameters : ℕ → List Char → List (List Char × List Char)
  | 0, _ | _, [] => []
  | rounds + 1, c :: rest =>
    match namedTag "<parameter=".toList (c :: rest) with
    | some (name, body) =>
      let (value, later) := parameterValue body
      (name, value) :: parameters rounds later
    | none => parameters rounds rest

def trimNewlines (value : List Char) : List Char :=
  let trimmed := if "\n".toList.isPrefixOf value then value.drop 1 else value
  if "\n".toList.isSuffixOf trimmed then trimmed.dropLast else trimmed

def qwenCall (codec : JsonCodec) (block : List Char) : Option (List Char × String) :=
  (searchFunction block).map fun function =>
    (Text.strip function.1, codec.dumps ((parameters function.2.length function.2).foldl
      (fun args parameter =>
        setArgument args (Text.strip parameter.1)
          (argumentValue codec (trimNewlines parameter.2))) []))

def parsedBlocks (text : List Char) : List (List Char) :=
  if (toolBlocks text).isEmpty then
    if contains "<function=".toList text then [text] else []
  else toolBlocks text

/-- `_parse_qwen_tool_xml`, where no call is the same as none. -/
def parseQwenToolXml (codec : JsonCodec) (text : List Char) : List ToolCall :=
  (parsedBlocks text).zipIdx.filterMap fun block =>
    (qwenCall codec block.1).map fun call => ⟨block.2, call.1, call.2⟩

def argumentAfter : List Char → List Char → Option (List Char × List Char × List Char)
  | _, [] => none
  | key, c :: rest =>
    let value :=
      if "</arg_key>".toList.isPrefixOf (c :: rest) then
        let after := ((c :: rest).drop 10).dropWhile Text.isSpace
        if "<arg_value>".toList.isPrefixOf after then
          (find "</arg_value>".toList (after.drop 11)).map fun i =>
            ((after.drop 11).take i, after.drop (11 + i + 12))
        else none
      else none
    match value with
    | some (value, later) => some (key.reverse, value, later)
    | none => argumentAfter (c :: key) rest

def arguments : ℕ → List Char → List (List Char × List Char)
  | 0, _ | _, [] => []
  | rounds + 1, c :: rest =>
    if "<arg_key>".toList.isPrefixOf (c :: rest) then
      match argumentAfter [] ((c :: rest).drop 9) with
      | some (key, value, later) => (key, value) :: arguments rounds later
      | none => arguments rounds rest
    else arguments rounds rest

/-- What `text.split("<tool_call>")[1:]` gives, after an opening tag. -/
def splitToolCalls : ℕ → List Char → List (List Char)
  | 0, text => [text]
  | rounds + 1, text =>
    match find toolCallTag.text text with
    | none => [text]
    | some i => text.take i :: splitToolCalls rounds (text.drop (i + 11))

def segments (text : List Char) : List (List Char) :=
  match find toolCallTag.text text with
  | none => []
  | some i => splitToolCalls text.length (text.drop (i + 11))

def segmentName (segment : List Char) : List Char :=
  Text.strip ((segment.dropWhile Text.isSpace).takeWhile fun c => c ≠ '<' && c ≠ '\n')

def glmCall (codec : JsonCodec) (segment : List Char) : Option (List Char × String) :=
  if (segmentName segment).isEmpty then none
  else
    some (segmentName segment, codec.dumps ((arguments segment.length segment).foldl
      (fun args argument =>
        setArgument args (Text.strip argument.1) (argumentValue codec (Text.strip argument.2))) []))

/-- `_parse_glm_tool_xml`, where no call is the same as none. -/
def parseGlmToolXml (codec : JsonCodec) (text : List Char) : List ToolCall :=
  ((segments text).filterMap (glmCall codec)).zipIdx.map fun call => ⟨call.2, call.1.1, call.1.2⟩

structure XmlState where
  buffer : List Char
  inToolMode : Bool
  modelId : String
  upstreamFinishReason : Value

/-- What the two processors do with their buffer once text was added to it: the text to give
out, the rest of the buffer, and whether tool calls are buffered from now on. -/
def absorb (piece pre : List Char → List Char) (inToolMode : Bool) (buffer : List Char) :
    List Char × List Char × Bool :=
  if inToolMode then ([], buffer, true)
  else
    match find toolCallTag.text buffer with
    | some i => (pre (buffer.take i), buffer.drop i, true)
    | none =>
      let safe := safeIndex 20 buffer
      (piece (buffer.take safe), buffer.drop safe, false)

def absorbChunk (piece pre : List Char → List Char) (state : XmlState) (chunk : Chunk)
    (content : String) : XmlState × List Chunk :=
  let (text, buffer, inToolMode) :=
    absorb piece pre state.inToolMode (state.buffer ++ content.toList)
  ({ state with
      buffer := buffer
      inToolMode := inToolMode
      modelId := chunk.model.getD state.modelId },
    if text.isEmpty then signalsOf chunk else [withContent chunk text])

/-- `fr = choices[0].get("finish_reason")`, kept where there is one. -/
def noteFinishReason (state : XmlState) (choice : Choice) : XmlState :=
  if choice.finishReason.isTruthy then
    { state with upstreamFinishReason := choice.finishReason }
  else state

def thinkOpen : Tag := ⟨"think>".toList, by decide⟩

def thinkClose : Tag := ⟨"/think>".toList, by decide⟩

/-- `text.replace("<think>", "").replace("</think>", "")`. -/
def withoutThinkTags (text : List Char) : List Char :=
  removeAll thinkClose 0 (removeAll thinkOpen 0 text)

/-- `GLMProcessor.process_stream_chunk`: text that is neither a string nor null cannot be added
to the buffer. -/
def glmStreamChunk (state : XmlState) (chunk : Chunk) : Except PyError (XmlState × List Chunk) :=
  match chunk.choices with
  | [] => .ok (state, [chunk])
  | choice :: _ =>
    let noted := noteFinishReason state choice
    match choice.delta.find "content" with
    | none => .ok (absorbChunk withoutThinkTags withoutThinkTags noted chunk "")
    | some .null => .ok (noted, [chunk])
    | some (.str content) =>
      .ok (absorbChunk withoutThinkTags withoutThinkTags noted chunk content)
    | some _ => .error .typeError

def qwenStreamChunk (state : XmlState) (chunk : Chunk) : XmlState × List Chunk :=
  match chunk.choices with
  | [] => (state, [chunk])
  | choice :: _ =>
    let noted := noteFinishReason state choice
    if (choice.delta.get "tool_calls").isTruthy then (noted, [chunk])
    else
      match choice.delta.text "content" with
      | none => (noted, signalsOf chunk)
      | some content => absorbChunk id Text.strip noted chunk content

structure Flushed where
  content : List Char
  toolCalls : List ToolCall
  finishReason : Value

/-- An upstream `"stop"` becomes `"tool_calls"`; what says that the reply was cut off stays. -/
def toolFinishReason (upstream : Value) : Value :=
  match upstream with
  | .null | .str "" | .str "stop" => .str "tool_calls"
  | other => other

def flushXml (parse : List Char → List ToolCall) (last : List Char → List Char)
    (state : XmlState) : Option Flushed :=
  if state.buffer.isEmpty then none
  else if state.inToolMode then
    if (parse state.buffer).isEmpty then some ⟨state.buffer, [], .null⟩
    else some ⟨[], parse state.buffer, toolFinishReason state.upstreamFinishReason⟩
  else if (last state.buffer).isEmpty then none
  else some ⟨last state.buffer, [], .null⟩

def glmFlush (codec : JsonCodec) : XmlState → Option Flushed :=
  flushXml (parseGlmToolXml codec) withoutThinkTags

def qwenFlush (codec : JsonCodec) : XmlState → Option Flushed :=
  flushXml (parseQwenToolXml codec) Text.strip

structure Reply where
  content : Option String
  toolCalls : List ToolCall
  finishReason : Value

def glmResponse (reply : Reply) : Reply :=
  match reply.content with
  | none => reply
  | some content =>
    if content.isEmpty then reply
    else { reply with content := some (String.ofList (withoutThinkTags content.toList)) }

def qwenResponse (codec : JsonCodec) (reply : Reply) : Reply :=
  match reply.content with
  | none => reply
  | some content =>
    match find toolCallTag.text content.toList with
    | none => reply
    | some i =>
      if (parseQwenToolXml codec content.toList).isEmpty then reply
      else
        { content :=
            if 0 < i then some (String.ofList (Text.strip (content.toList.take i))) else none
          toolCalls := parseQwenToolXml codec content.toList
          finishReason := .str "tool_calls" }

structure XmlProcessor where
  fresh : XmlState
  streamChunk : XmlState → Chunk → Except PyError (XmlState × List Chunk)
  flush : XmlState → Option Flushed
  response : Reply → Reply

def glm (codec : JsonCodec) : XmlProcessor where
  fresh := ⟨[], false, "glm-4", .null⟩
  streamChunk := glmStreamChunk
  flush := glmFlush codec
  response := glmResponse

def qwenCoder (codec : JsonCodec) : XmlProcessor where
  fresh := ⟨[], false, "qwen3-coder", .null⟩
  streamChunk := fun state chunk => .ok (qwenStreamChunk state chunk)
  flush := qwenFlush codec
  response := qwenResponse codec

def XmlProcessor.run (processor : XmlProcessor) :
    XmlState → List Chunk → Except PyError (XmlState × List Chunk)
  | state, [] => .ok (state, [])
  | state, chunk :: rest => do
    let (after, first) ← processor.streamChunk state chunk
    let (last, later) ← processor.run after rest
    return (last, first ++ later)

def Chunk.content (chunk : Chunk) : List Char :=
  match chunk.choices with
  | [] => []
  | choice :: _ => ((choice.delta.text "content").getD "").toList

structure Emitted where
  content : List Char
  calls : List (List Char × String)

def Emitted.ofStream (sent : List Chunk) (flushed : Option Flushed) : Emitted where
  content := sent.flatMap Chunk.content ++ (flushed.map Flushed.content).getD []
  calls := ((flushed.map Flushed.toolCalls).getD []).map fun call => (call.name, call.arguments)

def XmlProcessor.emitted (processor : XmlProcessor) (chunks : List Chunk) :
    Except PyError Emitted := do
  let (state, sent) ← processor.run processor.fresh chunks
  return .ofStream sent (processor.flush state)

end HybridInference.Processors
