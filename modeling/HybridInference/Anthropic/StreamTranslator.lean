import HybridInference.Anthropic.Usage
import HybridInference.Library.Framing
import HybridInference.Library.Json

/-!
# The stream translator of the Anthropic surface

`OpenAIToAnthropicStreamTranslator` of `serving.adapters.anthropic_translator`:
the bytes of an OpenAI chat stream go in, the frames of an Anthropic stream come
out. `feed` and `finalize` are asked for all their frames, so the frames yielded
so far are a field of the translator. Frames are kept as data, without the random
message id; a dictionary that is only looked up and written is a function.

Whether `json.loads` reads a text as an object is a parameter, and so is what it
reads from the payload of a frame: a chunk object with the fields that the
translator looks at.
-/

namespace HybridInference.Anthropic

open Library

inductive Scan where
  | empty
  | object
  | closed
  | invalid
  deriving DecidableEq

/-- `_ToolArguments`, its fragments joined. -/
structure ToolArguments where
  text : String := ""
  state : Scan := .empty
  depth : ℕ := 0
  inString : Bool := false
  escaped : Bool := false
  valid : Option Bool := none
  deriving DecidableEq

namespace ToolArguments

def isJsonSpace (c : Char) : Bool := c ∈ [' ', '\t', '\n', '\r']

/-- One character of `_scan`. -/
def scanChar (arguments : ToolArguments) (c : Char) : ToolArguments :=
  match arguments.state with
  | .invalid => arguments
  | .empty =>
    if isJsonSpace c then arguments
    else if c = '\x7b' then { arguments with state := .object, depth := 1 }
    else { arguments with state := .invalid }
  | .closed => if isJsonSpace c then arguments else { arguments with state := .invalid }
  | .object =>
    if arguments.inString then
      if arguments.escaped then { arguments with escaped := false }
      else if c = '"' then { arguments with inString := false }
      else if c = '\\' then { arguments with escaped := true }
      else arguments
    else if c = '"' then { arguments with inString := true }
    else if c = '\x7b' ∨ c = '[' then { arguments with depth := arguments.depth + 1 }
    else if c = '\x7d' ∨ c = ']' then
      { arguments with
        depth := arguments.depth - 1
        state := if arguments.depth = 1 then .closed else .object }
    else arguments

def append (arguments : ToolArguments) (fragment : String) : ToolArguments :=
  fragment.toList.foldl scanChar { arguments with text := arguments.text ++ fragment }

/-- `complete`: the answer, and the arguments with the answer kept. -/
def complete (isJsonObject : String → Bool) (arguments : ToolArguments) : Bool × ToolArguments :=
  if arguments.state = .closed then
    match arguments.valid with
    | some valid => (valid, arguments)
    | none =>
      (isJsonObject arguments.text, { arguments with valid := some (isJsonObject arguments.text) })
  else (false, arguments)

end ToolArguments

/-- The `index` of a tool call delta. -/
inductive CallIndex where
  | missing
  | int (value : ℤ)
  | other
  deriving DecidableEq

/-- The `arguments` of a tool call delta; an object as `json.dumps` writes it. -/
inductive ArgumentsField where
  | absent
  | text (fragment : String)
  | object (dumped : String)
  | other
  deriving DecidableEq

structure ToolCallDelta where
  index : CallIndex
  id : Option String := none
  name : Option String := none
  arguments : ArgumentsField := .absent
  deriving DecidableEq

/-- The `delta` of a choice, in the fields the translator reads. -/
structure ChunkDelta where
  reasoningContent : Option String := none
  reasoning : Option String := none
  thinking : Option String := none
  content : Option String := none
  toolCalls : List ToolCallDelta := []
  deriving DecidableEq

structure Choice where
  delta : ChunkDelta
  finishReason : Option String := none
  deriving DecidableEq

structure Chunk where
  usage : Option Usage := none
  choice : Option Choice := none
  deriving DecidableEq

inductive BlockKind where
  | thinking
  | text
  | toolUse (id name : String)
  deriving DecidableEq

inductive BlockDelta where
  | thinking (content : String)
  | text (content : String)
  | inputJson (partialJson : String)
  deriving DecidableEq

inductive Frame where
  /-- The comment that shows upstream activity. -/
  | keepalive
  | messageStart (usage : AnthropicUsage)
  | blockStart (index : ℕ) (kind : BlockKind)
  | blockDelta (index : ℕ) (delta : BlockDelta)
  | blockStop (index : ℕ)
  | messageDelta (stopReason : String) (usage : AnthropicUsage)
  | messageStop
  deriving DecidableEq

/-- What came for a tool call: its first non-empty id and name, and its argument fragments. -/
structure CallParts where
  id : String := ""
  name : String := ""
  arguments : String := ""
  deriving DecidableEq

/-- The state of a tool call. `late` is a ghost that nothing reads: the id and the name that came
after the block of the call had started, and the arguments that came after it had stopped. -/
structure Call where
  blockIndex : Option ℕ := none
  id : String := ""
  name : String := ""
  arguments : ToolArguments := {}
  opened : Bool := false
  closed : Bool := false
  late : CallParts := {}

def firstText (known given : String) : String := if known = "" then given else known

/-- The first non-empty id and name of a call stay. -/
def Call.named (call : Call) (delta : ToolCallDelta) : Call :=
  { call with
    id := firstText call.id (delta.id.getD "")
    name := firstText call.name (delta.name.getD "")
    late :=
      if call.opened then
        { call.late with
          id := if call.id = "" then delta.id.getD "" else call.late.id
          name := if call.name = "" then delta.name.getD "" else call.late.name }
      else call.late }

def Call.addLate (call : Call) (fragment : String) : Call :=
  { call with late := { call.late with arguments := call.late.arguments ++ fragment } }

def Call.carriesData (call : Call) : Bool :=
  call.id ≠ "" || call.name ≠ "" || call.arguments.text ≠ ""

inductive Pending where
  | tool (index : ℤ)
  | thinking (content : String)
  | text (content : String)

structure Translator where
  started : Bool := false
  closed : Bool := false
  aborted : Bool := false
  currentThinking : Option ℕ := none
  currentText : Option ℕ := none
  pending : List Pending := []
  toolCalls : ℤ → Option Call := fun _ => none
  openTool : Option ℤ := none
  nextIndex : ℕ := 0
  finishReason : Option String := none
  usage : AnthropicUsage
  upstreamUsage : Option Usage := none
  buffer : List Framing.Byte := []
  yielded : List Frame := []

namespace Translator

def emit (translator : Translator) (frame : Frame) : Translator :=
  { translator with yielded := translator.yielded ++ [frame] }

def setCall (translator : Translator) (index : ℤ) (call : Call) : Translator :=
  { translator with toolCalls := Function.update translator.toolCalls index (some call) }

def emitMessageStart (translator : Translator) : Translator :=
  { translator with started := true }.emit (.messageStart translator.usage)

def closeThinking (translator : Translator) : Translator :=
  match translator.currentThinking with
  | some index => { translator.emit (.blockStop index) with currentThinking := none }
  | none => translator

def closeText (translator : Translator) : Translator :=
  match translator.currentText with
  | some index => { translator.emit (.blockStop index) with currentText := none }
  | none => translator

def closeVisibleBlocks (translator : Translator) : Translator :=
  translator.closeThinking.closeText

def openThinking (translator : Translator) : Translator :=
  let closed := translator.closeText
  { closed with
    currentThinking := some closed.nextIndex
    nextIndex := closed.nextIndex + 1 }.emit (.blockStart closed.nextIndex .thinking)

def emitThinking (translator : Translator) (content : String) : Translator :=
  match translator.currentThinking with
  | some index => translator.emit (.blockDelta index (.thinking content))
  | none =>
    translator.openThinking.emit (.blockDelta translator.nextIndex (.thinking content))

def openText (translator : Translator) : Translator :=
  let closed := translator.closeThinking
  { closed with
    currentText := some closed.nextIndex
    nextIndex := closed.nextIndex + 1 }.emit (.blockStart closed.nextIndex .text)

def emitText (translator : Translator) (content : String) : Translator :=
  match translator.currentText with
  | some index => translator.emit (.blockDelta index (.text content))
  | none => translator.openText.emit (.blockDelta translator.nextIndex (.text content))

def closeOpenTool (translator : Translator) : Translator :=
  match translator.openTool with
  | none => translator
  | some index =>
    match translator.toolCalls index with
    | some call =>
      { (translator.emit (.blockStop (call.blockIndex.getD 0))).setCall index
          { call with closed := true } with
        openTool := none }
    | none => translator

def openToolBlock (translator : Translator) (index : ℤ) (call : Call) : Translator :=
  let free := translator.closeOpenTool.closeVisibleBlocks
  let started := { free.setCall index
      { call with blockIndex := some free.nextIndex, opened := true } with
    nextIndex := free.nextIndex + 1
    openTool := some index }.emit (.blockStart free.nextIndex (.toolUse call.id call.name))
  if call.arguments.text = "" then started
  else started.emit (.blockDelta free.nextIndex (.inputJson call.arguments.text))

/-- `_call_arguments_complete` of the open tool: the answer, which is kept. -/
def openToolComplete (isJsonObject : String → Bool) (translator : Translator) : Bool × Translator :=
  match translator.openTool with
  | none => (true, translator)
  | some index =>
    match translator.toolCalls index with
    | some call =>
      ((call.arguments.complete isJsonObject).1, translator.setCall index
          { call with arguments := (call.arguments.complete isJsonObject).2 })
    | none => (true, translator)

def freeWire (isJsonObject : String → Bool) (finalizing : Bool) (translator : Translator) :
    Option Translator × Translator :=
  if translator.openTool.isNone then (some translator, translator)
  else if finalizing then (some translator.closeOpenTool, translator)
  else
    let asked := translator.openToolComplete isJsonObject
    if asked.1 then (some asked.2.closeOpenTool, asked.2) else (none, asked.2)

/-- `_drain_pending_events` of the events `queue`. A head that waits for the wire is
looked at again once the open tool is closed; here in the same round. -/
def drain (isJsonObject : String → Bool) (finalizing : Bool) :
    List Pending → Translator → Translator
  | [], translator => { translator with pending := [] }
  | .tool index :: rest, translator =>
    match translator.toolCalls index with
    | none => { translator with pending := .tool index :: rest }
    | some call =>
      if call.opened || call.closed then drain isJsonObject finalizing rest translator
      else
        match freeWire isJsonObject finalizing translator with
        | (none, blocked) => { blocked with pending := .tool index :: rest }
        | (some free, _) =>
          if finalizing && !call.carriesData then drain isJsonObject finalizing rest free
          else
            let opened := free.openToolBlock index call
            if finalizing then drain isJsonObject finalizing rest opened.closeOpenTool
            else if rest.isEmpty then { opened with pending := [] }
            else
              let asked := opened.openToolComplete isJsonObject
              if asked.1 then drain isJsonObject finalizing rest asked.2.closeOpenTool
              else { asked.2 with pending := rest }
  | .thinking content :: rest, translator =>
    match freeWire isJsonObject finalizing translator with
    | (none, blocked) => { blocked with pending := .thinking content :: rest }
    | (some free, _) => drain isJsonObject finalizing rest (free.emitThinking content)
  | .text content :: rest, translator =>
    match freeWire isJsonObject finalizing translator with
    | (none, blocked) => { blocked with pending := .text content :: rest }
    | (some free, _) => drain isJsonObject finalizing rest (free.emitText content)

def drainPendingEvents (isJsonObject : String → Bool) (finalizing : Bool)
    (translator : Translator) : Translator :=
  translator.drain isJsonObject finalizing translator.pending

def handleContent (isJsonObject : String → Bool) (translator : Translator) (event : Pending) :
    Translator :=
  let drained := { translator with pending := translator.pending ++ [event] }.drainPendingEvents
    isJsonObject false
  if drained.pending.isEmpty then drained else drained.emit .keepalive

/-- `_tool_call_state`: the state of the call with its first non-empty id and name,
and the translator that keeps it. -/
def toolCallState (translator : Translator) (index : ℤ) (delta : ToolCallDelta) :
    Call × Translator :=
  let known := match translator.toolCalls index with
    | some call => (call, translator)
    | none => ({}, { translator with pending := translator.pending ++ [Pending.tool index] })
  (known.1.named delta, known.2.setCall index (known.1.named delta))

def normalizePartialArguments (delta : ToolCallDelta) : Option String :=
  match delta.arguments with
  | .text fragment => some fragment
  | .object dumped => some dumped
  | .absent | .other => none

/-- The characters `str.strip` takes off. -/
def isBlank (text : String) : Bool := text.toList.all Text.isSpace

def appendFragment (isJsonObject : String → Bool) (translator : Translator) (index : ℤ)
    (call : Call) (fragment : String) : Translator :=
  let received :=
    if fragment = "" then translator
    else translator.setCall index { call with arguments := call.arguments.append fragment }
  if call.opened then
    let sent :=
      if fragment = "" then received
      else received.emit (.blockDelta (call.blockIndex.getD 0) (.inputJson fragment))
    sent.drainPendingEvents isJsonObject false
  else
    let drained := received.drainPendingEvents isJsonObject false
    if fragment ≠ "" ∧ (drained.toolCalls index).any (fun call => !call.opened) then
      drained.emit .keepalive
    else drained

/-- `_emit_tool_call_delta`; `none` where it raises `ValueError`. -/
def emitToolCallDelta (isJsonObject : String → Bool) (translator : Translator)
    (delta : ToolCallDelta) : Option Translator :=
  match delta.index with
  | .other => none
  | .missing => attach 0
  | .int index => attach index
where
  attach (index : ℤ) : Option Translator :=
    let state := translator.toolCallState index delta
    let fragment := (normalizePartialArguments delta).getD ""
    if state.1.closed then
      if isBlank fragment then some (state.2.setCall index (state.1.addLate fragment)) else none
    else some (appendFragment isJsonObject state.2 index state.1 fragment)

def emitToolCallDeltas (isJsonObject : String → Bool) :
    Translator → List ToolCallDelta → Option Translator
  | translator, [] => some translator
  | translator, delta :: rest =>
    (translator.emitToolCallDelta isJsonObject delta).bind fun next =>
      emitToolCallDeltas isJsonObject next rest

/-- The usage block of `_handle_chunk`. -/
def recordUsage (translator : Translator) (usage : Usage) : Translator :=
  if usage.isEmpty then translator
  else
    let merged := (translator.upstreamUsage.getD []).merge usage
    let cache := extractCacheTokens usage
    let inputTokens := usageCount (usage.get "prompt_tokens") - cache.1.getD 0 - cache.2.getD 0
    { translator with
      upstreamUsage := some merged
      usage :=
        { inputTokens := if usage.has "prompt_tokens" then inputTokens
            else translator.usage.inputTokens
          outputTokens := if merged.get "completion_tokens" = .null then
              translator.usage.outputTokens
            else anthropicOutputTokens (openaiUsageRecord merged)
          cacheReadInputTokens := cache.1.or translator.usage.cacheReadInputTokens
          cacheCreationInputTokens := cache.2.or translator.usage.cacheCreationInputTokens } }

/-- `a or b` of two texts that may be missing. -/
def orText (first second : Option String) : Option String :=
  if first.getD "" = "" then second else first

def reasoningOf (delta : ChunkDelta) : String :=
  (orText (orText delta.reasoningContent delta.reasoning) delta.thinking).getD ""

def handleReasoning (isJsonObject : String → Bool) (delta : ChunkDelta) (translator : Translator) :
    Translator :=
  if reasoningOf delta = "" then translator
  else translator.handleContent isJsonObject (.thinking (reasoningOf delta))

def handleText (isJsonObject : String → Bool) (delta : ChunkDelta) (translator : Translator) :
    Translator :=
  if delta.content.getD "" = "" then translator
  else translator.handleContent isJsonObject (.text (delta.content.getD ""))

/-- `_handle_chunk`, of the first choice. -/
def handleChoice (isJsonObject : String → Bool) (translator : Translator) (choice : Choice) :
    Option Translator :=
  let started := if translator.started then translator else translator.emitMessageStart
  let said := handleText isJsonObject choice.delta
    (handleReasoning isJsonObject choice.delta started)
  (emitToolCallDeltas isJsonObject said choice.delta.toolCalls).map fun called =>
    { called with
      finishReason := if choice.finishReason.getD "" = "" then called.finishReason
        else choice.finishReason }

def handleChunk (isJsonObject : String → Bool) (translator : Translator) (chunk : Chunk) :
    Option Translator :=
  let counted := match chunk.usage with
    | some usage => translator.recordUsage usage
    | none => translator
  match chunk.choice with
  | some choice => counted.handleChoice isJsonObject choice
  | none => some counted

/-- The white space `bytes.strip` takes off. -/
def isByteSpace (byte : Framing.Byte) : Bool := byte ∈ [32, 9, 10, 13, 11, 12]

def stripBytes (bytes : List Framing.Byte) : List Framing.Byte :=
  ((bytes.dropWhile isByteSpace).reverse.dropWhile isByteSpace).reverse

def dataMark : List Framing.Byte := "data: ".toUTF8.toList

def doneMark : List Framing.Byte := "[DONE]".toUTF8.toList

def readLine (loads : List Framing.Byte → Option Chunk) (line : List Framing.Byte) :
    Option Chunk :=
  if dataMark.isPrefixOf line then
    let payload := stripBytes (line.drop dataMark.length)
    if payload = [] ∨ payload = doneMark then none else loads payload
  else none

def readFrame (loads : List Framing.Byte → Option Chunk) (frame : List Framing.Byte) :
    List Chunk :=
  (frame.splitOn Framing.lineFeed).filterMap (readLine loads)

def handleChunks (isJsonObject : String → Bool) : Translator → List Chunk → Option Translator
  | translator, [] => some translator
  | translator, chunk :: rest =>
    (translator.handleChunk isJsonObject chunk).bind fun next =>
      handleChunks isJsonObject next rest

/-- `feed`; `none` where it raises. -/
def feed (isJsonObject : String → Bool) (loads : List Framing.Byte → Option Chunk)
    (translator : Translator) (bytes : List Framing.Byte) : Option Translator :=
  if translator.closed || translator.aborted then some translator
  else
    let cut := Framing.frames (translator.buffer ++ bytes)
    { translator with buffer := cut.2 }.handleChunks isJsonObject (cut.1.flatMap (readFrame loads))

/-- `_FINISH_REASON_MAP.get(reason, "end_turn")`. -/
def stopReasonOf (finishReason : Option String) : String :=
  match finishReason with
  | some "length" => "max_tokens"
  | some "tool_calls" => "tool_use"
  | some "content_filter" => "refusal"
  | _ => "end_turn"

def finalize (isJsonObject : String → Bool) (translator : Translator) : Translator :=
  if translator.closed || translator.aborted then translator
  else
    let started := if translator.started then translator else translator.emitMessageStart
    let quiet := ((started.drainPendingEvents isJsonObject true).closeOpenTool).closeVisibleBlocks
    { (quiet.emit (.messageDelta (stopReasonOf quiet.finishReason) quiet.usage)).emit .messageStop
      with closed := true }

def init (inputTokensEstimate : ℕ) : Translator where
  usage := { inputTokens := inputTokensEstimate, outputTokens := 0 }

/-- `feed` of all the pieces, one after another. -/
def feedAll (isJsonObject : String → Bool) (loads : List Framing.Byte → Option Chunk) :
    Translator → List (List Framing.Byte) → Option Translator
  | translator, [] => some translator
  | translator, piece :: rest =>
    (translator.feed isJsonObject loads piece).bind fun next =>
      feedAll isJsonObject loads next rest

/-- The translator after a whole stream, with all its frames; `none` where it raises
`ValueError`. -/
def translate (isJsonObject : String → Bool) (loads : List Framing.Byte → Option Chunk)
    (inputTokensEstimate : ℕ) (pieces : List (List Framing.Byte)) : Option Translator :=
  ((init inputTokensEstimate).feedAll isJsonObject loads pieces).map (finalize isJsonObject)

/-- What came too late for the block of a call. -/
def late (translator : Translator) (index : ℤ) : CallParts :=
  ((translator.toolCalls index).map Call.late).getD {}

end Translator

end HybridInference.Anthropic
