import HybridInference.Library.Generator
import HybridInference.Library.Json
import Mathlib.Data.List.Sort

/-!
# The stream translator of the Responses surface

`ResponsesStreamTranslator` of `serving.responses_translator`: the chunks of a
chat-completions stream go in, Responses events come out, and after `finalize`
the response and the assistant message of the turn are there to be stored.

`feed` and `finalize` are generators, and their writes stand between the events
they yield. Texts that the source keeps as pieces and joins when read are joined
as they arrive. Item ids are random in the source; here the n-th id drawn is `n`.
The fields a response echoes from its request are left out, and so is the
rendering of a payload as text. What `json.loads` reads from a text and what
`_map_usage` makes of a usage object (`none` where it raises) are parameters.
-/

namespace HybridInference.Responses

open Library

inductive Status where
  | inProgress
  | completed
  | incomplete
  | failed
  deriving DecidableEq

/-- `str` of the code is left out. -/
structure ErrorPayload where
  code : Json
  message : Json

structure TextItem where
  id : ℕ
  status : Status
  text : String

structure CallItem where
  id : ℕ
  callId : Json
  name : String
  arguments : String
  status : Status

inductive OutputItem where
  | message (item : TextItem)
  | functionCall (item : CallItem)

structure Response where
  status : Status
  error : Option ErrorPayload := none
  /-- The `reason` of `incomplete_details`. -/
  incompleteDetails : Option String := none
  output : List OutputItem := []
  usage : Option Json := none

structure ToolCall where
  id : Json
  name : String
  arguments : String

/-- The assistant chat message of the turn; a part that is not in the source's
dictionary is `none` or empty. -/
structure AssistantMessage where
  content : Option String
  toolCalls : List ToolCall
  reasoningContent : Option String

inductive EventBody where
  | created (response : Response)
  | inProgress (response : Response)
  | messageAdded (outputIndex : ℕ) (item : TextItem)
  | contentPartAdded (itemId outputIndex : ℕ)
  | outputTextDelta (itemId outputIndex : ℕ) (delta : String)
  | outputTextDone (itemId outputIndex : ℕ) (text : String)
  | contentPartDone (itemId outputIndex : ℕ) (text : String)
  | messageDone (outputIndex : ℕ) (item : TextItem)
  | functionCallAdded (outputIndex : ℕ) (item : CallItem)
  | argumentsDelta (itemId outputIndex : ℕ) (delta : String)
  | argumentsDone (itemId outputIndex : ℕ) (arguments : String)
  | functionCallDone (outputIndex : ℕ) (item : CallItem)
  | responseFailed (response : Response)
  | error (payload : ErrorPayload)
  | responseCompleted (response : Response)
  | responseIncomplete (response : Response)

inductive Event where
  | keepalive
  | numbered (sequenceNumber : ℕ) (body : EventBody)

structure TextSegment where
  itemId : ℕ
  outputIndex : ℕ
  text : String

/-- The open text item: `_cur_text_id`, `_cur_text_index` and `_cur_text`. -/
structure OpenText where
  itemId : ℕ
  outputIndex : ℕ
  text : String

structure CallState where
  itemId : ℕ
  outputIndex : ℕ
  callId : Json
  name : String
  arguments : String

structure Translator where
  seq : ℕ := 0
  createdEmitted : Bool := false
  nextOutputIndex : ℕ := 0
  drawn : ℕ := 0
  current : Option OpenText := none
  textSegments : List TextSegment := []
  reasoning : String := ""
  /-- `_tool_calls` in the order of `_tool_order`. -/
  toolCalls : List (Json.Key × CallState) := []
  finishReason : Option Json := none
  usage : Option Json := none
  failed : Bool := false
  errorPayload : Option ErrorPayload := none
  finalResponse : Option Response := none
  assistantMessage : Option AssistantMessage := none

inductive TranslatorWrite where
  | nextSeq
  | createdEmitted
  | failed (payload : ErrorPayload)
  | usage (usage : Json)
  | finishReason (reason : Json)
  | openText
  | appendText (content : String)
  | resetText
  | pushSegment (segment : TextSegment)
  | reasoning (content : String)
  | newCall (index : Json.Key)
  | callId (index : Json.Key) (id : Json)
  | callName (index : Json.Key) (name : String)
  | callArguments (index : Json.Key) (arguments : String)
  | finalResponse (response : Response)
  | assistantMessage (message : AssistantMessage)

def updateCall (index : Json.Key) (change : CallState → CallState)
    (calls : List (Json.Key × CallState)) : List (Json.Key × CallState) :=
  calls.map fun entry => if entry.1 = index then (entry.1, change entry.2) else entry

namespace Translator

def apply (translator : Translator) : TranslatorWrite → Translator
  | .nextSeq => { translator with seq := translator.seq + 1 }
  | .createdEmitted => { translator with createdEmitted := true }
  | .failed payload => { translator with failed := true, errorPayload := some payload }
  | .usage usage => { translator with usage := some usage }
  | .finishReason reason => { translator with finishReason := some reason }
  | .openText =>
    { translator with
      current := some ⟨translator.drawn, translator.nextOutputIndex, ""⟩
      drawn := translator.drawn + 1
      nextOutputIndex := translator.nextOutputIndex + 1 }
  | .appendText content =>
    { translator with
      current := translator.current.map fun text => { text with text := text.text ++ content } }
  | .resetText => { translator with current := none }
  | .pushSegment segment =>
    { translator with textSegments := translator.textSegments ++ [segment] }
  | .reasoning content => { translator with reasoning := translator.reasoning ++ content }
  | .newCall index =>
    { translator with
      toolCalls := translator.toolCalls ++
        [(index, ⟨translator.drawn, translator.nextOutputIndex, .str "", "", ""⟩)]
      drawn := translator.drawn + 1
      nextOutputIndex := translator.nextOutputIndex + 1 }
  | .callId index id =>
    { translator with
      toolCalls := updateCall index (fun call => { call with callId := id }) translator.toolCalls }
  | .callName index name =>
    { translator with
      toolCalls := updateCall index (fun call => { call with name := call.name ++ name })
        translator.toolCalls }
  | .callArguments index arguments =>
    { translator with
      toolCalls := updateCall index
        (fun call => { call with arguments := call.arguments ++ arguments })
        translator.toolCalls }
  | .finalResponse response => { translator with finalResponse := some response }
  | .assistantMessage message => { translator with assistantMessage := some message }

end Translator

instance : Object Translator TranslatorWrite where
  apply := Translator.apply

abbrev Translating (Value : Type) := Generator Translator Event Value

open Generator

/-- `_emit`, and the `yield` of what it returns. -/
def emitEvent (body : EventBody) : Translating Unit := do
  let translator ← read
  write .nextSeq
  emit (.numbered translator.seq body)

def skeleton (status : Status) : Response := { status }

/-- `_close_text_block`, of the open text `text`. -/
def closeTextBlock (text : OpenText) : Translating Unit := do
  write .resetText
  emitEvent (.outputTextDone text.itemId text.outputIndex text.text)
  emitEvent (.contentPartDone text.itemId text.outputIndex text.text)
  emitEvent (.messageDone text.outputIndex ⟨text.itemId, .completed, text.text⟩)
  write (.pushSegment ⟨text.itemId, text.outputIndex, text.text⟩)

/-- `if self._cur_text_id is not None: yield from self._close_text_block()`. -/
def closeOpenText : Translating Unit := do
  let translator ← read
  match translator.current with
  | some text => closeTextBlock text
  | none => pure ()

/-- The events of a text item that `_feed_text` opens. -/
def openTextBlock : Translating Unit := do
  let translator ← read
  match translator.current with
  | some _ => pure ()
  | none => do
    write .openText
    emitEvent (.messageAdded translator.nextOutputIndex ⟨translator.drawn, .inProgress, ""⟩)
    emitEvent (.contentPartAdded translator.drawn translator.nextOutputIndex)

def feedText (content : String) : Translating Unit := do
  openTextBlock
  write (.appendText content)
  let translator ← read
  match translator.current with
  | some text => emitEvent (.outputTextDelta text.itemId text.outputIndex content)
  | none => pure ()

/-- `idx not in self._tool_calls`. -/
def isNewCall (translator : Translator) (index : Json.Key) : Bool :=
  translator.toolCalls.all fun entry => entry.1 ≠ index

def callIndex (call : List (String × Json)) : Translating Json.Key :=
  match ((call.lookup "index").getD (.num 0)).key with
  | some index => pure index
  | none => raise

def registerCall (index : Json.Key) : Translating Bool := do
  let translator ← read
  if isNewCall translator index then
    write (.newCall index)
    pure true
  else pure false

def recordCallId (index : Json.Key) (call : List (String × Json)) : Translating Unit :=
  if (Json.get call "id").truthy then write (.callId index (Json.get call "id")) else pure ()

/-- `tc.get("function") or {}`, when a field of it is read. -/
def callFunction (call : List (String × Json)) : Translating (List (String × Json)) :=
  match (Json.get call "function").orEmpty with
  | some function => pure function
  | none => raise

def recordName (index : Json.Key) (function : List (String × Json)) : Translating Unit :=
  match Json.get function "name" with
  | .str name => if name ≠ "" then write (.callName index name) else pure ()
  | value => if value.truthy then raise else pure ()

def announceCall (index : Json.Key) : Translating Unit := do
  let translator ← read
  match translator.toolCalls.lookup index with
  | some call =>
    emitEvent (.functionCallAdded call.outputIndex
      ⟨call.itemId, call.callId, call.name, "", .inProgress⟩)
  | none => pure ()

def announceNewCall (index : Json.Key) (isNew : Bool) : Translating Unit :=
  if isNew then announceCall index else pure ()

def recordArguments (index : Json.Key) (function : List (String × Json)) : Translating Unit :=
  match Json.get function "arguments" with
  | .str arguments =>
    if arguments ≠ "" then do
      write (.callArguments index arguments)
      let translator ← read
      match translator.toolCalls.lookup index with
      | some call => emitEvent (.argumentsDelta call.itemId call.outputIndex arguments)
      | none => pure ()
    else pure ()
  | value => if value.truthy then raise else pure ()

def feedFunction (index : Json.Key) (isNew : Bool) (function : List (String × Json)) :
    Translating Unit := do
  recordName index function
  announceNewCall index isNew
  recordArguments index function

/-- The body of the loop of `_feed_tool_calls`, for a dictionary. -/
def feedToolCall (call : List (String × Json)) : Translating Unit := do
  let index ← callIndex call
  let isNew ← registerCall index
  recordCallId index call
  let function ← callFunction call
  feedFunction index isNew function

def feedEachCall : List Json → Translating Unit
  | [] => pure ()
  | .obj call :: rest => do
    feedToolCall call
    feedEachCall rest
  | _ :: rest => feedEachCall rest

/-- `_feed_tool_calls`: iterating over a text or a dictionary meets no dictionary,
and iterating over a number raises. -/
def feedToolCalls (toolCalls : Json) : Translating Unit := do
  closeOpenText
  match toolCalls with
  | .arr items => feedEachCall items
  | .str _ | .obj _ => pure ()
  | _ => raise

def announceResponse : Translating Unit := do
  let translator ← read
  if translator.createdEmitted then pure ()
  else do
    write .createdEmitted
    emitEvent (.created (skeleton .inProgress))
    emitEvent (.inProgress (skeleton .inProgress))

def recordUsage (fields : List (String × Json)) : Translating Unit :=
  if (Json.get fields "usage").truthy then write (.usage (Json.get fields "usage")) else pure ()

/-- `choices[0]` of `obj.get("choices") or []`: nothing when there are no choices,
`none` inside where reading it or its fields raises. -/
def firstChoice (fields : List (String × Json)) : Option (Option (List (String × Json))) :=
  match Json.get fields "choices" with
  | .arr [] => none
  | .arr (.obj choice :: _) => some (some choice)
  | value => if value.truthy then some none else none

def recordFinishReason (choice : List (String × Json)) : Translating Unit :=
  if (Json.get choice "finish_reason").truthy then
    write (.finishReason (Json.get choice "finish_reason"))
  else pure ()

def feedContent (delta : List (String × Json)) : Translating Unit :=
  match Json.get delta "content" with
  | .str content => if content ≠ "" then feedText content else pure ()
  | _ => pure ()

def recordReasoning (delta : List (String × Json)) : Translating Unit :=
  match ((Json.get delta "reasoning_content").orElse (Json.get delta "reasoning")).orElse
      (Json.get delta "thinking") with
  | .str content => if content ≠ "" then write (.reasoning content) else pure ()
  | _ => pure ()

def feedDeltaCalls (delta : List (String × Json)) : Translating Unit :=
  if (Json.get delta "tool_calls").truthy then feedToolCalls (Json.get delta "tool_calls")
  else pure ()

def feedDelta (delta : List (String × Json)) : Translating Unit := do
  feedContent delta
  recordReasoning delta
  feedDeltaCalls delta

def feedChoice (choice : List (String × Json)) : Translating Unit := do
  recordFinishReason choice
  match (Json.get choice "delta").orEmpty with
  | some delta => feedDelta delta
  | none => raise

def feedFirstChoice (fields : List (String × Json)) : Translating Unit :=
  match firstChoice fields with
  | none => pure ()
  | some none => raise
  | some (some choice) => feedChoice choice

def processChunk (fields : List (String × Json)) : Translating Unit := do
  announceResponse
  recordUsage fields
  feedFirstChoice fields

def processObj : Json → Translating Unit
  | .obj fields =>
    match Json.get fields "error" with
    | .obj error =>
      write (.failed ⟨(Json.get error "code").orElse (.str "server_error"),
        (Json.get error "message").orElse (.str "upstream error")⟩)
    | _ => processChunk fields
  | _ => pure ()

/-- What a line of a chunk is to `feed`. -/
inductive Line where
  | comment
  | skipped
  | object (value : Json)

/-- How `feed` reads a line. -/
def readLine (loads : String → Option Json) (line : List Char) : Line :=
  let line := Text.strip line
  if line = [] then .skipped
  else if line.head? = some ':' then .comment
  else if "data:".toList.isPrefixOf line then
    let data := String.ofList (Text.strip (line.drop "data:".length))
    if data = "" ∨ data = "[DONE]" then .skipped
    else
      match loads data with
      | some value => .object value
      | none => .skipped
  else .skipped

def feedLines : List Line → Translating Unit
  | [] => pure ()
  | .comment :: rest => do
    emit .keepalive
    feedLines rest
  | .skipped :: rest => feedLines rest
  | .object value :: rest => do
    processObj value
    feedLines rest

def chunkLines (loads : String → Option Json) (chunk : String) : List Line :=
  (Text.splitlines chunk.toList).map (readLine loads)

def feed (loads : String → Option Json) (chunk : String) : Translating Unit :=
  feedLines (chunkLines loads chunk)

def mapStatus : Option Json → Status × Option String
  | some (.str "length") => (.incomplete, some "max_output_tokens")
  | some (.str "content_filter") => (.incomplete, some "content_filter")
  | _ => (.completed, none)

/-- The message items of `output`, with their output indices. -/
def messageItems (segments : List TextSegment) : List (ℕ × OutputItem) :=
  (segments.filter fun segment => segment.text ≠ "").map fun segment =>
    (segment.outputIndex, .message ⟨segment.itemId, .completed, segment.text⟩)

def callItem (call : CallState) : CallItem :=
  ⟨call.itemId, call.callId, call.name, call.arguments, .completed⟩

def callItems (calls : List (Json.Key × CallState)) : List (ℕ × OutputItem) :=
  calls.map fun entry => (entry.2.outputIndex, .functionCall (callItem entry.2))

/-- `sorted(indexed_output, key=lambda pair: pair[0])`, without the indices. -/
def sortedOutput (indexed : List (ℕ × OutputItem)) : List OutputItem :=
  (indexed.insertionSort fun first second => first.1 ≤ second.1).map Prod.snd

def fullText (segments : List TextSegment) : String :=
  String.join (segments.map TextSegment.text)

def messageCall (call : CallState) : ToolCall := ⟨call.callId, call.name, call.arguments⟩

/-- The assistant message that `finalize` builds. -/
def assistantMessageOf (translator : Translator) : AssistantMessage where
  content :=
    if fullText translator.textSegments = "" then none else some (fullText translator.textSegments)
  toolCalls := translator.toolCalls.map fun entry => messageCall entry.2
  reasoningContent := if translator.reasoning = "" then none else some translator.reasoning

def finalizeFailed (translator : Translator) : Translating Unit := do
  let payload := translator.errorPayload.getD ⟨.str "server_error", .str "upstream error"⟩
  let failed := { skeleton .failed with error := some payload }
  write (.finalResponse failed)
  emitEvent (.responseFailed failed)
  emitEvent (.error payload)

def closeCalls : List (Json.Key × CallState) → Translating Unit
  | [] => pure ()
  | (_, call) :: rest => do
    emitEvent (.argumentsDone call.itemId call.outputIndex call.arguments)
    emitEvent (.functionCallDone call.outputIndex (callItem call))
    closeCalls rest

/-- `_map_usage` of what was reported, where `readUsage` is what it makes of a
usage object. -/
def mapUsage (readUsage : Json → Option Json) : Option Json → Translating (Option Json)
  | none => pure none
  | some usage =>
    match readUsage usage with
    | some mapped => pure (some mapped)
    | none => raise

def finalizeCompleted (readUsage : Json → Option Json) (translator : Translator) :
    Translating Unit := do
  closeCalls translator.toolCalls
  let usage ← mapUsage readUsage translator.usage
  let status := mapStatus translator.finishReason
  let final : Response :=
    { skeleton status.1 with
      incompleteDetails := status.2
      output := sortedOutput
        (messageItems translator.textSegments ++ callItems translator.toolCalls)
      usage }
  write (.finalResponse final)
  write (.assistantMessage (assistantMessageOf translator))
  if status.1 = .incomplete then emitEvent (.responseIncomplete final)
  else emitEvent (.responseCompleted final)

def finalize (readUsage : Json → Option Json) : Translating Unit := do
  closeOpenText
  let translator ← read
  if translator.failed then finalizeFailed translator
  else finalizeCompleted readUsage translator

end HybridInference.Responses
