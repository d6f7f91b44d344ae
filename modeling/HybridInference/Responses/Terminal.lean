import HybridInference.Responses.Received

/-!
# What a turn ends with

While chunks are fed, the translator emits no terminal event and settles neither
the response nor the assistant message. `finalize` settles both from what the
translator holds, and the one terminal event it emits carries the status of that
response.
-/

namespace HybridInference.Responses

open Library Generator

def Event.terminalStatus : Event → Option Status
  | .numbered _ (.responseFailed response) => some response.status
  | .numbered _ (.responseCompleted response) => some response.status
  | .numbered _ (.responseIncomplete response) => some response.status
  | _ => none

def Streaming (readUsage : Json → Option Json) : Statement Event TranslatorWrite → Prop
  | .emit event => event.terminalStatus = none
  | .write (.usage usage) => (readUsage usage).isSome = true
  | .write (.finalResponse _) | .write (.assistantMessage _) => False
  | .write _ => True

def Line.reportedUsage : Line → Option Json
  | .object (.obj fields) =>
    if (Json.get fields "usage").truthy then some (Json.get fields "usage") else none
  | _ => none

def UsageReadable (readUsage : Json → Option Json) (lines : List Line) : Prop :=
  ∀ line ∈ lines, ∀ usage ∈ line.reportedUsage, (readUsage usage).isSome = true

section Feeding

variable {readUsage : Json → Option Json} {index : Json.Key}

theorem executes_emitEvent {body : EventBody}
    (streaming : ∀ seq, (Event.numbered seq body).terminalStatus = none) :
    Executes (emitEvent body) (Streaming readUsage) := by
  refine executes_bind executes_read ?_
  intro translator
  exact executes_bind (executes_write trivial) fun _ => executes_emit (streaming translator.seq)

theorem executes_closeTextBlock (text : OpenText) :
    Executes (closeTextBlock text) (Streaming readUsage) := by
  refine executes_bind (executes_write trivial) ?_
  intro _
  refine executes_bind (executes_emitEvent fun _ => rfl) ?_
  intro _
  refine executes_bind (executes_emitEvent fun _ => rfl) ?_
  intro _
  refine executes_bind (executes_emitEvent fun _ => rfl) ?_
  intro _
  exact executes_write trivial

theorem executes_closeOpenText : Executes closeOpenText (Streaming readUsage) := by
  refine executes_bind executes_read ?_
  intro translator
  cases translator.current with
  | some text => exact executes_closeTextBlock text
  | none => exact executes_pure ()

theorem executes_feedText (content : String) :
    Executes (feedText content) (Streaming readUsage) := by
  have opens : Executes openTextBlock (Streaming readUsage) := by
    refine executes_bind executes_read ?_
    intro translator
    cases translator.current with
    | some text => exact executes_pure ()
    | none =>
      refine executes_bind (executes_write trivial) ?_
      intro _
      refine executes_bind (executes_emitEvent fun _ => rfl) ?_
      intro _
      exact executes_emitEvent fun _ => rfl
  refine executes_bind opens ?_
  intro _
  refine executes_bind (executes_write trivial) ?_
  intro _
  refine executes_bind executes_read ?_
  intro translator
  cases translator.current with
  | some text => exact executes_emitEvent fun _ => rfl
  | none => exact executes_pure ()

theorem executes_registerCall : Executes (registerCall index) (Streaming readUsage) := by
  refine executes_bind executes_read ?_
  intro translator
  split_ifs
  · exact executes_bind (executes_write trivial) fun _ => executes_pure true
  · exact executes_pure false

theorem executes_recordName (function : List (String × Json)) :
    Executes (recordName index function) (Streaming readUsage) := by
  unfold recordName
  split
  · split_ifs
    · exact executes_write trivial
    · exact executes_pure ()
  · split_ifs
    · exact executes_raise
    · exact executes_pure ()

theorem executes_announceNewCall (isNew : Bool) :
    Executes (announceNewCall index isNew) (Streaming readUsage) := by
  cases isNew with
  | false => exact executes_pure ()
  | true =>
    refine executes_bind executes_read ?_
    intro translator
    cases translator.toolCalls.lookup index with
    | some call => exact executes_emitEvent fun _ => rfl
    | none => exact executes_pure ()

theorem executes_recordArguments (function : List (String × Json)) :
    Executes (recordArguments index function) (Streaming readUsage) := by
  unfold recordArguments
  split
  · split_ifs
    · refine executes_bind (executes_write trivial) ?_
      intro _
      refine executes_bind executes_read ?_
      intro translator
      cases translator.toolCalls.lookup index with
      | some call => exact executes_emitEvent fun _ => rfl
      | none => exact executes_pure ()
    · exact executes_pure ()
  · split_ifs
    · exact executes_raise
    · exact executes_pure ()

theorem executes_feedToolCall (call : List (String × Json)) :
    Executes (feedToolCall call) (Streaming readUsage) := by
  have reads : Executes (callIndex call) (Streaming readUsage) := by
    unfold callIndex
    split
    · exact executes_pure _
    · exact executes_raise
  refine executes_bind reads ?_
  intro index
  refine executes_bind executes_registerCall ?_
  intro isNew
  have identifies : Executes (recordCallId index call) (Streaming readUsage) := by
    unfold recordCallId
    split_ifs
    · exact executes_write trivial
    · exact executes_pure ()
  refine executes_bind identifies ?_
  intro _
  have calls : Executes (callFunction call) (Streaming readUsage) := by
    unfold callFunction
    split
    · exact executes_pure _
    · exact executes_raise
  refine executes_bind calls ?_
  intro function
  refine executes_bind (executes_recordName function) ?_
  intro _
  exact executes_bind (executes_announceNewCall isNew) fun _ => executes_recordArguments function

theorem executes_feedEachCall (items : List Json) :
    Executes (feedEachCall items) (Streaming readUsage) := by
  induction items with
  | nil => exact executes_pure ()
  | cons item rest ih =>
    cases item with
    | obj call => exact executes_bind (executes_feedToolCall call) fun _ => ih
    | null => exact ih
    | bool value => exact ih
    | num value => exact ih
    | str value => exact ih
    | arr inner => exact ih

theorem executes_feedDelta (delta : List (String × Json)) :
    Executes (feedDelta delta) (Streaming readUsage) := by
  have content : Executes (feedContent delta) (Streaming readUsage) := by
    unfold feedContent
    split
    · split_ifs
      · exact executes_feedText _
      · exact executes_pure ()
    · exact executes_pure ()
  refine executes_bind content ?_
  intro _
  have reasoning : Executes (recordReasoning delta) (Streaming readUsage) := by
    unfold recordReasoning
    split
    · split_ifs
      · exact executes_write trivial
      · exact executes_pure ()
    · exact executes_pure ()
  refine executes_bind reasoning ?_
  intro _
  unfold feedDeltaCalls
  split_ifs
  · refine executes_bind executes_closeOpenText ?_
    intro _
    cases Json.get delta "tool_calls" with
    | arr items => exact executes_feedEachCall items
    | str value => exact executes_pure ()
    | obj fields => exact executes_pure ()
    | null => exact executes_raise
    | bool value => exact executes_raise
    | num value => exact executes_raise
  · exact executes_pure ()

theorem executes_processChunk {fields : List (String × Json)}
    (readable : ∀ usage ∈ (Line.object (.obj fields)).reportedUsage,
      (readUsage usage).isSome = true) :
    Executes (processChunk fields) (Streaming readUsage) := by
  have announces : Executes announceResponse (Streaming readUsage) := by
    refine executes_bind executes_read ?_
    intro translator
    split_ifs
    · exact executes_pure ()
    · refine executes_bind (executes_write trivial) ?_
      intro _
      exact executes_bind (executes_emitEvent fun _ => rfl) fun _ =>
        executes_emitEvent fun _ => rfl
  refine executes_bind announces ?_
  intro _
  have reports : Executes (recordUsage fields) (Streaming readUsage) := by
    unfold recordUsage
    split_ifs with reported
    · exact executes_write (readable _ (by simp [Line.reportedUsage, reported]))
    · exact executes_pure ()
  refine executes_bind reports ?_
  intro _
  unfold feedFirstChoice
  rcases firstChoice fields with _ | _ | choice
  · exact executes_pure ()
  · exact executes_raise
  · have finishes : Executes (recordFinishReason choice) (Streaming readUsage) := by
      unfold recordFinishReason
      split_ifs
      · exact executes_write trivial
      · exact executes_pure ()
    refine executes_bind finishes ?_
    intro _
    cases (Json.get choice "delta").orEmpty with
    | none => exact executes_raise
    | some delta => exact executes_feedDelta delta

theorem executes_processObj {value : Json}
    (readable : ∀ usage ∈ (Line.object value).reportedUsage, (readUsage usage).isSome = true) :
    Executes (processObj value) (Streaming readUsage) := by
  cases value with
  | obj fields =>
    simp only [processObj]
    split
    · exact executes_write trivial
    · exact executes_processChunk readable
  | null => exact executes_pure ()
  | bool value => exact executes_pure ()
  | num value => exact executes_pure ()
  | str value => exact executes_pure ()
  | arr items => exact executes_pure ()

theorem executes_feedLines {lines : List Line} (readable : UsageReadable readUsage lines) :
    Executes (feedLines lines) (Streaming readUsage) := by
  induction lines with
  | nil => exact executes_pure ()
  | cons line rest ih =>
    have readableRest := ih fun other otherMem => readable other (List.mem_cons_of_mem _ otherMem)
    have readableLine := readable line List.mem_cons_self
    cases line with
    | comment => exact executes_bind (executes_emit rfl) fun _ => readableRest
    | skipped => exact readableRest
    | object value => exact executes_bind (executes_processObj readableLine) fun _ => readableRest

end Feeding

def OutputItem.text? : OutputItem → Option String
  | .message item => some item.text
  | .functionCall _ => none

def OutputItem.call? : OutputItem → Option ToolCall
  | .message _ => none
  | .functionCall item => some ⟨item.callId, item.name, item.arguments⟩

def outputText (output : List OutputItem) : String :=
  String.join (output.filterMap OutputItem.text?)

def outputCalls (output : List OutputItem) : List ToolCall :=
  output.filterMap OutputItem.call?

def ReceivedCall.toolCall (call : ReceivedCall) : ToolCall := ⟨call.id, call.name, call.arguments⟩

structure Tells (received : Received) (output : List OutputItem) (message : AssistantMessage) :
    Prop where
  outputText : outputText output = received.text
  outputCalls : outputCalls output = received.calls.map ReceivedCall.toolCall
  content : message.content.getD "" = received.text
  toolCalls : message.toolCalls = received.calls.map ReceivedCall.toolCall

section Sorting

variable {Element : Type*} {before : Element → Element → Prop} [DecidableRel before]

theorem filter_insertionSort {list : List Element} {kind : Element → Bool}
    (inOrder : (list.filter kind).Pairwise before) :
    (list.insertionSort before).filter kind = list.filter kind := by
  have kept : (list.filter kind).Sublist ((list.insertionSort before).filter kind) := by
    have inSorted := (List.sublist_insertionSort inOrder List.filter_sublist).filter kind
    simpa using inSorted
  have sameLength : (list.filter kind).length = ((list.insertionSort before).filter kind).length :=
    ((List.perm_insertionSort before list).filter kind).length_eq.symm
  exact (kept.eq_of_length sameLength).symm

end Sorting

section Output

variable {segments : List TextSegment} {calls : List (Json.Key × CallState)}

theorem filterMap_sortedOutput {Value : Type*} (project : OutputItem → Option Value)
    (kind : ℕ × OutputItem → Bool) {indexed : List (ℕ × OutputItem)}
    (other : ∀ entry, kind entry = false → project entry.2 = none)
    (inOrder : (indexed.filter kind).Pairwise fun first second => first.1 ≤ second.1) :
    (sortedOutput indexed).filterMap project =
      (indexed.filter kind).filterMap fun entry => project entry.2 := by
  unfold sortedOutput
  rw [← filter_insertionSort inOrder, List.filterMap_map, List.filterMap_filter]
  apply List.filterMap_congr
  intro entry _
  cases kind_eq : kind entry with
  | false => simp [other entry kind_eq]
  | true => simp

def isMessage (entry : ℕ × OutputItem) : Bool := entry.2.text?.isSome

theorem filter_isMessage :
    (messageItems segments ++ callItems calls).filter isMessage = messageItems segments := by
  rw [List.filter_append]
  have messages : (messageItems segments).filter isMessage = messageItems segments := by
    rw [List.filter_eq_self]
    intro entry entryMem
    rcases List.mem_map.mp entryMem with ⟨segment, -, rfl⟩
    rfl
  have noCalls : (callItems calls).filter isMessage = [] := by
    rw [List.filter_eq_nil_iff]
    intro entry entryMem
    rcases List.mem_map.mp entryMem with ⟨call, -, rfl⟩
    simp [isMessage, OutputItem.text?]
  rw [messages, noCalls, List.append_nil]

theorem filter_isCall :
    (messageItems segments ++ callItems calls).filter (fun entry => !isMessage entry) =
      callItems calls := by
  rw [List.filter_append]
  have noMessages : (messageItems segments).filter (fun entry => !isMessage entry) = [] := by
    rw [List.filter_eq_nil_iff]
    intro entry entryMem
    rcases List.mem_map.mp entryMem with ⟨segment, -, rfl⟩
    simp [isMessage, OutputItem.text?]
  have allCalls : (callItems calls).filter (fun entry => !isMessage entry) = callItems calls := by
    rw [List.filter_eq_self]
    intro entry entryMem
    rcases List.mem_map.mp entryMem with ⟨call, -, rfl⟩
    rfl
  rw [noMessages, allCalls, List.nil_append]

theorem join_nonempty (segments : List TextSegment) :
    String.join ((segments.filter fun segment => segment.text ≠ "").map TextSegment.text) =
      fullText segments := by
  unfold fullText
  induction segments with
  | nil => rfl
  | cons segment rest ih =>
    by_cases empty : segment.text = "" <;> simpa [empty] using ih

theorem outputText_sortedOutput
    (inOrder : (segments.map TextSegment.outputIndex).Pairwise (· < ·)) :
    outputText (sortedOutput (messageItems segments ++ callItems calls)) = fullText segments := by
  have sorted : ((messageItems segments ++ callItems calls).filter isMessage).Pairwise
      fun first second => first.1 ≤ second.1 := by
    rw [filter_isMessage, messageItems, List.pairwise_map]
    apply List.Pairwise.filter
    exact (List.pairwise_map.mp inOrder).imp Nat.le_of_lt
  unfold outputText
  rw [filterMap_sortedOutput OutputItem.text? isMessage
    (fun entry other => by simpa [isMessage] using other) sorted, filter_isMessage,
    ← join_nonempty, messageItems, List.filterMap_map]
  congr 1
  exact congrFun List.filterMap_eq_map _

theorem outputCalls_sortedOutput
    (inOrder : (calls.map fun entry => entry.2.outputIndex).Pairwise (· < ·)) :
    outputCalls (sortedOutput (messageItems segments ++ callItems calls)) =
      calls.map fun entry => messageCall entry.2 := by
  have sorted : ((messageItems segments ++ callItems calls).filter
      fun entry => !isMessage entry).Pairwise fun first second => first.1 ≤ second.1 := by
    rw [filter_isCall, callItems, List.pairwise_map]
    exact (List.pairwise_map.mp inOrder).imp Nat.le_of_lt
  have otherKind (entry : ℕ × OutputItem) (other : (!isMessage entry) = false) :
      entry.2.call? = none := by
    rcases entry with ⟨index, item | item⟩
    · rfl
    · simp [isMessage, OutputItem.text?] at other
  unfold outputCalls
  rw [filterMap_sortedOutput OutputItem.call? _ otherKind sorted, filter_isCall, callItems,
    List.filterMap_map]
  exact congrFun List.filterMap_eq_map _

end Output

section Finalizing

variable {readUsage : Json → Option Json}

structure Closed (before after : Translator) : Prop where
  current : after.current = none
  toolCalls : after.toolCalls = before.toolCalls
  failed : after.failed = before.failed
  finishReason : after.finishReason = before.finishReason
  usage : after.usage = before.usage
  finalResponse : after.finalResponse = before.finalResponse
  assistantMessage : after.assistantMessage = before.assistantMessage
  took : Took [] before after

theorem closeOpenText_ends (before : Translator) :
    closeOpenText.Ends before fun after value => Closed before after ∧ value = some () := by
  simp only [closeOpenText, ends_bind_iff, ends_read_iff, Option.elim_some]
  split
  next text isOpen =>
    simp only [closeTextBlock, emitEvent, ends_bind_iff, ends_write_iff, ends_read_iff,
      ends_emit_iff, Option.elim_some]
    exact ⟨⟨rfl, rfl, rfl, rfl, rfl, rfl, rfl, took_closing isOpen _⟩, trivial⟩
  next closed =>
    simp only [ends_pure_iff]
    exact ⟨⟨closed, rfl, rfl, rfl, rfl, rfl, rfl, Took.refl before⟩, trivial⟩

theorem emitEvent_ends (body : EventBody) (before : Translator) :
    (emitEvent body).Ends before fun after value =>
      after = { before with seq := before.seq + 1 } ∧ value = some () :=
  ⟨rfl, rfl⟩

theorem closeCalls_ends (calls : List (Json.Key × CallState)) (before : Translator) :
    (closeCalls calls).Ends before fun after value =>
      (∃ seq, after = { before with seq }) ∧ value = some () := by
  induction calls generalizing before with
  | nil => exact ⟨⟨before.seq, rfl⟩, rfl⟩
  | cons call rest ih =>
    simp only [closeCalls, ends_bind_iff]
    refine (emitEvent_ends _ before).mono ?_
    rintro first value ⟨rfl, rfl⟩
    simp only [Option.elim_some]
    refine (emitEvent_ends _ _).mono ?_
    rintro second value ⟨rfl, rfl⟩
    simp only [Option.elim_some]
    refine (ih _).mono ?_
    rintro after value ⟨⟨seq, rfl⟩, ended⟩
    exact ⟨⟨seq, rfl⟩, ended⟩

theorem tells_of_closed {translator : Translator} (closed : translator.current = none)
    (ordered : translator.Ordered) :
    Tells translator.held
      (sortedOutput (messageItems translator.textSegments ++ callItems translator.toolCalls))
      (assistantMessageOf translator) where
  outputText := by
    have texts := ordered.texts
    simp only [Translator.textIndices, closed, Option.toList_none, List.map_nil,
      List.append_nil] at texts
    rw [outputText_sortedOutput texts]
    simp [Translator.held, closed, openTextOf]
  outputCalls := by
    rw [outputCalls_sortedOutput ordered.calls]
    simp [Translator.held, messageCall, receivedCall, ReceivedCall.toolCall]
  content := by
    by_cases empty : fullText translator.textSegments = ""
    · simp [assistantMessageOf, Translator.held, closed, openTextOf, empty]
    · simp [assistantMessageOf, Translator.held, closed, openTextOf, empty]
  toolCalls := by
    simp [assistantMessageOf, Translator.held, messageCall, receivedCall, ReceivedCall.toolCall]

def Translator.closingStatus (translator : Translator) : Status :=
  if translator.failed then .failed else (mapStatus translator.finishReason).1

structure Settled (before after : Translator) (response : Response) (message : AssistantMessage) :
    Prop where
  finalResponse : after.finalResponse = some response
  assistantMessage : after.assistantMessage = some message
  failed : after.failed = before.failed
  status : response.status = before.closingStatus
  tells : before.Ordered → Tells before.held response.output message

theorem mapUsage_ends {usage : Option Json}
    (readable : ∀ reported ∈ usage, (readUsage reported).isSome = true) (before : Translator) :
    (mapUsage readUsage usage).Ends before fun after value =>
      after = before ∧ value.isSome = true := by
  cases usage with
  | none => exact ⟨rfl, rfl⟩
  | some reported =>
    rcases Option.isSome_iff_exists.mp (readable reported rfl) with ⟨mapped, mapped_eq⟩
    simp only [mapUsage, mapped_eq]
    exact ⟨rfl, rfl⟩

variable {before : Translator}

theorem finalize_ends (intact : before.failed = false)
    (readable : ∀ usage ∈ before.usage, (readUsage usage).isSome = true) :
    (finalize readUsage).Ends before fun after value =>
      value = some () ∧ ∃ response message, Settled before after response message := by
  simp only [finalize, ends_bind_iff]
  refine (closeOpenText_ends before).mono ?_
  rintro closed value ⟨isClosed, rfl⟩
  simp only [Option.elim_some, ends_read_iff, isClosed.failed, intact, if_false,
    Bool.false_eq_true, finalizeCompleted, ends_bind_iff]
  refine (closeCalls_ends closed.toolCalls closed).mono ?_
  rintro listed value ⟨⟨seq, rfl⟩, rfl⟩
  simp only [Option.elim_some]
  refine (mapUsage_ends (by rwa [isClosed.usage]) _).mono ?_
  rintro _ value ⟨rfl, ended⟩
  rcases Option.isSome_iff_exists.mp ended with ⟨usage, rfl⟩
  have tells (ordered : before.Ordered) : Tells before.held
        (sortedOutput (messageItems closed.textSegments ++ callItems closed.toolCalls))
        (assistantMessageOf closed) := by
    have same : closed.held = before.held := isClosed.took.held
    rw [← same]
    exact tells_of_closed isClosed.current (isClosed.took.ordered ordered)
  have status : (mapStatus closed.finishReason).1 = before.closingStatus := by
    simp [Translator.closingStatus, intact, isClosed.finishReason]
  simp only [Option.elim_some, ends_write_iff]
  split_ifs <;> exact ⟨rfl, _, _, ⟨rfl, rfl, isClosed.failed, status, tells⟩⟩

theorem finalize_failed_ends (failed : before.failed = true) :
    (finalize readUsage).Ends before fun after value =>
      value = some () ∧ after.failed = true := by
  simp only [finalize, ends_bind_iff]
  refine (closeOpenText_ends before).mono ?_
  rintro closed value ⟨isClosed, rfl⟩
  simp only [Option.elim_some, ends_read_iff, isClosed.failed, failed, if_true, finalizeFailed,
    emitEvent, ends_bind_iff, ends_write_iff, ends_emit_iff]
  exact ⟨trivial, isClosed.failed.trans failed⟩

theorem executes_closeCalls (calls : List (Json.Key × CallState)) :
    Executes (closeCalls calls) (Streaming readUsage) := by
  induction calls with
  | nil => exact executes_pure ()
  | cons call rest ih =>
    refine executes_bind (executes_emitEvent fun _ => rfl) ?_
    intro _
    exact executes_bind (executes_emitEvent fun _ => rfl) fun _ => ih

def Closing (status : Status) : Statement Event TranslatorWrite → Prop
  | .emit event => ∀ carried, event.terminalStatus = some carried → carried = status
  | .write _ => True

variable {status : Status}

theorem Streaming.closing {statement : Statement Event TranslatorWrite}
    (streaming : Streaming readUsage statement) : Closing status statement := by
  cases statement with
  | emit event =>
    intro carried terminal
    rw [show event.terminalStatus = none from streaming] at terminal
    cases terminal
  | write change => trivial

theorem closing_emitEvent {body : EventBody} (carries : ∀ seq carried,
      (Event.numbered seq body).terminalStatus = some carried → carried = status) :
    Executes (emitEvent body) (Closing status) := by
  refine executes_bind executes_read ?_
  intro translator
  exact executes_bind (executes_write trivial) fun _ => executes_emit (carries translator.seq)

theorem closing_finalizeFailed (translator : Translator) :
    Executes (finalizeFailed translator) (Closing .failed) := by
  refine executes_bind (executes_write trivial) ?_
  intro _
  refine executes_bind (closing_emitEvent ?_) ?_
  · intro seq carried terminal
    exact (Option.some.inj terminal).symm
  · intro _
    apply closing_emitEvent
    intro seq carried terminal
    cases terminal

theorem closing_finalizeCompleted (translator : Translator) :
    Executes (finalizeCompleted readUsage translator)
      (Closing (mapStatus translator.finishReason).1) := by
  have closes : Executes (closeCalls translator.toolCalls) (Streaming readUsage) :=
    executes_closeCalls _
  refine executes_bind (fun state statement executed =>
    (closes state statement executed).closing) ?_
  intro _
  have maps : Executes (mapUsage readUsage translator.usage)
      (Closing (mapStatus translator.finishReason).1) := by
    unfold mapUsage
    split
    · exact executes_pure _
    · split
      · exact executes_pure _
      · exact executes_raise
  refine executes_bind maps ?_
  intro usage
  refine executes_bind (executes_write trivial) ?_
  intro _
  refine executes_bind (executes_write trivial) ?_
  intro _
  split_ifs
  all_goals
    apply closing_emitEvent
    intro seq carried terminal
    exact (Option.some.inj terminal).symm

theorem finalize_terminal {event : Event} (emitted : .emit event ∈ (finalize readUsage before).1)
    (terminal : event.terminalStatus = some status) : status = before.closingStatus := by
  have closes : Executes closeOpenText (Streaming readUsage) := executes_closeOpenText
  rcases closeOpenText_ends before with ⟨isClosed, -⟩
  rcases mem_bind emitted with inClosing | ⟨_, -, later⟩
  · exact (closes before _ inClosing).closing status terminal
  · rcases mem_bind later with inRead | ⟨closed, readEq, inFinal⟩
    · simp [Generator.read] at inRead
    · obtain rfl : final closeOpenText before = closed := Option.some.inj readEq
      rw [isClosed.failed] at inFinal
      unfold Translator.closingStatus
      rw [← isClosed.finishReason]
      split_ifs at inFinal ⊢
      · exact closing_finalizeFailed _ _ _ inFinal status terminal
      · exact closing_finalizeCompleted _ _ _ inFinal status terminal

end Finalizing

end HybridInference.Responses
