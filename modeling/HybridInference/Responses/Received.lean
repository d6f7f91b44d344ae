import HybridInference.Responses.Translator

/-!
# What a chat stream carries, and what the translator holds of it

The text, the tool calls and the failure a chunk carries are read off its objects
without the translator: a malformed object carries what stands before the part
that cannot be read, and ends the stream.
-/

namespace HybridInference.Responses

open Library Generator

inductive Delta where
  | text (content : String)
  | call (index : Json.Key) (id : Option Json) (name arguments : String)
  | failure

structure ReceivedCall where
  index : Json.Key
  id : Json
  name : String
  arguments : String

structure Received where
  text : String := ""
  calls : List ReceivedCall := []
  failed : Bool := false

def addCall (calls : List ReceivedCall) (index : Json.Key) (id : Option Json)
    (name arguments : String) : List ReceivedCall :=
  let known := if calls.any fun call => call.index = index then calls
    else calls ++ [⟨index, .str "", "", ""⟩]
  known.map fun call =>
    if call.index = index then
      { call with
        id := id.getD call.id
        name := call.name ++ name
        arguments := call.arguments ++ arguments }
    else call

def Received.add (received : Received) : Delta → Received
  | .text content => { received with text := received.text ++ content }
  | .call index id name arguments =>
    { received with calls := addCall received.calls index id name arguments }
  | .failure => { received with failed := true }

structure Carried where
  deltas : List Delta
  intact : Bool

namespace Carried

def nothing : Carried := ⟨[], true⟩

def unreadable : Carried := ⟨[], false⟩

def andThen (first second : Carried) : Carried :=
  if first.intact then ⟨first.deltas ++ second.deltas, second.intact⟩ else first

end Carried

def textField (fields : List (String × Json)) (name : String) : Option String :=
  match Json.get fields name with
  | .str value => some value
  | value => if value.truthy then none else some ""

def idField (call : List (String × Json)) : Option Json :=
  if (Json.get call "id").truthy then some (Json.get call "id") else none

/-- The part of a call with this index and id that its `function` carries. -/
def functionCarried (index : Json.Key) (id : Option Json) (function : List (String × Json)) :
    Carried :=
  match textField function "name" with
  | none => ⟨[.call index id "" ""], false⟩
  | some name =>
    match textField function "arguments" with
    | none => ⟨[.call index id name ""], false⟩
    | some arguments => ⟨[.call index id name arguments], true⟩

def callCarried (call : List (String × Json)) : Carried :=
  match ((call.lookup "index").getD (.num 0)).key with
  | none => .unreadable
  | some index =>
    match (Json.get call "function").orEmpty with
    | none => ⟨[.call index (idField call) "" ""], false⟩
    | some function => functionCarried index (idField call) function

def callsCarried : List Json → Carried
  | [] => .nothing
  | .obj call :: rest => (callCarried call).andThen (callsCarried rest)
  | _ :: rest => callsCarried rest

def toolCallsCarried (toolCalls : Json) : Carried :=
  if toolCalls.truthy then
    match toolCalls with
    | .arr items => callsCarried items
    | .str _ | .obj _ => .nothing
    | _ => .unreadable
  else .nothing

def contentCarried (delta : List (String × Json)) : Carried :=
  match Json.get delta "content" with
  | .str content => ⟨[.text content], true⟩
  | _ => .nothing

def choiceCarried (choice : List (String × Json)) : Carried :=
  match (Json.get choice "delta").orEmpty with
  | some delta => (contentCarried delta).andThen (toolCallsCarried (Json.get delta "tool_calls"))
  | none => .unreadable

def choicesCarried (fields : List (String × Json)) : Carried :=
  match firstChoice fields with
  | none => .nothing
  | some none => .unreadable
  | some (some choice) => choiceCarried choice

def objectCarried : Json → Carried
  | .obj fields =>
    match Json.get fields "error" with
    | .obj _ => ⟨[.failure], true⟩
    | _ => choicesCarried fields
  | _ => .nothing

def linesCarried : List Line → Carried
  | [] => .nothing
  | .object value :: rest => (objectCarried value).andThen (linesCarried rest)
  | _ :: rest => linesCarried rest

def received (loads : String → Option Json) (chunks : List String) : Received :=
  (chunks.flatMap fun chunk => (linesCarried (chunkLines loads chunk)).deltas).foldl Received.add {}

def openTextOf (current : Option OpenText) : String :=
  match current with
  | some text => text.text
  | none => ""

def receivedCall (entry : Json.Key × CallState) : ReceivedCall :=
  ⟨entry.1, entry.2.callId, entry.2.name, entry.2.arguments⟩

def Translator.held (translator : Translator) : Received where
  text := fullText translator.textSegments ++ openTextOf translator.current
  calls := translator.toolCalls.map receivedCall
  failed := translator.failed

def Translator.textIndices (translator : Translator) : List ℕ :=
  translator.textSegments.map TextSegment.outputIndex ++
    translator.current.toList.map OpenText.outputIndex

def Translator.callIndices (translator : Translator) : List ℕ :=
  translator.toolCalls.map fun entry => entry.2.outputIndex

structure Translator.Ordered (translator : Translator) : Prop where
  texts : translator.textIndices.Pairwise (· < ·)
  textsBelow : ∀ index ∈ translator.textIndices, index < translator.nextOutputIndex
  calls : translator.callIndices.Pairwise (· < ·)
  callsBelow : ∀ index ∈ translator.callIndices, index < translator.nextOutputIndex

structure Took (deltas : List Delta) (before after : Translator) : Prop where
  held : after.held = deltas.foldl Received.add before.held
  ordered : before.Ordered → after.Ordered

theorem Took.refl (translator : Translator) : Took [] translator translator :=
  ⟨rfl, id⟩

theorem Took.trans {first second : List Delta} {before middle after : Translator}
    (tookFirst : Took first before middle) (tookSecond : Took second middle after) :
    Took (first ++ second) before after where
  held := by rw [tookSecond.held, tookFirst.held, List.foldl_append]
  ordered := tookSecond.ordered ∘ tookFirst.ordered

def Takes {Value : Type} (generator : Translating Value) (carried : Carried) : Prop :=
  ∀ before, generator.Ends before fun after value =>
    Took carried.deltas before after ∧ value.isSome = carried.intact

section Sequences

variable {Value Result : Type}

theorem takes_bind {first : Translating Value} {next : Value → Translating Result}
    {carriedFirst carriedNext : Carried} (takesFirst : Takes first carriedFirst)
    (takesNext : ∀ value, Takes (next value) carriedNext) :
    Takes (first >>= next) (carriedFirst.andThen carriedNext) := by
  intro before
  rw [ends_bind_iff]
  refine (takesFirst before).mono ?_
  rintro middle (_ | value) ⟨tookFirst, intact⟩
  · have cut : carriedFirst.intact = false := by simpa using intact.symm
    simpa [Carried.andThen, cut] using tookFirst
  · have whole : carriedFirst.intact = true := by simpa using intact.symm
    simp only [Option.elim_some]
    refine (takesNext value middle).mono ?_
    rintro after result ⟨tookNext, ended⟩
    simpa [Carried.andThen, whole] using ⟨tookFirst.trans tookNext, ended⟩

theorem takes_pure (value : Value) : Takes (pure value) .nothing :=
  fun before => ⟨Took.refl before, rfl⟩

theorem takes_raise : Takes (raise : Translating Value) .unreadable :=
  fun before => ⟨Took.refl before, rfl⟩

@[simp]
theorem Carried.nothing_andThen
    (carried : Carried) : Carried.nothing.andThen carried = carried := rfl

@[simp]
theorem Carried.unreadable_andThen (carried : Carried) :
    Carried.unreadable.andThen carried = .unreadable := rfl

theorem takes_emitEvent (body : EventBody) : Takes (emitEvent body) .nothing :=
  fun _ => ⟨⟨rfl, fun ordered => ⟨ordered.1, ordered.2, ordered.3, ordered.4⟩⟩, rfl⟩

end Sequences

theorem fullText_append (first second : List TextSegment) :
    fullText (first ++ second) = fullText first ++ fullText second := by
  simp [fullText]

theorem fullText_singleton (segment : TextSegment) : fullText [segment] = segment.text := by
  simp [fullText]

theorem object_apply (translator : Translator) (change : TranslatorWrite) :
    Object.apply translator change = translator.apply change := rfl

theorem took_closing {before : Translator} {text : OpenText} (isOpen : before.current = some text)
    (seq : ℕ) :
    Took [] before
      { before with
        seq
        current := none
        textSegments := before.textSegments ++ [⟨text.itemId, text.outputIndex, text.text⟩] } where
  held := by
    simp [Translator.held, isOpen, openTextOf, fullText_append, fullText_singleton]
  ordered := fun ordered => by
    have texts := ordered.texts
    have textsBelow := ordered.textsBelow
    simp only [Translator.textIndices, isOpen, Option.toList_some, List.map_cons, List.map_nil]
      at texts textsBelow
    refine ⟨?_, ?_, ordered.calls, ordered.callsBelow⟩
    · simpa [Translator.textIndices] using texts
    · simpa [Translator.textIndices] using textsBelow

theorem takes_closeOpenText : Takes closeOpenText .nothing := by
  intro before
  simp only [closeOpenText, ends_bind_iff, ends_read_iff, Option.elim_some]
  split
  next text isOpen =>
    exact ⟨took_closing isOpen _, rfl⟩
  next closed => exact takes_pure () before

theorem took_opening {before : Translator} (closed : before.current = none) (seq : ℕ) :
    Took [] before
      { before with
        seq
        current := some ⟨before.drawn, before.nextOutputIndex, ""⟩
        drawn := before.drawn + 1
        nextOutputIndex := before.nextOutputIndex + 1 } where
  held := by simp [Translator.held, closed, openTextOf]
  ordered := fun ordered => by
    have texts := ordered.texts
    have textsBelow := ordered.textsBelow
    simp only [Translator.textIndices, closed, Option.toList_none, List.map_nil,
      List.append_nil] at texts textsBelow
    refine ⟨?_, ?_, ordered.calls, ?_⟩
    · simp only [Translator.textIndices, Option.toList_some, List.map_cons, List.map_nil]
      rw [List.pairwise_append]
      refine ⟨texts, List.pairwise_singleton _ _, ?_⟩
      intro index indexMem last lastMem
      rw [List.mem_singleton.mp lastMem]
      exact textsBelow index indexMem
    · intro index indexMem
      simp only [Translator.textIndices, Option.toList_some, List.map_cons, List.map_nil,
        List.mem_append, List.mem_singleton] at indexMem
      rcases indexMem with finished | rfl
      · exact Nat.lt_succ_of_lt (textsBelow index finished)
      · exact Nat.lt_succ_self _
    · intro index indexMem
      exact Nat.lt_succ_of_lt (ordered.callsBelow index indexMem)

theorem openTextBlock_ends (before : Translator) : openTextBlock.Ends before fun after value =>
      Took [] before after ∧ after.current.isSome = true ∧ value = some () := by
  simp only [openTextBlock, ends_bind_iff, ends_read_iff, Option.elim_some]
  split
  next text isOpen =>
    simp only [ends_pure_iff]
    exact ⟨Took.refl before, by simp [isOpen], trivial⟩
  next closed =>
    simp only [emitEvent, ends_bind_iff, ends_write_iff, ends_read_iff, ends_emit_iff,
      Option.elim_some]
    exact ⟨took_opening closed _, rfl, trivial⟩

theorem took_text {before : Translator} (isOpen : before.current.isSome = true)
    (content : String) : Took [.text content] before (before.apply (.appendText content)) where
  held := by
    rcases Option.isSome_iff_exists.mp isOpen with ⟨text, current⟩
    simp [Translator.held, Translator.apply, current, openTextOf, Received.add, String.append_assoc]
  ordered := fun ordered => by
    have same : (before.apply (.appendText content)).textIndices = before.textIndices := by
      rcases Option.isSome_iff_exists.mp isOpen with ⟨text, current⟩
      simp [Translator.textIndices, Translator.apply, current]
    refine ⟨same ▸ ordered.texts, ?_, ordered.calls, ordered.callsBelow⟩
    rw [same]
    exact ordered.textsBelow

theorem takes_feedText (content : String) : Takes (feedText content) ⟨[.text content], true⟩ := by
  intro before
  simp only [feedText, ends_bind_iff]
  refine (openTextBlock_ends before).mono ?_
  rintro opened value ⟨tookOpening, isOpen, rfl⟩
  simp only [Option.elim_some, ends_write_iff, ends_read_iff, object_apply]
  have tookText := tookOpening.trans (took_text isOpen content)
  split
  · refine (takes_emitEvent _ _).mono ?_
    rintro after value ⟨tookEmit, ended⟩
    exact ⟨by simpa [Carried.nothing] using tookText.trans tookEmit, ended⟩
  · exact ⟨tookText, rfl⟩

theorem takes_feedContent (delta : List (String × Json)) :
    Takes (feedContent delta) (contentCarried delta) := by
  unfold feedContent contentCarried
  cases Json.get delta "content" with
  | str content =>
    by_cases nonempty : content = ""
    · intro before
      refine ⟨⟨?_, ?_⟩, ?_⟩ <;> simp [nonempty, Received.add, final, pure, done]
    · simpa [nonempty] using takes_feedText content
  | null => exact takes_pure ()
  | bool value => exact takes_pure ()
  | num value => exact takes_pure ()
  | arr items => exact takes_pure ()
  | obj fields => exact takes_pure ()

section Calls

variable {calls : List ReceivedCall} {index : Json.Key}

def Received.Knows (received : Received) (index : Json.Key) : Prop :=
  received.calls.any (fun call => call.index = index) = true

theorem any_receivedCall (calls : List (Json.Key × CallState)) :
    (calls.map receivedCall).any (fun call => call.index = index) =
      !(calls.all fun entry => entry.1 ≠ index) := by
  induction calls with
  | nil => rfl
  | cons entry rest ih =>
    simp only [List.map_cons, List.any_cons, List.all_cons, ih]
    by_cases same : entry.1 = index <;> simp [receivedCall, same]

theorem addCall_known (known : calls.any (fun call => call.index = index) = true)
    (id : Option Json) (name arguments : String) :
    addCall calls index id name arguments = calls.map fun call =>
      if call.index = index then
        { call with
          id := id.getD call.id
          name := call.name ++ name
          arguments := call.arguments ++ arguments }
      else call := by
  simp [addCall, known]

theorem any_addCall (id : Option Json) (name arguments : String) :
    (addCall calls index id name arguments).any (fun call => call.index = index) = true := by
  by_cases known : calls.any (fun call => call.index = index) = true
  · rcases List.any_eq_true.mp known with ⟨call, callMem, sameIndex⟩
    rw [addCall_known known, List.any_map]
    refine List.any_eq_true.mpr ⟨call, callMem, ?_⟩
    simp_all
  · simp [addCall, known]

theorem addCall_addCall (firstId secondId : Option Json)
    (firstName secondName firstArguments secondArguments : String) :
    addCall (addCall calls index firstId firstName firstArguments) index secondId secondName
        secondArguments =
      addCall calls index (secondId.or firstId) (firstName ++ secondName)
        (firstArguments ++ secondArguments) := by
  rw [addCall_known (any_addCall firstId firstName firstArguments)]
  simp only [addCall, List.map_map]
  apply List.map_congr_left
  intro call _
  by_cases sameIndex : call.index = index
  · cases secondId with
    | none | some id =>
      simp [sameIndex, String.append_assoc]
  · simp [sameIndex]

theorem Took.knows {before after : Translator} {id : Option Json} {name arguments : String}
    (took : Took [.call index id name arguments] before after) : after.held.Knows index := by
  rw [took.held]
  exact any_addCall id name arguments

theorem Took.merge {before middle after : Translator} {firstId secondId : Option Json}
    {firstName secondName firstArguments secondArguments : String}
    (tookFirst : Took [.call index firstId firstName firstArguments] before middle)
    (tookSecond : Took [.call index secondId secondName secondArguments] middle after) :
    Took [.call index (secondId.or firstId) (firstName ++ secondName)
      (firstArguments ++ secondArguments)] before after where
  held := by
    rw [tookSecond.held, tookFirst.held]
    simp only [List.foldl_cons, List.foldl_nil, Received.add, addCall_addCall]
  ordered := tookSecond.ordered ∘ tookFirst.ordered

theorem knows_iff {translator : Translator} :
    translator.held.Knows index ↔ isNewCall translator index = false := by
  unfold Received.Knows Translator.held isNewCall
  rw [any_receivedCall]
  simp

variable {before : Translator}

theorem took_update (known : before.held.Knows index)
    (change : CallState → CallState) (id : Option Json) (name arguments : String)
    (sameIndex : ∀ call, (change call).outputIndex = call.outputIndex)
    (changed : ∀ call, receivedCall (index, change call) =
      ⟨index, id.getD call.callId, call.name ++ name, call.arguments ++ arguments⟩) :
    Took [.call index id name arguments] before
      { before with toolCalls := updateCall index change before.toolCalls } where
  held := by
    simp only [List.foldl_cons, List.foldl_nil, Received.add]
    rw [addCall_known known]
    simp only [Translator.held, updateCall, List.map_map, Received.mk.injEq, true_and, and_true]
    apply List.map_congr_left
    intro entry _
    by_cases same : entry.1 = index
    · have changedHere := changed entry.2
      subst same
      simpa [receivedCall] using changedHere
    · simp [receivedCall, same]
  ordered := fun ordered => by
    have same : (updateCall index change before.toolCalls).map (fun entry => entry.2.outputIndex) =
        before.callIndices := by
      simp only [updateCall, Translator.callIndices, List.map_map]
      apply List.map_congr_left
      intro entry _
      by_cases hit : entry.1 = index
      · simp [hit, sameIndex]
      · simp [hit]
    refine ⟨ordered.texts, ordered.textsBelow, ?_, ?_⟩
    · simpa only [Translator.callIndices, same] using ordered.calls
    · simpa only [Translator.callIndices, same] using ordered.callsBelow

theorem took_newCall (isNew : isNewCall before index = true) :
    Took [.call index none "" ""] before (before.apply (.newCall index)) where
  held := by
    have unknown :
        (before.toolCalls.map receivedCall).any (fun call => call.index = index) = false := by
      rw [any_receivedCall]
      simpa [isNewCall] using isNew
    simp [Translator.held, Translator.apply, Received.add, addCall, unknown, receivedCall]
  ordered := fun ordered => by
    refine ⟨ordered.texts, ?_, ?_, ?_⟩
    · intro other otherMem
      exact Nat.lt_succ_of_lt (ordered.textsBelow other otherMem)
    · simp only [Translator.callIndices, Translator.apply, List.map_append, List.map_cons,
        List.map_nil]
      rw [List.pairwise_append]
      refine ⟨ordered.calls, List.pairwise_singleton _ _, ?_⟩
      intro other otherMem last lastMem
      rw [List.mem_singleton.mp lastMem]
      exact ordered.callsBelow other otherMem
    · intro other otherMem
      simp only [Translator.callIndices, Translator.apply, List.map_append, List.map_cons,
        List.map_nil, List.mem_append, List.mem_singleton] at otherMem
      rcases otherMem with earlier | rfl
      · exact Nat.lt_succ_of_lt (ordered.callsBelow other earlier)
      · exact Nat.lt_succ_self _

theorem took_knownCall (known : before.held.Knows index) :
    Took [.call index none "" ""] before before where
  held := by
    simp only [List.foldl_cons, List.foldl_nil, Received.add]
    rw [addCall_known known]
    simp
  ordered := id

theorem registerCall_ends (before : Translator) :
    (registerCall index).Ends before fun after value =>
      Took [.call index none "" ""] before after ∧ value.isSome = true := by
  simp only [registerCall, ends_bind_iff, ends_read_iff, Option.elim_some]
  split_ifs with isNew
  · exact ⟨took_newCall isNew, rfl⟩
  · exact ⟨took_knownCall (knows_iff.mpr (by simpa using isNew)), rfl⟩

section

variable (known : before.held.Knows index)

include known

theorem recordCallId_ends (call : List (String × Json)) :
    (recordCallId index call).Ends before fun after value =>
      Took [.call index (idField call) "" ""] before after ∧ value.isSome = true := by
  unfold recordCallId idField
  split_ifs
  · refine ⟨took_update known (fun state => { state with callId := Json.get call "id" }) _ _ _
      (fun _ => rfl) (fun _ => by simp [receivedCall]), rfl⟩
  · exact ⟨took_knownCall known, rfl⟩

theorem wrongType_ends (value : Json)
    (part : String → Delta) (empty : part "" = .call index none "" "") :
    (if value.truthy then raise else pure () : Translating Unit).Ends before fun after ended =>
      Took [part ((if value.truthy then none else some "").getD "")] before after ∧
        ended.isSome = (if value.truthy then none else some "" : Option String).isSome := by
  have took := took_knownCall known
  rw [← empty] at took
  cases value.truthy <;> exact ⟨took, rfl⟩

theorem recordName_ends (function : List (String × Json)) :
    (recordName index function).Ends before fun after value =>
      Took [.call index none ((textField function "name").getD "") ""] before after ∧
        value.isSome = (textField function "name").isSome := by
  unfold recordName textField
  cases Json.get function "name" with
  | str name =>
    by_cases nonempty : name = ""
    · simpa [nonempty] using took_knownCall known
    · simp only [ne_eq, nonempty, not_false_eq_true, if_true]
      exact ⟨took_update known (fun state => { state with name := state.name ++ name }) _ _ _
        (fun _ => rfl) (fun _ => by simp [receivedCall]), rfl⟩
  | null => exact wrongType_ends known .null (fun name => .call index none name "") rfl
  | bool value =>
    exact wrongType_ends known (.bool value) (fun name => .call index none name "") rfl
  | num value => exact wrongType_ends known (.num value) (fun name => .call index none name "") rfl
  | arr items => exact wrongType_ends known (.arr items) (fun name => .call index none name "") rfl
  | obj fields =>
    exact wrongType_ends known (.obj fields) (fun name => .call index none name "") rfl

theorem recordArguments_ends (function : List (String × Json)) :
    (recordArguments index function).Ends before fun after value =>
      Took [.call index none "" ((textField function "arguments").getD "")] before after ∧
        value.isSome = (textField function "arguments").isSome := by
  unfold recordArguments textField
  cases Json.get function "arguments" with
  | str arguments =>
    by_cases nonempty : arguments = ""
    · simpa [nonempty] using took_knownCall known
    · have took : Took [.call index none "" arguments] before
          (before.apply (.callArguments index arguments)) :=
        took_update known (fun state => { state with arguments := state.arguments ++ arguments })
          _ _ _ (fun _ => rfl) (fun _ => by simp [receivedCall])
      simp only [ne_eq, nonempty, not_false_eq_true, if_true, ends_bind_iff, ends_write_iff,
        ends_read_iff, Option.elim_some, object_apply]
      split
      · refine (takes_emitEvent _ _).mono ?_
        rintro after value ⟨tookEmit, ended⟩
        exact ⟨by simpa [Carried.nothing] using took.trans tookEmit, ended⟩
      · exact ⟨took, rfl⟩
  | null => exact wrongType_ends known .null (.call index none "") rfl
  | bool value => exact wrongType_ends known (.bool value) (.call index none "") rfl
  | num value => exact wrongType_ends known (.num value) (.call index none "") rfl
  | arr items => exact wrongType_ends known (.arr items) (.call index none "") rfl
  | obj fields => exact wrongType_ends known (.obj fields) (.call index none "") rfl

end

theorem takes_announceCall : Takes (announceCall index) .nothing := by
  intro before
  simp only [announceCall, ends_bind_iff, ends_read_iff, Option.elim_some]
  split
  · exact takes_emitEvent _ before
  · exact takes_pure () before

theorem takes_announceNewCall (isNew : Bool) : Takes (announceNewCall index isNew) .nothing := by
  cases isNew with
  | true => exact takes_announceCall
  | false => exact takes_pure ()

theorem feedFunction_ends {before identified : Translator} {id : Option Json}
    (tookId : Took [.call index id "" ""] before identified) (isNew : Bool)
    (function : List (String × Json)) :
    (feedFunction index isNew function).Ends identified fun after value =>
      Took (functionCarried index id function).deltas before after ∧
        value.isSome = (functionCarried index id function).intact := by
  simp only [feedFunction, functionCarried, ends_bind_iff]
  refine (recordName_ends tookId.knows function).mono ?_
  rintro named value ⟨tookName, ended⟩
  have tookName := tookId.merge tookName
  cases name_eq : textField function "name" with
  | none =>
    rw [name_eq] at ended tookName
    obtain rfl : value = none := by simpa using ended
    exact ⟨by simpa using tookName, rfl⟩
  | some name =>
    rw [name_eq] at ended tookName
    rcases Option.isSome_iff_exists.mp ended with ⟨_, rfl⟩
    simp only [Option.elim_some]
    refine (takes_announceNewCall isNew named).mono ?_
    rintro announced (_ | _) ⟨tookAnnounce, ended⟩
    · simp [Carried.nothing] at ended
    simp only [Option.elim_some]
    have tookAnnounce : Took [.call index id name ""] before announced := by
      simpa [Carried.nothing] using tookName.trans tookAnnounce
    refine (recordArguments_ends tookAnnounce.knows function).mono ?_
    rintro after value ⟨tookArguments, ended⟩
    have tookArguments := tookAnnounce.merge tookArguments
    cases arguments_eq : textField function "arguments" with
    | none | some arguments =>
      rw [arguments_eq] at ended tookArguments
      exact ⟨by simpa using tookArguments, ended⟩

theorem takes_feedToolCall (call : List (String × Json)) :
    Takes (feedToolCall call) (callCarried call) := by
  intro before
  simp only [feedToolCall, callIndex, callCarried, ends_bind_iff]
  cases ((call.lookup "index").getD (.num 0)).key with
  | none => exact takes_raise before
  | some index =>
    simp only [ends_pure_iff, Option.elim_some]
    refine (registerCall_ends before).mono ?_
    rintro registered (_ | isNew) ⟨tookIndex, ended⟩
    · simp at ended
    simp only [Option.elim_some]
    refine (recordCallId_ends tookIndex.knows call).mono ?_
    rintro identified (_ | _) ⟨tookId, ended⟩
    · simp at ended
    simp only [Option.elim_some, callFunction]
    have tookId : Took [.call index (idField call) "" ""] before identified := by
      simpa using tookIndex.merge tookId
    cases (Json.get call "function").orEmpty with
    | none => exact ⟨tookId, rfl⟩
    | some function => exact feedFunction_ends tookId isNew function

theorem takes_feedEachCall (items : List Json) :
    Takes (feedEachCall items) (callsCarried items) := by
  induction items with
  | nil => exact takes_pure ()
  | cons item rest ih =>
    cases item with
    | obj call => exact takes_bind (takes_feedToolCall call) fun _ => ih
    | null => exact ih
    | bool value => exact ih
    | num value => exact ih
    | str value => exact ih
    | arr inner => exact ih

theorem takes_feedDeltaCalls (delta : List (String × Json)) :
    Takes (feedDeltaCalls delta) (toolCallsCarried (Json.get delta "tool_calls")) := by
  unfold feedDeltaCalls toolCallsCarried feedToolCalls
  split_ifs
  · apply takes_bind takes_closeOpenText
    intro _
    cases Json.get delta "tool_calls" with
    | arr items => exact takes_feedEachCall items
    | str value => exact takes_pure ()
    | obj fields => exact takes_pure ()
    | null => exact takes_raise
    | bool value => exact takes_raise
    | num value => exact takes_raise
  · exact takes_pure ()

end Calls

theorem takes_write_nothing {change : TranslatorWrite}
    (kept : ∀ before : Translator, Took [] before (before.apply change)) :
    Takes (write change) .nothing :=
  fun before => ⟨kept before, rfl⟩

theorem Translator.Ordered.congr {before after : Translator} (ordered : before.Ordered)
    (texts : after.textIndices = before.textIndices)
    (calls : after.callIndices = before.callIndices)
    (next : after.nextOutputIndex = before.nextOutputIndex) : after.Ordered := by
  refine ⟨texts ▸ ordered.texts, ?_, calls ▸ ordered.calls, ?_⟩
  · rw [texts, next]
    exact ordered.textsBelow
  · rw [calls, next]
    exact ordered.callsBelow

theorem takes_recordFinishReason (choice : List (String × Json)) :
    Takes (recordFinishReason choice) .nothing := by
  unfold recordFinishReason
  split_ifs
  · exact takes_write_nothing fun _ => ⟨rfl, fun ordered => ordered.congr rfl rfl rfl⟩
  · exact takes_pure ()

theorem takes_recordUsage (fields : List (String × Json)) :
    Takes (recordUsage fields) .nothing := by
  unfold recordUsage
  split_ifs
  · exact takes_write_nothing fun _ => ⟨rfl, fun ordered => ordered.congr rfl rfl rfl⟩
  · exact takes_pure ()

theorem takes_recordReasoning (delta : List (String × Json)) :
    Takes (recordReasoning delta) .nothing := by
  unfold recordReasoning
  split
  · split_ifs
    · exact takes_write_nothing fun _ => ⟨rfl, fun ordered => ordered.congr rfl rfl rfl⟩
    · exact takes_pure ()
  · exact takes_pure ()

theorem takes_announceResponse : Takes announceResponse .nothing := by
  intro before
  simp only [announceResponse, emitEvent, ends_bind_iff, ends_read_iff, Option.elim_some]
  split_ifs
  · exact takes_pure () before
  · exact ⟨⟨rfl, fun ordered => ordered.congr rfl rfl rfl⟩, rfl⟩

theorem takes_feedChoice (choice : List (String × Json)) :
    Takes (feedChoice choice) (choiceCarried choice) := by
  apply takes_bind (takes_recordFinishReason choice)
  intro _
  cases (Json.get choice "delta").orEmpty with
  | none => exact takes_raise
  | some delta =>
    apply takes_bind (takes_feedContent delta)
    intro _
    exact takes_bind (takes_recordReasoning delta) fun _ => takes_feedDeltaCalls delta

theorem takes_processChunk (fields : List (String × Json)) :
    Takes (processChunk fields) (choicesCarried fields) := by
  apply takes_bind takes_announceResponse
  intro _
  apply takes_bind (takes_recordUsage fields)
  intro _
  unfold feedFirstChoice
  rcases firstChoice fields with _ | _ | choice
  · exact takes_pure ()
  · exact takes_raise
  · exact takes_feedChoice choice

theorem takes_processObj (value : Json) : Takes (processObj value) (objectCarried value) := by
  cases value with
  | obj fields =>
    simp only [processObj, objectCarried]
    cases Json.get fields "error" with
    | obj error => exact fun _ => ⟨⟨rfl, fun ordered => ordered.congr rfl rfl rfl⟩, rfl⟩
    | null | bool value | num value | str value | arr items =>
      exact takes_processChunk fields
  | null => exact takes_pure ()
  | bool value => exact takes_pure ()
  | num value => exact takes_pure ()
  | str value => exact takes_pure ()
  | arr items => exact takes_pure ()

theorem takes_feedLines (lines : List Line) : Takes (feedLines lines) (linesCarried lines) := by
  induction lines with
  | nil => exact takes_pure ()
  | cons line rest ih =>
    cases line with
    | comment =>
      have kept : Takes (emit .keepalive) .nothing := fun before => ⟨Took.refl before, rfl⟩
      exact takes_bind kept fun _ => ih
    | skipped => exact ih
    | object value => exact takes_bind (takes_processObj value) fun _ => ih

theorem takes_feed (loads : String → Option Json) (chunk : String) :
    Takes (feed loads chunk) (linesCarried (chunkLines loads chunk)) :=
  takes_feedLines _

end HybridInference.Responses
