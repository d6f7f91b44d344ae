import HybridInference.Anthropic.Tracking

/-!
# What arrives and how it is handled

Every fragment that arrives is added to what was received, and the queue and the
wire take it up: the text and the reasoning at the end of the queue, the arguments
of a call in its state and, where its block is open, on the wire.
-/

namespace HybridInference.Anthropic

open Translator Library

def Held (received : Received) (translator : Translator) : Prop :=
  ∃ wire, Tracks received false translator.pending translator wire

theorem Held.keepalive {received : Received} {translator : Translator}
    (held : Held received translator) : Held received (translator.emit .keepalive) := by
  rcases held with ⟨wire, tracks⟩
  exact ⟨wire, tracks_keepalive tracks⟩

section Content

variable {isJsonObject : String → Bool} {received : Received} {translator : Translator}

theorem held_handleContent {part : Part} {event : Pending} (held : Held received translator)
    (enqueue : ∀ {calls openTool blocks},
      Delivered received false translator.pending calls openTool blocks →
        Delivered (received.add part) false (translator.pending ++ [event]) calls openTool blocks) :
    Held (received.add part) (translator.handleContent isJsonObject event) ∧
      SameRest translator (translator.handleContent isJsonObject event) := by
  rcases held with ⟨wire, reads, phase, showing, nextIndex, delivered⟩
  have queued : Tracks (received.add part) false (translator.pending ++ [event])
      { translator with pending := translator.pending ++ [event] } wire :=
    ⟨reads, phase, showing.keeps rfl rfl rfl fun _ _ => rfl, nextIndex, enqueue delivered⟩
  rcases drained_drain isJsonObject queued with ⟨tracks, ⟨h1, h2, h3, h4, h5, h6, h7⟩, -⟩
  unfold handleContent
  simp only
  split_ifs
  · exact ⟨tracks, ⟨h1, h2, h3, h4, h5, h6, h7⟩⟩
  · exact ⟨Held.keepalive tracks, ⟨h1, h2, h3, h4, h5, h6, h7⟩⟩

theorem Received.add_thinking_empty (received : Received) :
    received.add (.thinking "") = received := by
  simp [Received.add]

theorem Received.add_text_empty (received : Received) : received.add (.text "") = received := by
  simp [Received.add]

theorem held_handleReasoning (isJsonObject : String → Bool) (delta : ChunkDelta)
    (held : Held received translator) :
    Held (received.add (.thinking (reasoningOf delta)))
        (handleReasoning isJsonObject delta translator) ∧
      SameRest translator (handleReasoning isJsonObject delta translator) := by
  unfold handleReasoning
  split_ifs with empty
  · rw [empty, Received.add_thinking_empty]
    exact ⟨held, SameRest.refl _⟩
  · exact held_handleContent held fun delivered => delivered.enqueueThinking _

theorem held_handleText (isJsonObject : String → Bool) (delta : ChunkDelta)
    (held : Held received translator) :
    Held (received.add (.text (delta.content.getD ""))) (handleText isJsonObject delta translator) ∧
      SameRest translator (handleText isJsonObject delta translator) := by
  unfold handleText
  split_ifs with empty
  · rw [empty, Received.add_text_empty]
    exact ⟨held, SameRest.refl _⟩
  · exact held_handleContent held fun delivered => delivered.enqueueText _

end Content

section Calls

variable {isJsonObject : String → Bool} {received : Received} {queue : List Pending}
  {openTool : Option ℤ} {blocks : List Block} {translator : Translator} {index : ℤ} {call : Call}
  {delta : ToolCallDelta} {fragment : String}

/-- What comes late does not change what came in time. -/
theorem inTime_firstText {known late : String} (given : String)
    (isLate : late = "" ∨ late = known) :
    inTime (firstText known given) (if known = "" then given else late) = inTime known late := by
  by_cases empty : known = ""
  · unfold inTime firstText
    split_ifs <;> simp_all
  · simp [firstText, empty]

theorem late_firstText {known late : String} (given : String) (opened : Bool)
    (isLate : late = "" ∨ late = known) :
    (if opened then if known = "" then given else late else late) = "" ∨
      (if opened then if known = "" then given else late else late) = firstText known given := by
  unfold firstText
  by_cases empty : known = "" <;> cases opened <;> simp_all

theorem Call.LateKnown.named (late : call.LateKnown) (delta : ToolCallDelta) :
    (call.named delta).LateKnown := by
  refine ⟨?_, ?_, ?_, ?_⟩
  · have lateId := late_firstText (delta.id.getD "") call.opened late.id
    unfold Call.named
    split_ifs at lateId ⊢ <;> exact lateId
  · have lateName := late_firstText (delta.name.getD "") call.opened late.name
    unfold Call.named
    split_ifs at lateName ⊢ <;> exact lateName
  · unfold Call.named
    split_ifs <;> exact late.blank
  · unfold Call.named
    split_ifs <;> exact late.unclosed

/-- The block of an opened call keeps its id and its name. -/
theorem Call.named_block (late : call.LateKnown) (opened : call.opened = true)
    (arguments : ToolArguments) :
    ({ call.named delta with arguments } : Call).block = ⟨call.block.kind, arguments.text⟩ := by
  simp only [Call.block, Call.named, opened, if_true, inTime_firstText _ late.id,
    inTime_firstText _ late.name]

theorem ToolArguments.scanChar_text (arguments : ToolArguments) (c : Char) :
    (arguments.scanChar c).text = arguments.text := by
  unfold scanChar
  split <;> (try split_ifs) <;> rfl

theorem ToolArguments.append_text (arguments : ToolArguments) (fragment : String) :
    (arguments.append fragment).text = arguments.text ++ fragment := by
  have scanned (chars : List Char) (start : ToolArguments) :
      (chars.foldl scanChar start).text = start.text := by
    induction chars generalizing start with
    | nil => rfl
    | cons c rest ih => rw [List.foldl_cons, ih, scanChar_text]
  exact scanned _ _

theorem ToolArguments.append_empty
    (arguments : ToolArguments) : arguments.append "" = arguments := by
  simp [append]

theorem toolCallState_eq (index : ℤ) (delta : ToolCallDelta) (held : Held received translator) :
    ∃ known call, Held received known ∧ known.toolCalls index = some call ∧
      SameRest translator known ∧
      translator.toolCallState index delta =
        (call.named delta, known.setCall index (call.named delta)) := by
  cases found : translator.toolCalls index with
  | some call =>
    exact ⟨translator, call, held, found, SameRest.refl _, by
      simp [toolCallState, found, Call.named]⟩
  | none =>
    rcases held with ⟨wire, tracks⟩
    have other : translator.openTool ≠ some index := by
      intro tool
      rcases tracks.openCall tool with ⟨call, -, -, openFound, -⟩
      rw [found] at openFound
      cases openFound
    rcases tracks with ⟨reads, phase, showing, nextIndex, delivered⟩
    refine ⟨{ translator with
      pending := translator.pending ++ [.tool index]
      toolCalls := Function.update translator.toolCalls index (some {}) }, {},
      ⟨wire, reads, phase, showing.setOther other rfl rfl rfl rfl, nextIndex,
        delivered.register found⟩, by simp, ⟨rfl, rfl, rfl, rfl, rfl, rfl, rfl⟩, ?_⟩
    simp [toolCallState, found, Call.named, setCall]

/-- A delta of a call is added to what was received for it. -/
theorem parts_add (delivered : CallDelivered received false queue openTool blocks index call) :
    (received.add (.call index ⟨delta.id.getD "", delta.name.getD "", fragment⟩)).calls index =
      ⟨(call.named delta).id, (call.named delta).name,
        call.arguments.text ++ call.late.arguments ++ fragment⟩ := by
  simp [Received.add, CallParts.add, delivered.parts, Call.named]

theorem callDelivered_append {laterBlocks : List Block}
    (delivered : CallDelivered received false queue openTool blocks index call)
    (unclosed : call.closed = false)
    (placed : call.opened = true → ∃ place, call.blockIndex = some place ∧
      laterBlocks[place]? = some ⟨call.block.kind, call.arguments.text ++ fragment⟩) :
    CallDelivered
      (received.add (.call index ⟨delta.id.getD "", delta.name.getD "", fragment⟩)) false queue
      openTool laterBlocks index
      { call.named delta with arguments := call.arguments.append fragment } := by
  have parts := @parts_add received queue openTool blocks index call delta fragment delivered
  rcases delivered with ⟨waiting, -, live, -, late⟩
  have named := late.named delta
  refine ⟨?_, ?_, live, ?_, ⟨named.id, named.name, named.blank, named.unclosed⟩⟩
  · intro unopened
    rcases waiting unopened with ⟨-, unplaced, noLate, marked | ⟨ends, -⟩⟩
    · refine ⟨unclosed, unplaced, ?_, Or.inl marked⟩
      simpa [Call.named, show call.opened = false from unopened] using noLate
    · cases ends
  · intro opened
    rw [Call.named_block late opened, ToolArguments.append_text]
    exact placed opened
  · rw [parts, late.unclosed unclosed, ToolArguments.append_text]
    have noLate : (call.named delta).late.arguments = "" := named.unclosed unclosed
    rw [noLate]
    simp

theorem add_call_of_ne {other : ℤ} {parts : CallParts} (different : other ≠ index) :
    (received.add (.call index parts)).calls other = received.calls other := by
  simp [Received.add, different]

theorem held_appendWaiting (delta : ToolCallDelta) (fragment : String)
    (held : Held received translator)
    (found : translator.toolCalls index = some call) (unopened : call.opened = false) :
    Held (received.add (.call index ⟨delta.id.getD "", delta.name.getD "", fragment⟩))
      (translator.setCall index
        { call.named delta with arguments := call.arguments.append fragment }) := by
  rcases held with ⟨wire, tracks⟩
  have other := tracks.waiting_ne_open found unopened
  rcases tracks with ⟨reads, phase, showing, nextIndex, delivered⟩
  have before := delivered.call index call found
  have unclosed := (before.waiting unopened).1
  refine ⟨wire, reads, phase, showing.setOther other rfl rfl rfl rfl, nextIndex, ?_⟩
  refine delivered.update found rfl (callDelivered_append before unclosed ?_) ?_ ?_ ?_ ?_
    ⟨rfl, rfl⟩ ⟨rfl, rfl⟩
  · intro opened
    rw [unopened] at opened
    cases opened
  · intro _ _ live
    exact live
  · intro _ different
    exact add_call_of_ne different
  · intro _ _ _ _ atPlace
    exact atPlace
  · intro _ block atPlace tool
    exact ⟨block, atPlace, tool⟩

def emitFragment (translator : Translator) (place : ℕ) (fragment : String) : Translator :=
  if fragment = "" then translator else translator.emit (.blockDelta place (.inputJson fragment))

theorem held_appendOpen (delta : ToolCallDelta) (fragment : String)
    (held : Held received translator)
    (found : translator.toolCalls index = some call) (opened : call.opened = true)
    (unclosed : call.closed = false) :
    Held (received.add (.call index ⟨delta.id.getD "", delta.name.getD "", fragment⟩))
      (emitFragment (translator.setCall index
        { call.named delta with arguments := call.arguments.append fragment })
        (call.blockIndex.getD 0) fragment) := by
  rcases held with ⟨wire, tracks⟩
  have live := (tracks.delivered.call index call found).live opened unclosed
  rcases tracks.openCall live with
    ⟨other, id, name, otherFound, -, -, place, current, thinking, text⟩
  obtain rfl : call = other := Option.some.inj (found.symm.trans otherFound)
  rcases tracks with ⟨reads, phase, -, nextIndex, delivered⟩
  have blocks := Wire.blocks_of_some current
  rw [blocks] at nextIndex delivered
  have reads_later : Wire.read (emitFragment (translator.setCall index
      { call.named delta with arguments := call.arguments.append fragment })
      (call.blockIndex.getD 0) fragment).yielded =
        some { wire with current := some ⟨.toolUse id name, call.arguments.text ++ fragment⟩ } := by
    unfold emitFragment
    split_ifs with empty
    · have same : wire =
          { wire with current := some ⟨.toolUse id name, call.arguments.text ++ fragment⟩ } := by
        simp [empty, ← current]
      rw [← same]
      exact reads
    · rw [place]
      exact (read_emit reads _).trans (Wire.accept_delta phase current rfl)
  have unchanged : (emitFragment (translator.setCall index
      { call.named delta with arguments := call.arguments.append fragment })
      (call.blockIndex.getD 0) fragment) =
        { translator.setCall index
            { call.named delta with arguments := call.arguments.append fragment } with
          yielded := (emitFragment (translator.setCall index
            { call.named delta with arguments := call.arguments.append fragment })
            (call.blockIndex.getD 0) fragment).yielded } := by
    unfold emitFragment
    split_ifs <;> rfl
  refine ⟨_, reads_later, phase, ?_, ?_, ?_⟩
  · rw [unchanged]
    refine .tool index { call.named delta with arguments := call.arguments.append fragment } id name
      ?_ thinking text live (by simp [setCall]) opened unclosed place
    simp [ToolArguments.append_text]
  · rw [unchanged]
    simpa [setCall, Wire.blocks] using nextIndex
  · rw [unchanged]
    have tool : (⟨.toolUse id name, call.arguments.text⟩ : Block).isToolUse = true := rfl
    refine delivered.update found rfl
      (callDelivered_append (delivered.call index call found) unclosed ?_) ?_ ?_ ?_ ?_ ?_ ?_
    · intro _
      rcases (delivered.call index call found).placed opened with ⟨other, otherPlace, block⟩
      obtain rfl := Option.some.inj (place.symm.trans otherPlace)
      have same : (⟨.toolUse id name, call.arguments.text⟩ : Block) = call.block := by
        simpa using block
      exact ⟨wire.stopped.length, place, by simp [Wire.blocks, ← same]⟩
    · intro _ _ live
      exact live
    · intro _ different
      exact add_call_of_ne different
    · intro other block elsewhere _ atPlace
      rcases getElem?_concat_cases atPlace with earlier | ⟨rfl, -⟩
      · exact getElem?_concat_of_some earlier
      · exact absurd place elsewhere
    · intro other block atPlace isTool
      rcases getElem?_concat_cases atPlace with earlier | ⟨rfl, -⟩
      · exact ⟨block, getElem?_concat_of_some earlier, isTool⟩
      · exact ⟨_, by simp, tool⟩
    · exact ⟨by simp [Wire.blocks, Block.textOf], rfl⟩
    · exact ⟨by simp [Wire.blocks, Block.thinkingOf], rfl⟩

theorem held_appendClosed (held : Held received translator)
    (found : translator.toolCalls index = some call) (closed : call.closed = true)
    (blank : isBlank fragment = true) :
    Held (received.add (.call index ⟨delta.id.getD "", delta.name.getD "", fragment⟩))
      (translator.setCall index ((call.named delta).addLate fragment)) := by
  rcases held with ⟨wire, tracks⟩
  have other : translator.openTool ≠ some index := by
    intro tool
    rcases tracks.openCall tool with ⟨openCall, -, -, openFound, -, unclosed, -⟩
    obtain rfl : call = openCall := Option.some.inj (found.symm.trans openFound)
    rw [closed] at unclosed
    cases unclosed
  rcases tracks with ⟨reads, phase, showing, nextIndex, delivered⟩
  have before := delivered.call index call found
  have opened : call.opened = true := by
    by_contra unopened
    rw [Bool.not_eq_true] at unopened
    rw [(before.waiting unopened).1] at closed
    cases closed
  refine ⟨wire, reads, phase, showing.setOther other rfl rfl rfl rfl, nextIndex, ?_⟩
  refine delivered.update found rfl ?_ ?_ ?_ ?_ ?_ ⟨rfl, rfl⟩ ⟨rfl, rfl⟩
  · have named := before.late.named delta
    refine ⟨?_, ?_, before.live, ?_, ⟨named.id, named.name, ?_, ?_⟩⟩
    · intro unopened
      simp [Call.addLate, Call.named, opened] at unopened
    · intro _
      have same : ((call.named delta).addLate fragment).block = call.block :=
        Call.named_block before.late opened call.arguments
      rw [same]
      exact before.placed opened
    · rw [parts_add before]
      simp [Call.addLate, Call.named, opened, String.append_assoc]
    · have blanks := named.blank
      simp only [Call.addLate, isBlank, String.toList_append, List.all_append,
        Bool.and_eq_true] at blanks blank ⊢
      exact ⟨blanks, blank⟩
    · intro unclosed
      simp [Call.addLate, Call.named, closed] at unclosed
  · intro _ _ live
    exact live
  · intro _ different
    exact add_call_of_ne different
  · intro _ _ _ _ atPlace
    exact atPlace
  · intro _ block atPlace tool
    exact ⟨block, atPlace, tool⟩

end Calls

section Deltas

variable {isJsonObject : String → Bool} {received : Received} {translator next : Translator}
  {index : ℤ} {call : Call} {delta : ToolCallDelta} {fragment : String}

theorem held_drain (isJsonObject : String → Bool) (held : Held received translator) :
    Held received (translator.drainPendingEvents isJsonObject false) ∧
      SameRest translator (translator.drainPendingEvents isJsonObject false) := by
  rcases held with ⟨wire, tracks⟩
  rcases drained_drain isJsonObject tracks with ⟨tracks, rest, -⟩
  exact ⟨tracks, rest⟩

theorem setCall_append : (if fragment = "" then translator.setCall index (call.named delta)
      else (translator.setCall index (call.named delta)).setCall index
        { call.named delta with arguments := (call.named delta).arguments.append fragment }) =
      translator.setCall index
        { call.named delta with arguments := call.arguments.append fragment } := by
  split_ifs with empty
  · rw [empty, ToolArguments.append_empty]
    rfl
  · simp [setCall, Call.named]

theorem sameRest_setCall (call : Call) : SameRest translator (translator.setCall index call) :=
  ⟨rfl, rfl, rfl, rfl, rfl, rfl, rfl⟩

theorem sameRest_emitFragment (place : ℕ) :
    SameRest translator (emitFragment translator place fragment) := by
  unfold emitFragment
  split_ifs <;> exact ⟨rfl, rfl, rfl, rfl, rfl, rfl, rfl⟩

theorem held_appendFragment (isJsonObject : String → Bool) (held : Held received translator)
    (found : translator.toolCalls index = some call) (unclosed : call.closed = false) :
    Held (received.add (.call index ⟨delta.id.getD "", delta.name.getD "", fragment⟩))
        (appendFragment isJsonObject (translator.setCall index (call.named delta)) index
          (call.named delta) fragment) ∧
      SameRest translator
        (appendFragment isJsonObject (translator.setCall index (call.named delta)) index
          (call.named delta) fragment) := by
  simp only [appendFragment, setCall_append]
  cases opened : call.opened with
  | true =>
    have named : (call.named delta).opened = true := opened
    have place : (call.named delta).blockIndex = call.blockIndex := rfl
    rw [if_pos named, place]
    rcases held_drain isJsonObject (held_appendOpen delta fragment held found opened
      unclosed) with ⟨drained, sameRest⟩
    exact ⟨drained, (sameRest_setCall _).trans ((sameRest_emitFragment _).trans sameRest)⟩
  | false =>
    have named : ¬(call.named delta).opened = true := by simp [Call.named, opened]
    rcases held_drain isJsonObject (held_appendWaiting delta fragment held found opened) with
      ⟨drained, sameRest⟩
    have rest := (sameRest_setCall _).trans sameRest
    split_ifs
    · exact ⟨drained.keepalive, ⟨rest.1, rest.2, rest.3, rest.4, rest.5, rest.6, rest.7⟩⟩
    · exact ⟨drained, rest⟩

theorem held_attach (held : Held received translator)
    (attached : emitToolCallDelta.attach isJsonObject translator delta index = some next) :
    Held (received.add (.call index ⟨delta.id.getD "", delta.name.getD "",
        (normalizePartialArguments delta).getD ""⟩)) next ∧
      SameRest translator next := by
  rcases toolCallState_eq index delta held with
    ⟨known, call, heldKnown, found, sameRest, state⟩
  simp only [emitToolCallDelta.attach, state] at attached
  split_ifs at attached with closed blank <;> cases attached
  · have set : (known.setCall index (call.named delta)).setCall index
        ((call.named delta).addLate ((normalizePartialArguments delta).getD "")) =
          known.setCall index
            ((call.named delta).addLate ((normalizePartialArguments delta).getD "")) := by
      simp [setCall]
    rw [set]
    exact ⟨held_appendClosed heldKnown found closed blank, sameRest.trans (sameRest_setCall _)⟩
  · have unclosed : call.closed = false := by simpa [Call.named] using closed
    rcases held_appendFragment isJsonObject heldKnown found unclosed with ⟨heldNext, rest⟩
    exact ⟨heldNext, sameRest.trans rest⟩

theorem held_emitToolCallDelta (held : Held received translator)
    (emitted : translator.emitToolCallDelta isJsonObject delta = some next) :
    Held (received.add delta.part) next ∧ SameRest translator next := by
  unfold emitToolCallDelta at emitted
  unfold ToolCallDelta.part ToolCallDelta.callIndex
  split at emitted
  · cases emitted
  next missing =>
    rw [missing]
    exact held_attach held emitted
  next value index =>
    rw [index]
    exact held_attach held emitted

theorem held_emitToolCallDeltas {deltas : List ToolCallDelta} (held : Held received translator)
    (emitted : translator.emitToolCallDeltas isJsonObject deltas = some next) :
    Held ((deltas.map ToolCallDelta.part).foldl Received.add received) next ∧
      SameRest translator next := by
  induction deltas generalizing received translator with
  | nil =>
    cases emitted
    exact ⟨held, SameRest.refl _⟩
  | cons delta rest ih =>
    rcases Option.bind_eq_some_iff.mp emitted with ⟨middle, first, later⟩
    rcases held_emitToolCallDelta held first with ⟨heldMiddle, sameFirst⟩
    rcases ih heldMiddle later with ⟨heldNext, sameLater⟩
    exact ⟨heldNext, sameFirst.trans sameLater⟩

end Deltas

end HybridInference.Anthropic
