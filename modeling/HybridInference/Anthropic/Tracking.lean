import HybridInference.Anthropic.Delivery

/-!
# The translator and the wire

After every operation the reader of the wire has accepted what was yielded, the
block it sees open is the one the translator holds open, and the blocks and the
queue are what was received.
-/

namespace HybridInference.Anthropic

open Translator Library

/-- The block that is open on the wire is the one the translator holds open. -/
inductive Showing (translator : Translator) (wire : Wire) : Prop where
  | nothing (current : wire.current = none) (thinking : translator.currentThinking = none)
      (text : translator.currentText = none) (tool : translator.openTool = none)
  | thinking (content : String) (current : wire.current = some ⟨.thinking, content⟩)
      (thinking : translator.currentThinking = some wire.stopped.length)
      (text : translator.currentText = none) (tool : translator.openTool = none)
  | text (content : String) (current : wire.current = some ⟨.text, content⟩)
      (thinking : translator.currentThinking = none)
      (text : translator.currentText = some wire.stopped.length)
      (tool : translator.openTool = none)
  | tool (index : ℤ) (call : Call) (id name : String)
      (current : wire.current = some ⟨.toolUse id name, call.arguments.text⟩)
      (thinking : translator.currentThinking = none) (text : translator.currentText = none)
      (tool : translator.openTool = some index) (found : translator.toolCalls index = some call)
      (opened : call.opened = true) (unclosed : call.closed = false)
      (place : call.blockIndex = some wire.stopped.length)

/-- What is shown depends on the open blocks only. -/
theorem Showing.keeps {translator later : Translator} {wire : Wire}
    (showing : Showing translator wire)
    (thinking : later.currentThinking = translator.currentThinking)
    (text : later.currentText = translator.currentText)
    (tool : later.openTool = translator.openTool)
    (calls : ∀ index, translator.openTool = some index →
      later.toolCalls index = translator.toolCalls index) : Showing later wire := by
  cases showing with
  | nothing current noThinking noText noTool =>
    exact .nothing current (thinking.trans noThinking) (text.trans noText) (tool.trans noTool)
  | thinking content current isThinking noText noTool =>
    exact .thinking content current (thinking.trans isThinking) (text.trans noText)
      (tool.trans noTool)
  | text content current noThinking isText noTool =>
    exact .text content current (thinking.trans noThinking) (text.trans isText) (tool.trans noTool)
  | tool index call id name current noThinking noText isTool found opened unclosed place =>
    exact .tool index call id name current (thinking.trans noThinking) (text.trans noText)
      (tool.trans isTool) ((calls index isTool).trans found) opened unclosed place

theorem Showing.setOther {translator later : Translator} {wire : Wire} {index : ℤ}
    {call : Option Call} (showing : Showing translator wire)
    (other : translator.openTool ≠ some index)
    (thinking : later.currentThinking = translator.currentThinking)
    (text : later.currentText = translator.currentText)
    (tool : later.openTool = translator.openTool)
    (calls : later.toolCalls = Function.update translator.toolCalls index call) :
    Showing later wire := by
  refine showing.keeps thinking text tool ?_
  intro openIndex isTool
  have different : openIndex ≠ index := fun same => other (by rw [isTool, same])
  rw [calls, Function.update_of_ne different]

/-- How the translator's state and the wire relate while a stream runs. -/
structure Tracks (received : Received) (finalizing : Bool) (queue : List Pending)
    (translator : Translator) (wire : Wire) : Prop where
  read : Wire.read translator.yielded = some wire
  phase : wire.phase = .content
  showing : Showing translator wire
  nextIndex : translator.nextIndex = wire.blocks.length
  delivered : Delivered received finalizing queue translator.toolCalls translator.openTool
    wire.blocks

structure SameRest (before after : Translator) : Prop where
  started : after.started = before.started
  closed : after.closed = before.closed
  aborted : after.aborted = before.aborted
  finishReason : after.finishReason = before.finishReason
  usage : after.usage = before.usage
  upstreamUsage : after.upstreamUsage = before.upstreamUsage
  buffer : after.buffer = before.buffer

theorem SameRest.refl (translator : Translator) : SameRest translator translator :=
  ⟨rfl, rfl, rfl, rfl, rfl, rfl, rfl⟩

theorem SameRest.trans {first second third : Translator} (before : SameRest first second)
    (after : SameRest second third) : SameRest first third :=
  ⟨after.1.trans before.1, after.2.trans before.2, after.3.trans before.3,
    after.4.trans before.4, after.5.trans before.5, after.6.trans before.6,
    after.7.trans before.7⟩

section Frames

variable {translator : Translator} {wire : Wire}

theorem read_emit (reads : Wire.read translator.yielded = some wire) (frame : Frame) :
    Wire.read (translator.emit frame).yielded = wire.accept frame := by
  simp [emit, Wire.read_append_singleton, reads]

variable {block : Block}

theorem Wire.accept_stop (phase : wire.phase = .content) (current : wire.current = some block) :
    wire.accept (.blockStop wire.stopped.length) =
      some { wire with stopped := wire.stopped ++ [block], current := none } := by
  simp [Wire.accept, phase, current]

theorem Wire.accept_start (phase : wire.phase = .content) (current : wire.current = none)
    (kind : BlockKind) :
    wire.accept (.blockStart wire.stopped.length kind) =
      some { wire with current := some ⟨kind, ""⟩ } := by
  simp [Wire.accept, phase, current]

theorem Wire.accept_delta {block : Block} {delta : BlockDelta} (phase : wire.phase = .content)
    (current : wire.current = some block) (fits : delta.fits block.kind = true) :
    wire.accept (.blockDelta wire.stopped.length delta) =
      some { wire with
        current := some { block with content := block.content ++ delta.content } } := by
  simp [Wire.accept, phase, current, fits]

theorem Wire.blocks_of_none (current : wire.current = none) : wire.blocks = wire.stopped := by
  simp [Wire.blocks, current]

theorem Wire.blocks_of_some (current : wire.current = some block) :
    wire.blocks = wire.stopped ++ [block] := by
  simp [Wire.blocks, current]

theorem Wire.blocks_stop (current : wire.current = some block) :
    ({ wire with stopped := wire.stopped ++ [block], current := none } : Wire).blocks =
      wire.blocks := by
  simp [Wire.blocks, current]

end Frames

section Blocks

variable {received : Received} {finalizing : Bool} {queue rest : List Pending}
  {translator : Translator} {wire : Wire}

def Quiet (received : Received) (finalizing : Bool) (queue : List Pending)
    (translator : Translator) : Prop :=
  ∃ wire, Tracks received finalizing queue translator wire ∧ wire.current = none ∧
    translator.currentThinking = none ∧ translator.currentText = none ∧ translator.openTool = none

theorem quiet_closeVisibleBlocks (tracks : Tracks received finalizing queue translator wire)
    (noTool : translator.openTool = none) :
    Quiet received finalizing queue translator.closeVisibleBlocks ∧
      translator.closeVisibleBlocks.toolCalls = translator.toolCalls ∧
      translator.closeVisibleBlocks.nextIndex = translator.nextIndex ∧
      SameRest translator translator.closeVisibleBlocks := by
  rcases tracks with ⟨reads, phase, showing, nextIndex, delivered⟩
  cases showing with
  | nothing current thinking text tool =>
    have same : translator.closeVisibleBlocks = translator := by
      simp [closeVisibleBlocks, closeThinking, closeText, thinking, text]
    rw [same]
    exact ⟨⟨wire, ⟨reads, phase, .nothing current thinking text tool, nextIndex, delivered⟩,
      current, thinking, text, tool⟩, rfl, rfl, SameRest.refl _⟩
  | thinking content current thinking text tool =>
    have closes : translator.closeVisibleBlocks =
        { translator.emit (.blockStop wire.stopped.length) with currentThinking := none } := by
      simp [closeVisibleBlocks, closeThinking, closeText, thinking, text, emit]
    have blocks := Wire.blocks_stop current
    rw [closes]
    refine ⟨⟨_, ⟨(read_emit reads _).trans (Wire.accept_stop phase current), phase,
      .nothing rfl rfl text tool, ?_, ?_⟩, rfl, rfl, text, tool⟩, rfl, rfl,
      ⟨rfl, rfl, rfl, rfl, rfl, rfl, rfl⟩⟩
    · rw [blocks]
      exact nextIndex
    · rw [blocks]
      exact delivered
  | text content current thinking text tool =>
    have closes : translator.closeVisibleBlocks =
        { translator.emit (.blockStop wire.stopped.length) with currentText := none } := by
      simp [closeVisibleBlocks, closeThinking, closeText, thinking, text, emit]
    have blocks := Wire.blocks_stop current
    rw [closes]
    refine ⟨⟨_, ⟨(read_emit reads _).trans (Wire.accept_stop phase current), phase,
      .nothing rfl thinking rfl tool, ?_, ?_⟩, rfl, thinking, rfl, tool⟩, rfl, rfl,
      ⟨rfl, rfl, rfl, rfl, rfl, rfl, rfl⟩⟩
    · rw [blocks]
      exact nextIndex
    · rw [blocks]
      exact delivered
  | tool index call id name current thinking text tool found opened unclosed place =>
    rw [tool] at noTool
    cases noTool

theorem sameRest_closeText
    (translator : Translator) : SameRest translator translator.closeText := by
  unfold closeText
  split <;> exact ⟨rfl, rfl, rfl, rfl, rfl, rfl, rfl⟩

theorem sameRest_closeThinking (translator : Translator) :
    SameRest translator translator.closeThinking := by
  unfold closeThinking
  split <;> exact ⟨rfl, rfl, rfl, rfl, rfl, rfl, rfl⟩

theorem tracks_startThinking (tracks : Tracks received finalizing queue translator wire)
    (current : wire.current = none) (text : translator.currentText = none)
    (tool : translator.openTool = none) :
    Tracks received finalizing queue
      ({ translator with
          currentThinking := some translator.nextIndex
          nextIndex := translator.nextIndex + 1 }.emit
        (.blockStart translator.nextIndex .thinking))
      { wire with current := some ⟨.thinking, ""⟩ } := by
  rcases tracks with ⟨reads, phase, -, nextIndex, delivered⟩
  rw [Wire.blocks_of_none current] at nextIndex delivered
  refine ⟨?_, phase, .thinking "" rfl (by simp [emit, nextIndex]) text tool, ?_, ?_⟩
  · rw [nextIndex]
    exact (read_emit reads _).trans (Wire.accept_start phase current .thinking)
  · simp [emit, nextIndex, Wire.blocks]
  · exact delivered.startThinking

theorem tracks_startText (tracks : Tracks received finalizing queue translator wire)
    (current : wire.current = none) (thinking : translator.currentThinking = none)
    (tool : translator.openTool = none) :
    Tracks received finalizing queue
      ({ translator with
          currentText := some translator.nextIndex
          nextIndex := translator.nextIndex + 1 }.emit
        (.blockStart translator.nextIndex .text))
      { wire with current := some ⟨.text, ""⟩ } := by
  rcases tracks with ⟨reads, phase, -, nextIndex, delivered⟩
  rw [Wire.blocks_of_none current] at nextIndex delivered
  refine ⟨?_, phase, .text "" rfl thinking (by simp [emit, nextIndex]) tool, ?_, ?_⟩
  · rw [nextIndex]
    exact (read_emit reads _).trans (Wire.accept_start phase current .text)
  · simp [emit, nextIndex, Wire.blocks]
  · exact delivered.startText

variable {content before : String}

theorem tracks_think
    (tracks : Tracks received finalizing (.thinking content :: rest) translator wire)
    (current : wire.current = some ⟨.thinking, before⟩)
    (thinking : translator.currentThinking = some wire.stopped.length)
    (text : translator.currentText = none) (tool : translator.openTool = none) :
    Tracks received finalizing rest
      (translator.emit (.blockDelta wire.stopped.length (.thinking content)))
      { wire with current := some ⟨.thinking, before ++ content⟩ } := by
  rcases tracks with ⟨reads, phase, -, nextIndex, delivered⟩
  rw [Wire.blocks_of_some current] at nextIndex delivered
  refine ⟨?_, phase, .thinking _ rfl thinking text tool, ?_, delivered.think⟩
  · exact (read_emit reads _).trans (Wire.accept_delta phase current rfl)
  · simpa [emit, Wire.blocks] using nextIndex

theorem tracks_speak (tracks : Tracks received finalizing (.text content :: rest) translator wire)
    (current : wire.current = some ⟨.text, before⟩) (thinking : translator.currentThinking = none)
    (text : translator.currentText = some wire.stopped.length) (tool : translator.openTool = none) :
    Tracks received finalizing rest
      (translator.emit (.blockDelta wire.stopped.length (.text content)))
      { wire with current := some ⟨.text, before ++ content⟩ } := by
  rcases tracks with ⟨reads, phase, -, nextIndex, delivered⟩
  rw [Wire.blocks_of_some current] at nextIndex delivered
  refine ⟨?_, phase, .text _ rfl thinking text tool, ?_, delivered.speak⟩
  · exact (read_emit reads _).trans (Wire.accept_delta phase current rfl)
  · simpa [emit, Wire.blocks] using nextIndex

theorem tracks_emitThinking {content : String}
    (tracks : Tracks received finalizing (.thinking content :: rest) translator wire)
    (noTool : translator.openTool = none) :
    ∃ later, Tracks received finalizing rest (translator.emitThinking content) later ∧
      (translator.emitThinking content).openTool = none := by
  cases thinking : translator.currentThinking with
  | some index =>
    have kept := tracks
    have emits : translator.emitThinking content =
        translator.emit (.blockDelta index (.thinking content)) := by
      simp [emitThinking, thinking]
    rw [emits]
    cases tracks.showing with
    | thinking before current thinking_eq text tool =>
      obtain rfl : index = wire.stopped.length :=
        Option.some.inj (thinking.symm.trans thinking_eq)
      exact ⟨_, tracks_think kept current thinking_eq text tool, tool⟩
    | nothing current thinking_eq text tool | text before current thinking_eq text tool
    | tool tool call id name current thinking_eq =>
      simp [thinking] at thinking_eq
  | none =>
    have closes : translator.closeText = translator.closeVisibleBlocks := by
      simp [closeVisibleBlocks, closeThinking, thinking]
    rcases quiet_closeVisibleBlocks tracks noTool with
      ⟨⟨free, tracksFree, current, -, text, tool⟩, -, nextIndex, -⟩
    rw [← closes] at tracksFree text tool nextIndex
    have started := tracks_startThinking tracksFree current text tool
    have place : translator.nextIndex = free.stopped.length := by
      rw [← nextIndex, tracksFree.nextIndex, Wire.blocks_of_none current]
    have said := tracks_think started rfl (by simp [emit, nextIndex, place]) text tool
    have emits : translator.emitThinking content =
        translator.openThinking.emit (.blockDelta free.stopped.length (.thinking content)) := by
      simp [emitThinking, thinking, place]
    rw [emits]
    exact ⟨_, said, tool⟩

theorem tracks_emitText {content : String}
    (tracks : Tracks received finalizing (.text content :: rest) translator wire)
    (noTool : translator.openTool = none) :
    ∃ later, Tracks received finalizing rest (translator.emitText content) later ∧
      (translator.emitText content).openTool = none := by
  cases text : translator.currentText with
  | some index =>
    have kept := tracks
    have emits : translator.emitText content =
        translator.emit (.blockDelta index (.text content)) := by
      simp [emitText, text]
    rw [emits]
    cases tracks.showing with
    | text before current thinking text_eq tool =>
      obtain rfl : index = wire.stopped.length := Option.some.inj (text.symm.trans text_eq)
      exact ⟨_, tracks_speak kept current thinking text_eq tool, tool⟩
    | nothing current thinking text_eq tool => simp [text] at text_eq
    | thinking before current thinking text_eq tool => simp [text] at text_eq
    | tool tool call id name current thinking text_eq => simp [text] at text_eq
  | none =>
    have closes : translator.closeThinking = translator.closeVisibleBlocks := by
      have stillNone : translator.closeThinking.currentText = none := by
        unfold closeThinking
        split <;> simpa [emit] using text
      simp [closeVisibleBlocks, closeText, stillNone]
    rcases quiet_closeVisibleBlocks tracks noTool with
      ⟨⟨free, tracksFree, current, thinking, -, tool⟩, -, nextIndex, -⟩
    rw [← closes] at tracksFree thinking tool nextIndex
    have started := tracks_startText tracksFree current thinking tool
    have place : translator.nextIndex = free.stopped.length := by
      rw [← nextIndex, tracksFree.nextIndex, Wire.blocks_of_none current]
    have said := tracks_speak started rfl thinking (by simp [emit, nextIndex, place]) tool
    have emits : translator.emitText content =
        translator.openText.emit (.blockDelta free.stopped.length (.text content)) := by
      simp [emitText, text, place]
    rw [emits]
    exact ⟨_, said, tool⟩

end Blocks

section Tools

variable {isJsonObject : String → Bool} {received : Received} {finalizing : Bool}
  {queue rest : List Pending} {translator : Translator} {wire : Wire} {index : ℤ} {call : Call}

section

variable (tracks : Tracks received finalizing queue translator wire)

include tracks

theorem tracks_pending (pending : List Pending) :
    Tracks received finalizing queue { translator with pending } wire := by
  rcases tracks with ⟨reads, phase, showing, nextIndex, delivered⟩
  exact ⟨reads, phase, showing.keeps rfl rfl rfl fun _ _ => rfl, nextIndex, delivered⟩

theorem tracks_keepalive : Tracks received finalizing queue (translator.emit .keepalive) wire := by
  rcases tracks with ⟨reads, phase, showing, nextIndex, delivered⟩
  exact ⟨read_emit reads .keepalive, phase, showing.keeps rfl rfl rfl fun _ _ => rfl, nextIndex,
    delivered⟩

theorem Tracks.openCall (tool : translator.openTool = some index) :
    ∃ call id name, translator.toolCalls index = some call ∧ call.opened = true ∧
      call.closed = false ∧ call.blockIndex = some wire.stopped.length ∧
      wire.current = some ⟨.toolUse id name, call.arguments.text⟩ ∧
      translator.currentThinking = none ∧ translator.currentText = none := by
  cases tracks.showing with
  | nothing current thinking text noTool => simp [tool] at noTool
  | thinking content current thinking text noTool => simp [tool] at noTool
  | text content current thinking text noTool => simp [tool] at noTool
  | tool other call id name current thinking text tool_eq found opened unclosed place =>
    obtain rfl : index = other := Option.some.inj (tool.symm.trans tool_eq)
    exact ⟨call, id, name, found, opened, unclosed, place, current, thinking, text⟩

theorem tracks_closeOpenTool :
    ∃ later, Tracks received finalizing queue translator.closeOpenTool later ∧
      translator.closeOpenTool.openTool = none := by
  cases tool : translator.openTool with
  | none =>
    have same : translator.closeOpenTool = translator := by simp [closeOpenTool, tool]
    rw [same]
    exact ⟨wire, tracks, tool⟩
  | some index =>
    rcases tracks.openCall tool with
      ⟨call, id, name, found, opened, unclosed, place, current, thinking, text⟩
    rcases tracks with ⟨reads, phase, -, nextIndex, delivered⟩
    have closes : translator.closeOpenTool =
        { (translator.emit (.blockStop wire.stopped.length)).setCall index
            { call with closed := true } with openTool := none } := by
      simp [closeOpenTool, tool, found, place]
    rw [closes]
    refine ⟨_, ⟨(read_emit reads _).trans (Wire.accept_stop phase current), phase,
      .nothing rfl thinking text rfl, ?_, ?_⟩, rfl⟩
    · rw [Wire.blocks_stop current]
      exact nextIndex
    · rw [Wire.blocks_stop current]
      rw [tool] at delivered
      exact delivered.closeTool found opened

end

theorem sameRest_closeOpenTool (translator : Translator) :
    SameRest translator translator.closeOpenTool := by
  unfold closeOpenTool
  split
  · exact SameRest.refl _
  · split <;> exact ⟨rfl, rfl, rfl, rfl, rfl, rfl, rfl⟩

theorem closeOpenTool_toolCalls (other : translator.openTool ≠ some index) :
    translator.closeOpenTool.toolCalls index = translator.toolCalls index := by
  unfold closeOpenTool
  split
  · rfl
  next openIndex tool =>
    have different : index ≠ openIndex := fun same => other (by rw [tool, same])
    split
    · simp [setCall, emit, different]
    · rfl

theorem complete_text (arguments : ToolArguments) :
    (arguments.complete isJsonObject).2.text = arguments.text := by
  unfold ToolArguments.complete
  split_ifs
  · split <;> rfl
  · rfl

theorem tracks_openToolComplete (isJsonObject : String → Bool)
    (tracks : Tracks received finalizing queue translator wire) :
    Tracks received finalizing queue (translator.openToolComplete isJsonObject).2 wire ∧
      (translator.openToolComplete isJsonObject).2.openTool = translator.openTool := by
  cases tool : translator.openTool with
  | none => simpa [openToolComplete, tool] using tracks
  | some index =>
    rcases tracks.openCall tool with
      ⟨call, id, name, found, opened, unclosed, place, current, thinking, text⟩
    rcases tracks with ⟨reads, phase, -, nextIndex, delivered⟩
    simp only [openToolComplete, tool, found]
    refine ⟨⟨reads, phase, ?_, nextIndex, ?_⟩, tool⟩
    · refine .tool index { call with arguments := (call.arguments.complete isJsonObject).2 } id
        name ?_ thinking text tool (by simp [setCall]) opened unclosed place
      rw [current, complete_text]
    · exact delivered.keepAnswer found (complete_text call.arguments)

theorem sameRest_openToolComplete (translator : Translator) :
    SameRest translator (translator.openToolComplete isJsonObject).2 := by
  unfold openToolComplete
  split
  · exact SameRest.refl _
  · split <;> exact ⟨rfl, rfl, rfl, rfl, rfl, rfl, rfl⟩

theorem openToolComplete_toolCalls (other : translator.openTool ≠ some index) :
    (translator.openToolComplete isJsonObject).2.toolCalls index = translator.toolCalls index := by
  unfold openToolComplete
  split
  · rfl
  next openIndex tool =>
    have different : index ≠ openIndex := fun same => other (by rw [tool, same])
    split
    · simp [setCall, different]
    · rfl

/-- Freeing the wire leaves no call open, or the open call keeps it blocked. -/
theorem freeWire_cases (isJsonObject : String → Bool)
    (tracks : Tracks received finalizing queue translator wire) :
    (∃ free blocked later, freeWire isJsonObject finalizing translator = (some free, blocked) ∧
        Tracks received finalizing queue free later ∧ free.openTool = none ∧
        SameRest translator free ∧
        ∀ index, translator.openTool ≠ some index →
          free.toolCalls index = translator.toolCalls index) ∨
      ∃ blocked, freeWire isJsonObject finalizing translator = (none, blocked) ∧
        finalizing = false ∧ Tracks received finalizing queue blocked wire ∧
        SameRest translator blocked := by
  rcases tracks_openToolComplete isJsonObject tracks with ⟨asked, sameTool⟩
  by_cases noTool : translator.openTool.isNone = true
  · exact Or.inl ⟨translator, translator, wire, by simp [freeWire, noTool], tracks,
      by simpa using noTool, SameRest.refl _, fun _ _ => rfl⟩
  cases finalizing with
  | true =>
    rcases tracks_closeOpenTool tracks with ⟨later, closed, tool⟩
    exact Or.inl ⟨_, translator, later, by simp [freeWire, noTool], closed, tool,
      sameRest_closeOpenTool _, fun _ other => closeOpenTool_toolCalls other⟩
  | false =>
    cases complete : (translator.openToolComplete isJsonObject).1 with
    | true =>
      rcases tracks_closeOpenTool asked with ⟨later, closed, tool⟩
      refine Or.inl ⟨_, (translator.openToolComplete isJsonObject).2, later,
        by simp [freeWire, noTool, complete], closed, tool,
        (sameRest_openToolComplete _).trans (sameRest_closeOpenTool _), ?_⟩
      intro index other
      rw [closeOpenTool_toolCalls (by rwa [sameTool]), openToolComplete_toolCalls other]
    | false =>
      exact Or.inr ⟨_, by simp [freeWire, noTool, complete], rfl, asked,
        sameRest_openToolComplete _⟩

theorem read_openToolBlock {free : Wire} (noTool : translator.openTool = none)
    (reads : Wire.read translator.closeVisibleBlocks.yielded = some free)
    (phase : free.phase = .content) (current : free.current = none)
    (place : translator.closeVisibleBlocks.nextIndex = free.stopped.length) :
    Wire.read (translator.openToolBlock index call).yielded =
      some { free with current := some ⟨.toolUse call.id call.name, call.arguments.text⟩ } := by
  have stays : translator.closeOpenTool = translator := by simp [closeOpenTool, noTool]
  have started := Wire.accept_start phase current (.toolUse call.id call.name)
  by_cases empty : call.arguments.text = ""
  · simp [openToolBlock, stays, empty, emit, setCall, Wire.read_append_singleton, reads, place,
      started]
  · have said := @Wire.accept_delta { free with current := some ⟨.toolUse call.id call.name, ""⟩ }
      ⟨.toolUse call.id call.name, ""⟩ (.inputJson call.arguments.text) phase rfl rfl
    have frames : (translator.openToolBlock index call).yielded =
        translator.closeVisibleBlocks.yielded ++
          [.blockStart free.stopped.length (.toolUse call.id call.name)] ++
          [.blockDelta free.stopped.length (.inputJson call.arguments.text)] := by
      simp [openToolBlock, stays, empty, emit, setCall, place]
    rw [frames, Wire.read_append_singleton, Wire.read_append_singleton, reads]
    simp only [Option.bind_some, started, said]
    simp [BlockDelta.content]

theorem tracks_openToolBlock
    (tracks : Tracks received finalizing (.tool index :: rest) translator wire)
    (noTool : translator.openTool = none) (found : translator.toolCalls index = some call)
    (unopened : call.opened = false) :
    (∃ later, Tracks received finalizing rest (translator.openToolBlock index call) later) ∧
      SameRest translator (translator.openToolBlock index call) := by
  have stays : translator.closeOpenTool = translator := by simp [closeOpenTool, noTool]
  rcases quiet_closeVisibleBlocks tracks noTool with
    ⟨⟨free, tracksFree, current, thinking, text, tool⟩, sameCalls, -, sameRest⟩
  rcases tracksFree with ⟨reads, phase, -, place, delivered⟩
  rw [Wire.blocks_of_none current] at place delivered
  rw [sameCalls, tool] at delivered
  have unclosed := ((delivered.call index call found).waiting unopened).1
  have opens := delivered.openCall found unopened
  rw [← place] at opens
  refine ⟨⟨_, read_openToolBlock noTool reads phase current place, phase, ?_, ?_, ?_⟩, ?_⟩
  · refine .tool index { call with
      blockIndex := some translator.closeVisibleBlocks.nextIndex, opened := true } call.id call.name
      rfl ?_ ?_ ?_ ?_ rfl unclosed (by simp [place]) <;> unfold openToolBlock <;> rw [stays] <;>
      split_ifs <;> simp [emit, setCall, thinking, text]
  · unfold openToolBlock
    rw [stays]
    split_ifs <;> simp [emit, setCall, place, Wire.blocks]
  · have blocks : ({ free with
        current := some ⟨.toolUse call.id call.name, call.arguments.text⟩ } : Wire).blocks =
          free.stopped ++ [⟨.toolUse call.id call.name, call.arguments.text⟩] := rfl
    rw [blocks]
    unfold openToolBlock
    rw [stays]
    split_ifs <;> simpa [emit, setCall, sameCalls] using opens
  · refine sameRest.trans ?_
    unfold openToolBlock
    rw [stays]
    split_ifs <;> exact ⟨rfl, rfl, rfl, rfl, rfl, rfl, rfl⟩

end Tools

section Drain

variable {isJsonObject : String → Bool} {received : Received} {finalizing : Bool}
  {queue rest : List Pending} {translator : Translator} {wire : Wire} {index : ℤ} {call : Call}

theorem sameRest_emitThinking (content : String) :
    SameRest translator (translator.emitThinking content) := by
  unfold emitThinking
  split
  · exact ⟨rfl, rfl, rfl, rfl, rfl, rfl, rfl⟩
  · rcases sameRest_closeText translator with ⟨h1, h2, h3, h4, h5, h6, h7⟩
    exact ⟨h1, h2, h3, h4, h5, h6, h7⟩

theorem sameRest_emitText (content : String) :
    SameRest translator (translator.emitText content) := by
  unfold emitText
  split
  · exact ⟨rfl, rfl, rfl, rfl, rfl, rfl, rfl⟩
  · rcases sameRest_closeThinking translator with ⟨h1, h2, h3, h4, h5, h6, h7⟩
    exact ⟨h1, h2, h3, h4, h5, h6, h7⟩

/-- What is known of the translator once its queue has been drained as far as it goes. -/
structure Drained (received : Received) (finalizing : Bool) (before after : Translator) : Prop where
  tracks : ∃ wire, Tracks received finalizing after.pending after wire
  rest : SameRest before after
  all : finalizing = true → after.pending = []

theorem Drained.after {middle after : Translator} (same : SameRest translator middle)
    (drained : Drained received finalizing middle after) :
    Drained received finalizing translator after :=
  ⟨drained.tracks, same.trans drained.rest, drained.all⟩

theorem drained_stop (tracks : Tracks received finalizing queue translator wire)
    (all : finalizing = true → queue = []) :
    Drained received finalizing translator { translator with pending := queue } :=
  ⟨⟨wire, tracks_pending tracks queue⟩, ⟨rfl, rfl, rfl, rfl, rfl, rfl, rfl⟩, all⟩

theorem Tracks.waiting_ne_open (tracks : Tracks received finalizing queue translator wire)
    (found : translator.toolCalls index = some call) (unopened : call.opened = false) :
    translator.openTool ≠ some index := by
  intro tool
  rcases tracks.openCall tool with ⟨other, -, -, otherFound, opened, -⟩
  obtain rfl : call = other := Option.some.inj (found.symm.trans otherFound)
  rw [unopened] at opened
  cases opened

theorem Tracks.congrQueue {laterQueue : List Pending}
    (tracks : Tracks received finalizing queue translator wire)
    (delivered : Delivered received finalizing laterQueue translator.toolCalls
      translator.openTool wire.blocks) :
    Tracks received finalizing laterQueue translator wire :=
  ⟨tracks.read, tracks.phase, tracks.showing, tracks.nextIndex, delivered⟩

theorem drained_toolHead
    (later : ∀ {translator wire}, Tracks received finalizing rest translator wire →
      Drained received finalizing translator (drain isJsonObject finalizing rest translator))
    (tracks : Tracks received finalizing (.tool index :: rest) translator wire)
    (noTool : translator.openTool = none) (found : translator.toolCalls index = some call)
    (unopened : call.opened = false) :
    Drained received finalizing translator
      (if finalizing && !call.carriesData then drain isJsonObject finalizing rest translator
        else if finalizing then
          drain isJsonObject finalizing rest (translator.openToolBlock index call).closeOpenTool
        else if rest.isEmpty then { translator.openToolBlock index call with pending := [] }
        else if ((translator.openToolBlock index call).openToolComplete isJsonObject).1 then
          drain isJsonObject finalizing rest
            ((translator.openToolBlock index call).openToolComplete isJsonObject).2.closeOpenTool
        else
          { ((translator.openToolBlock index call).openToolComplete isJsonObject).2 with
            pending := rest }) := by
  rcases tracks_openToolBlock tracks noTool found unopened with ⟨⟨openWire, opened⟩, sameRest⟩
  split_ifs with drops ends alone complete
  · simp only [Bool.and_eq_true, Bool.not_eq_true'] at drops
    rcases drops with ⟨rfl, empty⟩
    exact later (tracks.congrQueue (tracks.delivered.skipEmpty found empty))
  · rcases tracks_closeOpenTool opened with ⟨closedWire, closed, -⟩
    exact (later closed).after (sameRest.trans (sameRest_closeOpenTool _))
  · obtain rfl : rest = [] := by simpa using alone
    exact (drained_stop opened (fun _ => rfl)).after sameRest
  · rcases tracks_openToolComplete isJsonObject opened with ⟨asked, -⟩
    rcases tracks_closeOpenTool asked with ⟨closedWire, closed, -⟩
    exact (later closed).after
      (sameRest.trans ((sameRest_openToolComplete _).trans (sameRest_closeOpenTool _)))
  · rcases tracks_openToolComplete isJsonObject opened with ⟨asked, -⟩
    exact (drained_stop asked (fun finalizing => absurd finalizing ends)).after
      (sameRest.trans (sameRest_openToolComplete _))

theorem drained_drain (isJsonObject : String → Bool)
    (tracks : Tracks received finalizing queue translator wire) :
    Drained received finalizing translator (drain isJsonObject finalizing queue translator) := by
  induction queue generalizing translator wire with
  | nil => exact drained_stop tracks (fun _ => rfl)
  | cons event rest later =>
    cases event with
    | tool index =>
      obtain ⟨call, found⟩ :=
        Option.isSome_iff_exists.mp (tracks.delivered.known index List.mem_cons_self)
      by_cases opened : (call.opened || call.closed) = true
      · have skips : drain isJsonObject finalizing (.tool index :: rest) translator =
            drain isJsonObject finalizing rest translator := by
          simp only [drain, found, opened, if_true]
        rw [skips]
        exact later (tracks.congrQueue (tracks.delivered.skipOpened found opened))
      · have unopened : call.opened = false := by
          simp only [Bool.or_eq_true, not_or, Bool.not_eq_true] at opened
          exact opened.1
        have other := tracks.waiting_ne_open found unopened
        rcases freeWire_cases isJsonObject tracks with
          ⟨free, blocked, freeWire_, frees, freed, noTool, sameRest, kept⟩ |
          ⟨blocked, blocks, ends, still, sameRest⟩
        · have heads := drained_toolHead later freed noTool ((kept index other).trans found)
            unopened
          simp only [drain, found, opened, frees, Bool.false_eq_true, if_false]
          exact heads.after sameRest
        · simp only [drain, found, opened, blocks, Bool.false_eq_true, if_false]
          exact (drained_stop still (fun finalizing => by simp [ends] at finalizing)).after sameRest
    | thinking content =>
      rcases freeWire_cases isJsonObject tracks with
        ⟨free, blocked, freeWire_, frees, freed, noTool, sameRest, -⟩ |
        ⟨blocked, blocks, ends, still, sameRest⟩
      · rcases tracks_emitThinking freed noTool with ⟨saidWire, said, -⟩
        simp only [drain, frees]
        exact (later said).after (sameRest.trans (sameRest_emitThinking content))
      · simp only [drain, blocks]
        exact (drained_stop still (fun finalizing => by simp [ends] at finalizing)).after sameRest
    | text content =>
      rcases freeWire_cases isJsonObject tracks with
        ⟨free, blocked, freeWire_, frees, freed, noTool, sameRest, -⟩ |
        ⟨blocked, blocks, ends, still, sameRest⟩
      · rcases tracks_emitText freed noTool with ⟨saidWire, said, -⟩
        simp only [drain, frees]
        exact (later said).after (sameRest.trans (sameRest_emitText content))
      · simp only [drain, blocks]
        exact (drained_stop still (fun finalizing => by simp [ends] at finalizing)).after sameRest

end Drain

end HybridInference.Anthropic
