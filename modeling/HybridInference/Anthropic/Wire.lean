import HybridInference.Anthropic.StreamTranslator

/-!
# What a client reads off the wire

A reader of an Anthropic stream: it takes the frames one after another, refuses a
frame that is out of place, and collects the content blocks. A stream is well
formed when the reader has accepted all of it and the message has ended.
-/

namespace HybridInference.Anthropic

structure Block where
  kind : BlockKind
  content : String
  deriving DecidableEq

inductive Phase where
  | before
  | content
  | ending (stopReason : String) (usage : AnthropicUsage)
  | ended (stopReason : String) (usage : AnthropicUsage)
  deriving DecidableEq

structure Wire where
  phase : Phase := .before
  stopped : List Block := []
  current : Option Block := none
  deriving DecidableEq

namespace BlockDelta

def fits : BlockDelta → BlockKind → Bool
  | .thinking _, .thinking => true
  | .text _, .text => true
  | .inputJson _, .toolUse _ _ => true
  | _, _ => false

def content : BlockDelta → String
  | .thinking content => content
  | .text content => content
  | .inputJson partialJson => partialJson

end BlockDelta

namespace Wire

def blocks (wire : Wire) : List Block := wire.stopped ++ wire.current.toList

def accept (wire : Wire) : Frame → Option Wire
  | .keepalive => some wire
  | .messageStart _ =>
    if wire.phase = .before then some { wire with phase := .content } else none
  | .blockStart index kind =>
    if wire.phase = .content ∧ wire.current = none ∧ index = wire.stopped.length then
      some { wire with current := some ⟨kind, ""⟩ }
    else none
  | .blockDelta index delta =>
    match wire.current with
    | some block =>
      if wire.phase = .content ∧ index = wire.stopped.length ∧ delta.fits block.kind = true then
        some { wire with
          current := some { block with content := block.content ++ delta.content } }
      else none
    | none => none
  | .blockStop index =>
    match wire.current with
    | some block =>
      if wire.phase = .content ∧ index = wire.stopped.length then
        some { wire with stopped := wire.stopped ++ [block], current := none }
      else none
    | none => none
  | .messageDelta stopReason usage =>
    if wire.phase = .content ∧ wire.current = none then
      some { wire with phase := .ending stopReason usage }
    else none
  | .messageStop =>
    match wire.phase with
    | .ending stopReason usage => some { wire with phase := .ended stopReason usage }
    | _ => none

def read (frames : List Frame) : Option Wire :=
  frames.foldlM accept {}

theorem read_append_singleton (frames : List Frame) (frame : Frame) :
    read (frames ++ [frame]) = (read frames).bind fun wire => wire.accept frame := by
  simp [read, List.foldlM_append]

end Wire

structure Message where
  blocks : List Block
  stopReason : String
  usage : AnthropicUsage
  deriving DecidableEq

def readMessage (frames : List Frame) : Option Message :=
  match Wire.read frames with
  | some ⟨.ended stopReason usage, stopped, none⟩ => some ⟨stopped, stopReason, usage⟩
  | _ => none

def Block.textOf (block : Block) : String :=
  match block.kind with
  | .text => block.content
  | .thinking | .toolUse _ _ => ""

def Block.thinkingOf (block : Block) : String :=
  match block.kind with
  | .thinking => block.content
  | .text | .toolUse _ _ => ""

def Block.isToolUse (block : Block) : Bool :=
  match block.kind with
  | .toolUse _ _ => true
  | .text | .thinking => false

def textOf (blocks : List Block) : String := String.join (blocks.map Block.textOf)

def thinkingOf (blocks : List Block) : String := String.join (blocks.map Block.thinkingOf)

@[simp]
theorem textOf_append (first second : List Block) :
    textOf (first ++ second) = textOf first ++ textOf second := by
  simp [textOf]

@[simp]
theorem thinkingOf_append (first second : List Block) :
    thinkingOf (first ++ second) = thinkingOf first ++ thinkingOf second := by
  simp [thinkingOf]

@[simp]
theorem textOf_singleton (block : Block) : textOf [block] = block.textOf := by
  simp [textOf]

@[simp]
theorem thinkingOf_singleton (block : Block) : thinkingOf [block] = block.thinkingOf := by
  simp [thinkingOf]

inductive Part where
  | thinking (content : String)
  | text (content : String)
  | call (index : ℤ) (parts : CallParts)

namespace CallParts

def add (parts more : CallParts) : CallParts where
  id := firstText parts.id more.id
  name := firstText parts.name more.name
  arguments := parts.arguments ++ more.arguments

/-- The call carried an id, a name or argument bytes. -/
def carried (parts : CallParts) : Bool :=
  parts.id ≠ "" || parts.name ≠ "" || parts.arguments ≠ ""

end CallParts

structure Received where
  text : String := ""
  thinking : String := ""
  calls : ℤ → CallParts := fun _ => {}

def Received.add (received : Received) : Part → Received
  | .thinking content => { received with thinking := received.thinking ++ content }
  | .text content => { received with text := received.text ++ content }
  | .call index parts =>
    { received with
      calls := Function.update received.calls index ((received.calls index).add parts) }

def ToolCallDelta.callIndex (delta : ToolCallDelta) : ℤ :=
  match delta.index with
  | .int index => index
  | .missing | .other => 0

def ToolCallDelta.part (delta : ToolCallDelta) : Part :=
  .call delta.callIndex ⟨delta.id.getD "", delta.name.getD "",
    (Translator.normalizePartialArguments delta).getD ""⟩

def ChunkDelta.parts (delta : ChunkDelta) : List Part :=
  .thinking (Translator.reasoningOf delta) :: .text (delta.content.getD "") ::
    delta.toolCalls.map ToolCallDelta.part

def Chunk.parts (chunk : Chunk) : List Part :=
  match chunk.choice with
  | some choice => choice.delta.parts
  | none => []

def receivedFrom (received : Received) (chunks : List Chunk) : Received :=
  (chunks.flatMap Chunk.parts).foldl Received.add received

/-- The text that was received, unless it came too late. -/
def inTime (received late : String) : String := if late = "" then received else ""

/-- The block of a tool call has the id and the name received for it, those that came after its
start aside, and its content is all the arguments received for it, the blanks that came after its
stop aside. -/
structure HoldsCall (received late : CallParts) (block : Block) : Prop where
  kind : block.kind = .toolUse (inTime received.id late.id) (inTime received.name late.name)
  arguments : block.content ++ late.arguments = received.arguments
  lateId : late.id = "" ∨ late.id = received.id
  lateName : late.name = "" ∨ late.name = received.name
  blank : Translator.isBlank late.arguments = true

/-- The blocks are all that was received, in order: the texts, the reasoning, and one tool call for
each index that carried anything. -/
structure Lossless (received : Received) (late : ℤ → CallParts) (blocks : List Block) : Prop where
  text : textOf blocks = received.text
  thinking : thinkingOf blocks = received.thinking
  calls : ∃ position : ℤ → Option ℕ,
    (∀ index, (received.calls index).carried = true → (position index).isSome = true) ∧
    (∀ index place, position index = some place → ∃ block, blocks[place]? = some block ∧
      HoldsCall (received.calls index) (late index) block) ∧
    (∀ index other place, position index = some place → position other = some place →
      index = other) ∧
    ∀ place block, blocks[place]? = some block → block.isToolUse = true →
      ∃ index, position index = some place

end HybridInference.Anthropic
