import HybridInference.Anthropic.Wire
import HybridInference.Library.ListUpdate

/-!
# What has been received, what is queued and what is on the wire

At every moment the blocks on the wire together with the queue are what the
upstream has sent: texts and reasoning in order, and every call either waits in the
queue or has its one block, which holds its argument bytes.
-/

namespace HybridInference.Anthropic

open Translator Library

def Pending.textOf : Pending → String
  | .text content => content
  | .thinking _ | .tool _ => ""

def Pending.thinkingOf : Pending → String
  | .thinking content => content
  | .text _ | .tool _ => ""

def queuedText (queue : List Pending) : String := String.join (queue.map Pending.textOf)

def queuedThinking (queue : List Pending) : String := String.join (queue.map Pending.thinkingOf)

@[simp]
theorem queuedText_cons (event : Pending) (rest : List Pending) :
    queuedText (event :: rest) = event.textOf ++ queuedText rest := by
  simp [queuedText]

@[simp]
theorem queuedThinking_cons (event : Pending) (rest : List Pending) :
    queuedThinking (event :: rest) = event.thinkingOf ++ queuedThinking rest := by
  simp [queuedThinking]

@[simp]
theorem queuedText_append (first second : List Pending) :
    queuedText (first ++ second) = queuedText first ++ queuedText second := by
  simp [queuedText]

@[simp]
theorem queuedThinking_append (first second : List Pending) :
    queuedThinking (first ++ second) = queuedThinking first ++ queuedThinking second := by
  simp [queuedThinking]

@[simp]
theorem queuedText_nil : queuedText [] = "" := rfl

@[simp]
theorem queuedThinking_nil : queuedThinking [] = "" := rfl

/-- The block of an opened call. -/
def Call.block (call : Call) : Block :=
  ⟨.toolUse (inTime call.id call.late.id) (inTime call.name call.late.name), call.arguments.text⟩

/-- What is late of a call came late. -/
structure Call.LateKnown (call : Call) : Prop where
  id : call.late.id = "" ∨ call.late.id = call.id
  name : call.late.name = "" ∨ call.late.name = call.name
  blank : isBlank call.late.arguments = true
  unclosed : call.closed = false → call.late.arguments = ""

/-- A call waits in the queue, or it has its block with all that was received for it in time. -/
structure CallDelivered (received : Received) (finalizing : Bool) (queue : List Pending)
    (openTool : Option ℤ) (blocks : List Block) (index : ℤ) (call : Call) : Prop where
  waiting : call.opened = false → call.closed = false ∧ call.blockIndex = none ∧
    call.late = {} ∧ (Pending.tool index ∈ queue ∨ finalizing = true ∧ call.carriesData = false)
  placed : call.opened = true →
    ∃ place, call.blockIndex = some place ∧ blocks[place]? = some call.block
  live : call.opened = true → call.closed = false → openTool = some index
  parts : received.calls index = ⟨call.id, call.name, call.arguments.text ++ call.late.arguments⟩
  late : call.LateKnown

/-- What the frames written so far have delivered of what was received. -/
structure Delivered (received : Received) (finalizing : Bool) (queue : List Pending)
    (calls : ℤ → Option Call) (openTool : Option ℤ) (blocks : List Block) : Prop where
  known : ∀ index, Pending.tool index ∈ queue → (calls index).isSome = true
  unknown : ∀ index, calls index = none → received.calls index = {}
  call : ∀ index call, calls index = some call →
    CallDelivered received finalizing queue openTool blocks index call
  apart : ∀ index other call otherCall place, calls index = some call →
    calls other = some otherCall → call.blockIndex = some place →
    otherCall.blockIndex = some place → index = other
  owner : ∀ place block, blocks[place]? = some block → block.isToolUse = true →
    ∃ index call, calls index = some call ∧ call.blockIndex = some place
  text : textOf blocks ++ queuedText queue = received.text
  thinking : thinkingOf blocks ++ queuedThinking queue = received.thinking

section Blocks

variable {received : Received} {finalizing : Bool} {queue : List Pending}
  {calls : ℤ → Option Call} {openTool : Option ℤ} {blocks : List Block}

theorem Delivered.rewire {laterQueue : List Pending} {later : List Block}
    (delivered : Delivered received finalizing queue calls openTool blocks)
    (tools : ∀ (place : ℕ) (block : Block), block.isToolUse = true →
      (later[place]? = some block ↔ blocks[place]? = some block))
    (markers : ∀ index, Pending.tool index ∈ laterQueue ↔ Pending.tool index ∈ queue)
    (text : textOf later ++ queuedText laterQueue = textOf blocks ++ queuedText queue)
    (thinking : thinkingOf later ++ queuedThinking laterQueue =
      thinkingOf blocks ++ queuedThinking queue) :
    Delivered received finalizing laterQueue calls openTool later where
  known := fun index marked => delivered.known index ((markers index).mp marked)
  unknown := delivered.unknown
  call := by
    intro index call found
    rcases delivered.call index call found with ⟨waiting, placed, live, parts, late⟩
    refine ⟨?_, ?_, live, parts, late⟩
    · intro unopened
      rw [markers index]
      exact waiting unopened
    · intro opened
      rcases placed opened with ⟨place, atPlace, block⟩
      exact ⟨place, atPlace, (tools place _ rfl).mpr block⟩
  apart := delivered.apart
  owner := fun place block found tool =>
    delivered.owner place block ((tools place block tool).mp found) tool
  text := text.trans delivered.text
  thinking := thinking.trans delivered.thinking

variable {init : List Block}

theorem tool_concat_iff {first second block : Block} {place : ℕ}
    (firstNot : first.isToolUse = false) (secondNot : second.isToolUse = false)
    (tool : block.isToolUse = true) :
    (init ++ [second])[place]? = some block ↔ (init ++ [first])[place]? = some block := by
  constructor
  · intro found
    rcases getElem?_concat_cases found with earlier | ⟨-, rfl⟩
    · exact getElem?_concat_of_some earlier
    · rw [secondNot] at tool
      cases tool
  · intro found
    rcases getElem?_concat_cases found with earlier | ⟨-, rfl⟩
    · exact getElem?_concat_of_some earlier
    · rw [firstNot] at tool
      cases tool

theorem tool_append_iff {last block : Block} {place : ℕ}
    (lastNot : last.isToolUse = false) (tool : block.isToolUse = true) :
    (init ++ [last])[place]? = some block ↔ init[place]? = some block := by
  constructor
  · intro found
    rcases getElem?_concat_cases found with earlier | ⟨-, rfl⟩
    · exact earlier
    · rw [lastNot] at tool
      cases tool
  · exact getElem?_concat_of_some

theorem Delivered.startThinking
    (delivered : Delivered received finalizing queue calls openTool blocks) :
    Delivered received finalizing queue calls openTool (blocks ++ [⟨.thinking, ""⟩]) :=
  delivered.rewire (fun _ _ tool => tool_append_iff rfl tool) (fun _ => Iff.rfl)
    (by simp [Block.textOf]) (by simp [Block.thinkingOf])

theorem Delivered.startText
    (delivered : Delivered received finalizing queue calls openTool blocks) :
    Delivered received finalizing queue calls openTool (blocks ++ [⟨.text, ""⟩]) :=
  delivered.rewire (fun _ _ tool => tool_append_iff rfl tool) (fun _ => Iff.rfl)
    (by simp [Block.textOf]) (by simp [Block.thinkingOf])

variable {before content : String}

theorem Delivered.think {rest : List Pending}
    (delivered : Delivered received finalizing (.thinking content :: rest) calls openTool
      (init ++ [⟨.thinking, before⟩])) :
    Delivered received finalizing rest calls openTool
      (init ++ [⟨.thinking, before ++ content⟩]) := by
  apply delivered.rewire
  · intro place block tool
    exact tool_concat_iff rfl rfl tool
  · simp
  · simp [Block.textOf, Pending.textOf]
  · simp [Block.thinkingOf, Pending.thinkingOf, String.append_assoc]

theorem Delivered.speak {rest : List Pending}
    (delivered : Delivered received finalizing (.text content :: rest) calls openTool
      (init ++ [⟨.text, before⟩])) :
    Delivered received finalizing rest calls openTool (init ++ [⟨.text, before ++ content⟩]) := by
  apply delivered.rewire
  · intro place block tool
    exact tool_concat_iff rfl rfl tool
  · simp
  · simp [Block.textOf, Pending.textOf, String.append_assoc]
  · simp [Block.thinkingOf, Pending.thinkingOf]

end Blocks

section Calls

variable {received : Received} {finalizing : Bool} {queue rest : List Pending}
  {calls : ℤ → Option Call} {openTool : Option ℤ} {blocks : List Block} {index : ℤ} {call : Call}

variable {laterOpen : Option ℤ}

theorem CallDelivered.congr {laterQueue : List Pending} {later : List Block}
    (delivered : CallDelivered received finalizing queue openTool blocks index call)
    (marker : Pending.tool index ∈ queue → Pending.tool index ∈ laterQueue)
    (kept : ∀ place block, block.isToolUse = true → blocks[place]? = some block →
      call.blockIndex = some place → later[place]? = some block)
    (live : call.opened = true → call.closed = false → openTool = some index →
      laterOpen = some index) :
    CallDelivered received finalizing laterQueue laterOpen later index call := by
  rcases delivered with ⟨waiting, placed, wasLive, parts, late⟩
  refine ⟨?_, ?_, fun opened unclosed => live opened unclosed (wasLive opened unclosed),
    parts, late⟩
  · intro unopened
    rcases waiting unopened with ⟨unclosed, unplaced, noLate, marked | dropped⟩
    · exact ⟨unclosed, unplaced, noLate, Or.inl (marker marked)⟩
    · exact ⟨unclosed, unplaced, noLate, Or.inr dropped⟩
  · intro opened
    rcases placed opened with ⟨place, atPlace, block⟩
    exact ⟨place, atPlace, kept place _ rfl block atPlace⟩

section

variable (delivered : Delivered received finalizing (.tool index :: rest) calls openTool blocks)
  (found : calls index = some call)

include delivered found

theorem Delivered.skip (waits : call.opened = false → call.closed = false →
      finalizing = true ∧ call.carriesData = false) :
    Delivered received finalizing rest calls openTool blocks where
  known := fun other marked => delivered.known other (List.mem_cons_of_mem _ marked)
  unknown := delivered.unknown
  call := by
    intro other otherCall otherFound
    have before := delivered.call other otherCall otherFound
    by_cases same : other = index
    · subst same
      obtain rfl : call = otherCall := Option.some.inj (found.symm.trans otherFound)
      refine ⟨?_, before.placed, before.live, before.parts, before.late⟩
      intro unopened
      rcases before.waiting unopened with ⟨unclosed, unplaced, noLate, -⟩
      exact ⟨unclosed, unplaced, noLate, Or.inr (waits unopened unclosed)⟩
    · apply before.congr
      · intro marked
        simpa [same] using marked
      · intro place block _ atPlace _
        exact atPlace
      · intro _ _ live
        exact live
  apart := delivered.apart
  owner := delivered.owner
  text := by simpa [Pending.textOf] using delivered.text
  thinking := by simpa [Pending.thinkingOf] using delivered.thinking

theorem Delivered.skipOpened (opened : (call.opened || call.closed) = true) :
    Delivered received finalizing rest calls openTool blocks :=
  delivered.skip found fun unopened unclosed => by simp [unopened, unclosed] at opened

end

theorem Delivered.skipEmpty
    (delivered : Delivered received true (.tool index :: rest) calls openTool blocks)
    (found : calls index = some call) (empty : call.carriesData = false) :
    Delivered received true rest calls openTool blocks :=
  delivered.skip found fun _ _ => ⟨rfl, empty⟩

theorem Delivered.update {later : Call} {laterReceived : Received} {laterBlocks : List Block}
    (delivered : Delivered received finalizing queue calls openTool blocks)
    (found : calls index = some call) (place : later.blockIndex = call.blockIndex)
    (tracked : CallDelivered laterReceived finalizing queue laterOpen laterBlocks index later)
    (others : ∀ other, other ≠ index → openTool = some other → laterOpen = some other)
    (same : ∀ other, other ≠ index → laterReceived.calls other = received.calls other)
    (kept : ∀ (place : ℕ) (block : Block), call.blockIndex ≠ some place →
      block.isToolUse = true → blocks[place]? = some block → laterBlocks[place]? = some block)
    (before : ∀ (place : ℕ) (block : Block), laterBlocks[place]? = some block →
      block.isToolUse = true → ∃ earlier : Block, blocks[place]? = some earlier ∧
        earlier.isToolUse = true)
    (text : textOf laterBlocks = textOf blocks ∧ laterReceived.text = received.text)
    (thinking : thinkingOf laterBlocks = thinkingOf blocks ∧
      laterReceived.thinking = received.thinking) :
    Delivered laterReceived finalizing queue (Function.update calls index (some later)) laterOpen
      laterBlocks where
  known := by
    intro other marked
    by_cases same : other = index
    · simp [same]
    · simpa [same] using delivered.known other marked
  unknown := by
    intro other missing
    by_cases here : other = index
    · simp [here] at missing
    · simp only [Function.update_of_ne here] at missing
      rw [same other here]
      exact delivered.unknown other missing
  call := by
    intro other otherCall otherFound
    by_cases here : other = index
    · subst here
      simp only [Function.update_self, Option.some.injEq] at otherFound
      exact otherFound ▸ tracked
    · simp only [Function.update_of_ne here] at otherFound
      have moved :
          CallDelivered received finalizing queue laterOpen laterBlocks other otherCall := by
        apply (delivered.call other otherCall otherFound).congr
        · exact id
        · intro at_ block tool atPlace owns
          refine kept at_ block ?_ tool atPlace
          intro alsoHere
          exact here (delivered.apart other index otherCall call at_ otherFound found owns alsoHere)
        · intro _ _ live
          exact others other here live
      exact ⟨moved.waiting, moved.placed, moved.live, (same other here).trans moved.parts,
        moved.late⟩
  apart := by
    intro first second firstCall secondCall at_ firstFound secondFound firstAt secondAt
    have was (other : ℤ) (otherCall : Call)
        (otherFound : Function.update calls index (some later) other = some otherCall) :
        ∃ earlier, calls other = some earlier ∧ earlier.blockIndex = otherCall.blockIndex := by
      by_cases same : other = index
      · subst same
        simp only [Function.update_self, Option.some.injEq] at otherFound
        exact ⟨call, found, otherFound ▸ place.symm⟩
      · simp only [Function.update_of_ne same] at otherFound
        exact ⟨otherCall, otherFound, rfl⟩
    rcases was first firstCall firstFound with ⟨firstEarlier, firstWas, firstSame⟩
    rcases was second secondCall secondFound with ⟨secondEarlier, secondWas, secondSame⟩
    exact delivered.apart first second firstEarlier secondEarlier at_ firstWas secondWas
      (firstSame.trans firstAt) (secondSame.trans secondAt)
  owner := by
    intro at_ block atPlace tool
    rcases before at_ block atPlace tool with ⟨earlier, wasAt, wasTool⟩
    rcases delivered.owner at_ earlier wasAt wasTool with ⟨other, otherCall, otherFound, owns⟩
    by_cases same : other = index
    · subst same
      obtain rfl : call = otherCall := Option.some.inj (found.symm.trans otherFound)
      exact ⟨other, later, by simp, place.trans owns⟩
    · exact ⟨other, otherCall, by simpa [same] using otherFound, owns⟩
  text := by
    rw [text.1, text.2]
    exact delivered.text
  thinking := by
    rw [thinking.1, thinking.2]
    exact delivered.thinking

theorem Delivered.setCall {later : Call}
    (delivered : Delivered received finalizing queue calls openTool blocks)
    (found : calls index = some call) (place : later.blockIndex = call.blockIndex)
    (tracked : CallDelivered received finalizing queue laterOpen blocks index later)
    (others : ∀ other, other ≠ index → openTool = some other → laterOpen = some other) :
    Delivered received finalizing queue (Function.update calls index (some later)) laterOpen
      blocks :=
  delivered.update found place tracked others (fun _ _ => rfl) (fun _ _ _ _ atPlace => atPlace)
    (fun _ block atPlace tool => ⟨block, atPlace, tool⟩)
    ⟨rfl, rfl⟩ ⟨rfl, rfl⟩

theorem Delivered.closeTool
    (delivered : Delivered received finalizing queue calls (some index) blocks)
    (found : calls index = some call) (opened : call.opened = true) :
    Delivered received finalizing queue
      (Function.update calls index (some { call with closed := true })) none blocks := by
  have before := delivered.call index call found
  refine delivered.setCall found rfl ?_ ?_
  · refine ⟨?_, before.placed, ?_, before.parts,
      ⟨before.late.id, before.late.name, before.late.blank, by simp⟩⟩
    · intro unopened
      simp [opened] at unopened
    · intro _ unclosed
      cases unclosed
  · intro other different live
    exact absurd (Option.some.inj live).symm different

theorem Delivered.keepAnswer {arguments : ToolArguments}
    (delivered : Delivered received finalizing queue calls openTool blocks)
    (found : calls index = some call) (text : arguments.text = call.arguments.text) :
    Delivered received finalizing queue
      (Function.update calls index (some { call with arguments })) openTool blocks := by
  rcases delivered.call index call found with ⟨waiting, placed, live, parts, late⟩
  refine delivered.setCall found rfl ?_ ?_
  · refine ⟨?_, ?_, live, ?_, ⟨late.id, late.name, late.blank, late.unclosed⟩⟩
    · simpa [Call.carriesData, text] using waiting
    · simpa [Call.block, text] using placed
    · simpa [text] using parts
  · intro _ _ live
    exact live

theorem Delivered.openCall
    (delivered : Delivered received finalizing (.tool index :: rest) calls none blocks)
    (found : calls index = some call) (unopened : call.opened = false) :
    Delivered received finalizing rest (Function.update calls index
        (some { call with blockIndex := some blocks.length, opened := true }))
      (some index) (blocks ++ [⟨.toolUse call.id call.name, call.arguments.text⟩]) := by
  have before := delivered.call index call found
  have inside (place : ℕ) (block : Block) (atPlace : blocks[place]? = some block) :
      place < blocks.length := (List.getElem?_eq_some_iff.mp atPlace).1
  have placedInside (other : ℤ) (otherCall : Call) (otherFound : calls other = some otherCall)
      (place : ℕ) (atPlace : otherCall.blockIndex = some place) : place < blocks.length := by
    have tracked := delivered.call other otherCall otherFound
    cases opened : otherCall.opened with
    | false =>
      rw [(tracked.waiting opened).2.1] at atPlace
      cases atPlace
    | true =>
      rcases tracked.placed opened with ⟨found, foundAt, block⟩
      obtain rfl : found = place := Option.some.inj (foundAt.symm.trans atPlace)
      exact inside found _ block
  refine ⟨?_, ?_, ?_, ?_, ?_, ?_, ?_⟩
  · intro other marked
    by_cases same : other = index
    · simp [same]
    · simpa [same] using delivered.known other (List.mem_cons_of_mem _ marked)
  · intro other missing
    by_cases same : other = index
    · simp [same] at missing
    · simp only [Function.update_of_ne same] at missing
      exact delivered.unknown other missing
  · intro other otherCall otherFound
    by_cases same : other = index
    · subst same
      simp only [Function.update_self, Option.some.injEq] at otherFound
      subst otherFound
      rcases before.waiting unopened with ⟨-, -, noLate, -⟩
      refine ⟨by simp, ?_, by simp, before.parts,
        ⟨before.late.id, before.late.name, before.late.blank, before.late.unclosed⟩⟩
      intro _
      exact ⟨blocks.length, rfl, by simp [Call.block, inTime, noLate]⟩
    · simp only [Function.update_of_ne same] at otherFound
      apply (delivered.call other otherCall otherFound).congr
      · intro marked
        simpa [same] using marked
      · intro place block _ atPlace _
        exact getElem?_concat_of_some atPlace
      · intro _ _ live
        cases live
  · intro first second firstCall secondCall place firstFound secondFound firstAt secondAt
    by_cases firstSame : first = index <;> by_cases secondSame : second = index
    · exact firstSame.trans secondSame.symm
    · subst firstSame
      simp only [Function.update_self, Option.some.injEq] at firstFound
      simp only [Function.update_of_ne secondSame] at secondFound
      subst firstFound
      have earlier := placedInside second secondCall secondFound place secondAt
      have here : blocks.length = place := Option.some.inj firstAt
      omega
    · subst secondSame
      simp only [Function.update_self, Option.some.injEq] at secondFound
      simp only [Function.update_of_ne firstSame] at firstFound
      subst secondFound
      have earlier := placedInside first firstCall firstFound place firstAt
      have here : blocks.length = place := Option.some.inj secondAt
      omega
    · simp only [Function.update_of_ne firstSame] at firstFound
      simp only [Function.update_of_ne secondSame] at secondFound
      exact delivered.apart first second firstCall secondCall place firstFound secondFound firstAt
        secondAt
  · intro place block atPlace tool
    rcases getElem?_concat_cases atPlace with earlier | ⟨rfl, rfl⟩
    · rcases delivered.owner place block earlier tool with ⟨other, otherCall, otherFound, owns⟩
      have different : other ≠ index := by
        rintro rfl
        obtain rfl : call = otherCall := Option.some.inj (found.symm.trans otherFound)
        rw [(before.waiting unopened).2.1] at owns
        cases owns
      exact ⟨other, otherCall, by simpa [different] using otherFound, owns⟩
    · exact ⟨index, _, Function.update_self .., rfl⟩
  · simpa [Pending.textOf, Block.textOf] using delivered.text
  · simpa [Pending.thinkingOf, Block.thinkingOf] using delivered.thinking

end Calls

section Arrivals

variable {received : Received} {finalizing : Bool} {queue : List Pending}
  {calls : ℤ → Option Call} {openTool : Option ℤ} {blocks : List Block} {index : ℤ} {call : Call}

section

variable (delivered : Delivered received finalizing queue calls openTool blocks)

include delivered

theorem Delivered.enqueueThinking (content : String) :
    Delivered (received.add (.thinking content)) finalizing (queue ++ [.thinking content]) calls
      openTool blocks := by
  have marks (index : ℤ) : Pending.tool index ∈ queue ++ [.thinking content] ↔
      Pending.tool index ∈ queue := by simp
  refine ⟨?_, delivered.unknown, ?_, delivered.apart, delivered.owner, ?_, ?_⟩
  · intro index marked
    exact delivered.known index ((marks index).mp marked)
  · intro index call found
    rcases delivered.call index call found with ⟨waiting, placed, live, parts, late⟩
    refine ⟨?_, placed, live, parts, late⟩
    rw [marks index]
    exact waiting
  · simpa [Received.add, Pending.textOf] using delivered.text
  · simp [Received.add, Pending.thinkingOf, ← delivered.thinking, String.append_assoc]

theorem Delivered.enqueueText (content : String) :
    Delivered (received.add (.text content)) finalizing (queue ++ [.text content]) calls
      openTool blocks := by
  have marks (index : ℤ) : Pending.tool index ∈ queue ++ [.text content] ↔
      Pending.tool index ∈ queue := by simp
  refine ⟨?_, delivered.unknown, ?_, delivered.apart, delivered.owner, ?_, ?_⟩
  · intro index marked
    exact delivered.known index ((marks index).mp marked)
  · intro index call found
    rcases delivered.call index call found with ⟨waiting, placed, live, parts, late⟩
    refine ⟨?_, placed, live, parts, late⟩
    rw [marks index]
    exact waiting
  · simp [Received.add, Pending.textOf, ← delivered.text, String.append_assoc]
  · simpa [Received.add, Pending.thinkingOf] using delivered.thinking

theorem Delivered.register (missing : calls index = none) :
    Delivered received finalizing (queue ++ [.tool index])
      (Function.update calls index (some {})) openTool blocks := by
  have nothing := delivered.unknown index missing
  have before {other : ℤ} {otherCall : Call}
      (otherFound : Function.update calls index (some {}) other = some otherCall) :
      other = index ∧ otherCall = {} ∨ other ≠ index ∧ calls other = some otherCall := by
    by_cases same : other = index
    · subst same
      simp only [Function.update_self, Option.some.injEq] at otherFound
      exact Or.inl ⟨rfl, otherFound.symm⟩
    · simp only [Function.update_of_ne same] at otherFound
      exact Or.inr ⟨same, otherFound⟩
  refine ⟨?_, ?_, ?_, ?_, ?_, ?_, ?_⟩
  · intro other marked
    by_cases same : other = index
    · simp [same]
    · have marked : Pending.tool other ∈ queue := by simpa [same] using marked
      simpa [same] using delivered.known other marked
  · intro other otherMissing
    by_cases same : other = index
    · simp [same] at otherMissing
    · simp only [Function.update_of_ne same] at otherMissing
      exact delivered.unknown other otherMissing
  · intro other otherCall otherFound
    rcases before otherFound with ⟨rfl, rfl⟩ | ⟨-, otherFound⟩
    · refine ⟨?_, by simp, by simp, by simp [nothing], ⟨Or.inl rfl, Or.inl rfl, rfl, by simp⟩⟩
      intro _
      exact ⟨rfl, rfl, rfl, Or.inl (by simp)⟩
    · apply (delivered.call other otherCall otherFound).congr
      · intro marked
        exact List.mem_append_left _ marked
      · intro place block _ atPlace _
        exact atPlace
      · intro _ _ live
        exact live
  · intro first second firstCall secondCall place firstFound secondFound firstAt secondAt
    rcases before firstFound with ⟨rfl, rfl⟩ | ⟨-, firstFound⟩
    · cases firstAt
    · rcases before secondFound with ⟨rfl, rfl⟩ | ⟨-, secondFound⟩
      · cases secondAt
      · exact delivered.apart first second firstCall secondCall place firstFound secondFound
          firstAt secondAt
  · intro place block atPlace tool
    rcases delivered.owner place block atPlace tool with ⟨other, otherCall, otherFound, owns⟩
    have different : other ≠ index := by
      rintro rfl
      rw [missing] at otherFound
      cases otherFound
    exact ⟨other, otherCall, by simpa [different] using otherFound, owns⟩
  · simpa [Pending.textOf] using delivered.text
  · simpa [Pending.thinkingOf] using delivered.thinking

end

theorem Delivered.end (delivered : Delivered received false queue calls openTool blocks) :
    Delivered received true queue calls openTool blocks := by
  refine ⟨delivered.known, delivered.unknown, ?_, delivered.apart, delivered.owner,
    delivered.text, delivered.thinking⟩
  intro index call found
  rcases delivered.call index call found with ⟨waiting, placed, live, parts, late⟩
  refine ⟨?_, placed, live, parts, late⟩
  intro unopened
  rcases waiting unopened with ⟨unclosed, unplaced, noLate, marked | ⟨ends, -⟩⟩
  · exact ⟨unclosed, unplaced, noLate, Or.inl marked⟩
  · cases ends

/-- A call for which anything was received carries data, or its block has started. -/
theorem CallDelivered.carried
    (delivered : CallDelivered received finalizing queue openTool blocks index call)
    (carried : (received.calls index).carried = true) :
    call.carriesData = true ∨ call.opened = true := by
  cases opened : call.opened with
  | true => exact Or.inr rfl
  | false =>
    left
    rw [delivered.parts, delivered.late.unclosed (delivered.waiting opened).1] at carried
    simpa [CallParts.carried, Call.carriesData] using carried

theorem Delivered.lossless (delivered : Delivered received true [] calls openTool blocks) :
    Lossless received (fun index => ((calls index).map Call.late).getD {}) blocks := by
  have placed {index : ℤ} {call : Call} (found : calls index = some call) (place : ℕ)
      (atPlace : call.blockIndex = some place) : call.opened = true := by
    cases opened : call.opened with
    | true => rfl
    | false =>
      rw [((delivered.call index call found).waiting opened).2.1] at atPlace
      cases atPlace
  refine ⟨by simpa using delivered.text, by simpa using delivered.thinking,
    fun index => (calls index).bind Call.blockIndex, ?_, ?_, ?_, ?_⟩
  · intro index carried
    cases found : calls index with
    | none =>
      rw [delivered.unknown index found] at carried
      cases carried
    | some call =>
      have tracked := delivered.call index call found
      have opened : call.opened = true := by
        rcases tracked.carried carried with data | opened
        · by_contra unopened
          rw [Bool.not_eq_true] at unopened
          rcases tracked.waiting unopened with ⟨-, -, -, marked | ⟨-, empty⟩⟩
          · cases marked
          · rw [data] at empty
            cases empty
        · exact opened
      rcases tracked.placed opened with ⟨place, atPlace, -⟩
      simp [found, atPlace]
  · intro index place atPlace
    rcases Option.bind_eq_some_iff.mp atPlace with ⟨call, found, atPlace⟩
    have tracked := delivered.call index call found
    rcases tracked.placed (placed found place atPlace) with ⟨other, same, block⟩
    obtain rfl : other = place := Option.some.inj (same.symm.trans atPlace)
    refine ⟨call.block, block, ?_⟩
    rw [tracked.parts, found]
    exact ⟨rfl, rfl, tracked.late.id, tracked.late.name, tracked.late.blank⟩
  · intro index other place indexAt otherAt
    rcases Option.bind_eq_some_iff.mp indexAt with ⟨call, found, callAt⟩
    rcases Option.bind_eq_some_iff.mp otherAt with ⟨otherCall, otherFound, otherCallAt⟩
    exact delivered.apart index other call otherCall place found otherFound callAt otherCallAt
  · intro place block atPlace tool
    rcases delivered.owner place block atPlace tool with ⟨index, call, found, owns⟩
    exact ⟨index, by simp [found, owns]⟩

end Arrivals

end HybridInference.Anthropic
