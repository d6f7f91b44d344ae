import HybridInference.Anthropic.Handling

/-!
# A stream is translated without loss

The chunks of a stream are handled one after another, whatever pieces their bytes
come in; what is on the wire at the end is a well-formed message that holds all that
the chunks brought.
-/

namespace HybridInference.Anthropic

open Translator Library

section Chunks

variable {isJsonObject : String → Bool} {received : Received} {translator next : Translator}

/-- The translator while the stream is fed: in the middle of the message, or before it. -/
structure Running (received : Received) (translator : Translator) : Prop where
  closed : translator.closed = false
  aborted : translator.aborted = false
  state : translator.started = true ∧ Held received translator ∨
    translator.started = false ∧ received = {} ∧
      { translator with usage := ⟨0, 0, none, none⟩, upstreamUsage := none, buffer := [],
                        finishReason := none } =
        ({ usage := ⟨0, 0, none, none⟩ } : Translator)

theorem delivered_nothing : Delivered {} false [] (fun _ => none) none [] where
  known := by simp
  unknown := fun _ _ => rfl
  call := by simp
  apart := by simp
  owner := by simp
  text := rfl
  thinking := rfl

section

variable (running : Running received translator)

include running

theorem Running.start : Held received
        (if translator.started then translator else translator.emitMessageStart) ∧
      (if translator.started then translator else translator.emitMessageStart).started = true ∧
      (if translator.started then translator else translator.emitMessageStart).closed = false ∧
      (if translator.started then translator else translator.emitMessageStart).aborted = false := by
  rcases running with ⟨closed, aborted, ⟨started, held⟩ | ⟨unstarted, rfl, untouched⟩⟩
  · simp only [started, if_true]
    exact ⟨held, trivial, closed, aborted⟩
  · simp only [Translator.mk.injEq] at untouched
    rcases untouched with
      ⟨-, -, -, thinking, text, pending, calls, tool, nextIndex, -, -, -, -, yielded⟩
    simp only [unstarted, Bool.false_eq_true, if_false]
    refine ⟨⟨{ phase := .content }, ?_, rfl, .nothing rfl thinking text tool, ?_, ?_⟩, rfl, closed,
      aborted⟩
    · simp [emitMessageStart, emit, yielded, Wire.read, Wire.accept]
    · simpa [emitMessageStart, emit, Wire.blocks] using nextIndex
    · simpa [emitMessageStart, emit, Wire.blocks, pending, calls, tool] using delivered_nothing

theorem running_handleChoice {choice : Choice}
    (handled : translator.handleChoice isJsonObject choice = some next) :
    Running (choice.delta.parts.foldl Received.add received) next := by
  rcases running.start with ⟨held, started, closed, aborted⟩
  rcases held_handleReasoning isJsonObject choice.delta held with ⟨thought, sameThought⟩
  rcases held_handleText isJsonObject choice.delta thought with ⟨said, sameSaid⟩
  rcases Option.map_eq_some_iff.mp handled with ⟨called, calls, rfl⟩
  rcases held_emitToolCallDeltas said calls with ⟨heldCalled, sameCalled⟩
  have same := (sameThought.trans sameSaid).trans sameCalled
  rcases heldCalled with ⟨wire, reads, phase, showing, nextIndex, delivered⟩
  refine ⟨same.closed.trans closed, same.aborted.trans aborted,
    Or.inl ⟨same.started.trans started, wire, reads, phase,
      showing.keeps rfl rfl rfl fun _ _ => rfl,
      nextIndex, delivered⟩⟩

theorem running_recordUsage (usage : Usage) : Running received (translator.recordUsage usage) := by
  unfold recordUsage
  by_cases empty : usage.isEmpty = true
  · rw [if_pos empty]
    exact running
  · rw [if_neg empty]
    rcases running with ⟨closed, aborted, ⟨started, wire, reads, phase, showing, nextIndex,
      delivered⟩ | ⟨unstarted, rfl, untouched⟩⟩
    · exact ⟨closed, aborted, Or.inl ⟨started, wire, reads, phase,
        showing.keeps rfl rfl rfl fun _ _ => rfl, nextIndex, delivered⟩⟩
    · exact ⟨closed, aborted, Or.inr ⟨unstarted, rfl, untouched⟩⟩

/-- One chunk adds its parts to what the run has received. -/
theorem running_handleChunk {chunk : Chunk}
    (handled : translator.handleChunk isJsonObject chunk = some next) :
    Running (chunk.parts.foldl Received.add received) next := by
  unfold handleChunk at handled
  unfold Chunk.parts
  cases choice : chunk.choice with
  | some choice =>
    cases noted : chunk.usage with
    | some usage =>
      rw [noted, choice] at handled
      exact running_handleChoice (running_recordUsage running usage) handled
    | none =>
      rw [noted, choice] at handled
      exact running_handleChoice running handled
  | none =>
    cases noted : chunk.usage with
    | some usage =>
      rw [noted, choice] at handled
      cases handled
      exact running_recordUsage running usage
    | none =>
      rw [noted, choice] at handled
      cases handled
      exact running

/-- The chunks of a stream add their parts in order. -/
theorem running_handleChunks {chunks : List Chunk}
    (handled : translator.handleChunks isJsonObject chunks = some next) :
    Running (receivedFrom received chunks) next := by
  induction chunks generalizing received translator with
  | nil =>
    cases handled
    exact running
  | cons chunk rest ih =>
    rcases Option.bind_eq_some_iff.mp handled with ⟨middle, first, later⟩
    have after := ih (running_handleChunk running first) later
    simpa [receivedFrom, List.flatMap_cons, List.foldl_append] using after

theorem running_buffer (buffer : List Framing.Byte) :
    Running received { translator with buffer } := by
  rcases running with ⟨closed, aborted, ⟨started, wire, reads, phase, showing, nextIndex,
    delivered⟩ | ⟨unstarted, rfl, untouched⟩⟩
  · exact ⟨closed, aborted, Or.inl ⟨started, wire, reads, phase,
      showing.keeps rfl rfl rfl fun _ _ => rfl, nextIndex, delivered⟩⟩
  · exact ⟨closed, aborted, Or.inr ⟨unstarted, rfl, untouched⟩⟩

end

theorem running_init (inputTokensEstimate : ℕ) : Running {} (init inputTokensEstimate) :=
  ⟨rfl, rfl, Or.inr ⟨rfl, rfl, rfl⟩⟩

theorem readMessage_end {wire : Wire} (reads : Wire.read translator.yielded = some wire)
    (phase : wire.phase = .content) (current : wire.current = none) (stopReason : String)
    (usage : AnthropicUsage) :
    readMessage ((translator.emit (.messageDelta stopReason usage)).emit .messageStop).yielded =
      some ⟨wire.stopped, stopReason, usage⟩ := by
  have ending : Wire.read (translator.emit (.messageDelta stopReason usage)).yielded =
      some { wire with phase := .ending stopReason usage } :=
    (read_emit reads _).trans (by simp [Wire.accept, phase, current])
  have ended : Wire.read
      ((translator.emit (.messageDelta stopReason usage)).emit .messageStop).yielded =
        some { wire with phase := .ended stopReason usage } :=
    (read_emit ending .messageStop).trans (by simp [Wire.accept])
  simp [readMessage, ended, current]

/-- The end of the stream ends the message, with all that was received in its blocks. -/
theorem Running.finalize (isJsonObject : String → Bool) (running : Running received translator) :
    ∃ message, readMessage (translator.finalize isJsonObject).yielded = some message ∧
      Lossless received (translator.finalize isJsonObject).late message.blocks := by
  rcases running.start with ⟨⟨wire, reads, phase, showing, nextIndex, delivered⟩, -, -, -⟩
  have ending : Tracks received true _ _ wire :=
    ⟨reads, phase, showing, nextIndex, delivered.end⟩
  rcases drained_drain isJsonObject ending with ⟨⟨drainedWire, drained⟩, -, all⟩
  rw [all rfl] at drained
  rcases tracks_closeOpenTool drained with ⟨closedWire, closed, noTool⟩
  rcases (quiet_closeVisibleBlocks closed noTool).1 with
    ⟨quiet, ⟨quietReads, quietPhase, -, -, quietDelivered⟩, current, -⟩
  rw [Wire.blocks_of_none current] at quietDelivered
  have unfinished : ¬(translator.closed || translator.aborted) = true := by
    simp [running.closed, running.aborted]
  unfold Translator.finalize
  rw [if_neg unfinished]
  exact ⟨_, readMessage_end quietReads quietPhase current _ _, quietDelivered.lossless⟩

end Chunks

end HybridInference.Anthropic
