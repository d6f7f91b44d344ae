import HybridInference.Library.Machine
import HybridInference.Responses.Terminal

/-!
# A streamed turn and its storage

`_response_events` and `_persist` of `serving.servers.routers.responses`: the
generator that re-frames a chat stream as Responses events and stores the turn,
driven by the chat stream, the consumer and the store. A chat stream that is not
there is one that has ended with no chunk.

The consumer may stop the generator wherever it waits or yields: a task that is
cancelled and a generator that is closed both raise there. The store keeps a
response by its id and replaces the row that is there, so the rows of a turn are
listed in the order in which their saves took effect. A save may end, with or
without an error, only after it took effect or not; an error is swallowed by
`_persist`.
-/

namespace HybridInference.Responses

open Library Generator

inductive StoredMessage where
  | prior (message : Json)
  | assistant (message : AssistantMessage)

structure Row where
  response : Response
  messages : List StoredMessage

structure TurnSettings where
  loads : String → Option Json
  readUsage : Json → Option Json
  /-- The prior conversation and the input. -/
  convo : List Json
  /-- `store and response_store is not None`. -/
  storing : Bool

inductive Stage where
  | waiting
  /-- It has yielded an event of `feed`, of which these statements are left. -/
  | feeding (left : List (Statement Event TranslatorWrite)) (raises : Bool)
  /-- It awaits the save, which has taken effect or not. -/
  | saving (closing : List Event) (took : Bool)
  /-- It has yielded a closing event, with these to come. -/
  | closing (left : List Event)
  | finished

/-- The save scheduled by the `finally` block. -/
inductive Background where
  | notScheduled
  | running (row : Row) (took : Bool)
  | ended

structure Turn where
  translator : Translator := {}
  stage : Stage := .waiting
  background : Background := .notScheduled
  /-- The saves that took effect, oldest first. -/
  rows : List Row := []
  begun : ℕ := 0
  sent : List Event := []
  fed : List String := []
  ended : Bool := false

inductive TurnEvent where
  | chunk (chunk : String)
  | framesEnd
  | framesRaise
  /-- The consumer asks for the next event. -/
  | resume
  /-- The task is cancelled, or the generator is closed. -/
  | interrupt
  | saveTakesEffect
  | saveEnds
  | backgroundTakesEffect
  | backgroundEnds

def persistMessages (convo : List Json) (translator : Translator) : List StoredMessage :=
  convo.map .prior ++ translator.assistantMessage.toList.map .assistant

def aborted (response : Response) : Response :=
  { response with
    status := .incomplete
    incompleteDetails := some (response.incompleteDetails.getD "interrupted") }

namespace Turn

variable (settings : TurnSettings)

/-- `translator.final_response`, after `finalize` where it is not there yet. -/
def forceFinalize (translator : Translator) : Translator :=
  match translator.finalResponse with
  | some _ => translator
  | none => (finalize settings.readUsage).final translator

/-- The `finally` block, where the turn was not persisted. -/
def cleanUp (turn : Turn) : Turn :=
  if settings.storing && !turn.translator.failed then
    let translator := forceFinalize settings turn.translator
    match translator.finalResponse with
    | some response =>
      { turn with
        translator := { translator with finalResponse := some (aborted response) }
        stage := .finished
        begun := turn.begun + 1
        background := .running ⟨aborted response, persistMessages settings.convo translator⟩ false }
    | none => { turn with translator, stage := .finished }
  else { turn with stage := .finished }

/-- The next event of `feed`, or what comes after its last. -/
def advance (turn : Turn) (left : List (Statement Event TranslatorWrite)) (raises : Bool) : Turn :=
  match Statement.resume turn.translator left with
  | (translator, some event, left) =>
    { turn with translator, stage := .feeding left raises, sent := turn.sent ++ [event] }
  | (translator, none, _) =>
    if raises then cleanUp settings { turn with translator }
    else { turn with translator, stage := .waiting }

/-- `for event in closing: yield event.encode()`, where `closing` is left. -/
def yieldClosing (turn : Turn) : List Event → Turn
  | [] => { turn with stage := .finished }
  | event :: rest => { turn with stage := .closing rest, sent := turn.sent ++ [event] }

def finish (turn : Turn) : Turn :=
  match finalize settings.readUsage turn.translator with
  | (statements, none) =>
    cleanUp settings
      { turn with translator := Statement.executeAll turn.translator statements, ended := true }
  | (statements, some _) =>
    let closing := Statement.events statements
    let translator := Statement.executeAll turn.translator statements
    let closed := { turn with translator, ended := true }
    if settings.storing && translator.finalResponse.isSome && !translator.failed then
      { closed with stage := .saving closing false, begun := turn.begun + 1 }
    else closed.yieldClosing closing

def savedRow (turn : Turn) : Option Row :=
  turn.translator.finalResponse.map fun response =>
    ⟨response, persistMessages settings.convo turn.translator⟩

def step (turn : Turn) : TurnEvent → Option Turn
  | .chunk chunk =>
    match turn.stage with
    | .waiting =>
      let run := feed settings.loads chunk turn.translator
      some (advance settings { turn with fed := turn.fed ++ [chunk] } run.1 run.2.isNone)
    | _ => none
  | .framesEnd =>
    match turn.stage with
    | .waiting => some (finish settings turn)
    | _ => none
  | .framesRaise =>
    match turn.stage with
    | .waiting => some (cleanUp settings turn)
    | _ => none
  | .resume =>
    match turn.stage with
    | .feeding left raises => some (advance settings turn left raises)
    | .closing left => some (turn.yieldClosing left)
    | _ => none
  | .interrupt =>
    match turn.stage with
    | .waiting | .feeding _ _ | .saving _ _ => some (cleanUp settings turn)
    | .closing _ => some { turn with stage := .finished }
    | .finished => none
  | .saveTakesEffect =>
    match turn.stage with
    | .saving closing false =>
      (savedRow settings turn).map fun row =>
        { turn with stage := .saving closing true, rows := turn.rows ++ [row] }
    | _ => none
  | .saveEnds =>
    match turn.stage with
    | .saving closing _ => some (turn.yieldClosing closing)
    | _ => none
  | .backgroundTakesEffect =>
    match turn.background with
    | .running row false =>
      some { turn with background := .running row true, rows := turn.rows ++ [row] }
    | _ => none
  | .backgroundEnds =>
    match turn.background with
    | .running _ _ => some { turn with background := .ended }
    | _ => none

end Turn

def turnMachine (settings : TurnSettings) : Machine Turn TurnEvent where
  step := Turn.step settings

/-- A row that is true to the turn: what was received is in it, all of it and
nothing else, after the conversation, and only a stream that ended normally is
there as completed. -/
structure Faithful (settings : TurnSettings) (turn : Turn) (row : Row) : Prop where
  completed : row.response.status = .completed → turn.ended = true
  cut : turn.ended = false → row.response.status = .incomplete
  tells : ∃ message, row.messages = settings.convo.map .prior ++ [.assistant message] ∧
    Tells (received settings.loads turn.fed) row.response.output message

structure Truthful (settings : TurnSettings) (turn : Turn) : Prop where
  once : turn.rows.length ≤ 1
  faithful : ∀ row ∈ turn.rows, Faithful settings turn row
  terminal : ∀ row ∈ turn.rows, ∀ event ∈ turn.sent, ∀ status,
    event.terminalStatus = some status → row.response.status = status
  failed : (received settings.loads turn.fed).failed = true → turn.rows = [] ∧ turn.begun = 0
  saved : ∀ event ∈ turn.sent, event.terminalStatus.isSome = true →
    turn.background = .notScheduled ∧ (∀ closing took, turn.stage ≠ .saving closing took) ∧
      (settings.storing = true → (received settings.loads turn.fed).failed = false → 0 < turn.begun)
  /-- A stream cut short is handed to the store. -/
  handed : settings.storing = true → turn.stage = .finished → turn.ended = false →
    (received settings.loads turn.fed).failed = false → 0 < turn.begun

def TranslatorWrite.records : TranslatorWrite → Bool
  | .failed _ | .openText | .appendText _ | .resetText | .pushSegment _ | .newCall _ |
    .callId _ _ | .callName _ _ | .callArguments _ _ => true
  | .nextSeq | .createdEmitted | .usage _ | .finishReason _ | .reasoning _ | .finalResponse _ |
    .assistantMessage _ => false

def recordsStatement : Statement Event TranslatorWrite → Bool
  | .emit _ => false
  | .write change => change.records

def Stage.Recorded : Stage → Prop
  | .feeding left _ => ∀ statement ∈ left, recordsStatement statement = false
  | .saving _ took => took = false
  | .waiting | .closing _ | .finished => True

/-- An interruption comes when the translator has recorded all it was fed and no save is unnoticed,
and no chunk reports usage that `_map_usage` cannot read. -/
def Undisturbed (settings : TurnSettings) (turn : Turn) : TurnEvent → Prop
  | .chunk chunk => UsageReadable settings.readUsage (chunkLines settings.loads chunk)
  | .interrupt => turn.stage.Recorded
  | _ => True

section Suspended

variable {readUsage : Json → Option Json}

structure SameContent (first second : Translator) : Prop where
  current : first.current = second.current
  textSegments : first.textSegments = second.textSegments
  toolCalls : first.toolCalls = second.toolCalls
  failed : first.failed = second.failed
  nextOutputIndex : first.nextOutputIndex = second.nextOutputIndex

variable {first second : Translator}

theorem SameContent.held (same : SameContent first second) : first.held = second.held := by
  simp [Translator.held, same.current, same.textSegments, same.toolCalls, same.failed]

theorem SameContent.ordered (same : SameContent first second)
    (ordered : second.Ordered) : first.Ordered := by
  apply ordered.congr
  · simp [Translator.textIndices, same.current, same.textSegments]
  · simp [Translator.callIndices, same.toolCalls]
  · exact same.nextOutputIndex

variable {left : List (Statement Event TranslatorWrite)}

theorem sameContent_executeAll
    (quiet : ∀ statement ∈ left, recordsStatement statement = false) (translator : Translator) :
    SameContent translator (Statement.executeAll translator left) := by
  induction left generalizing translator with
  | nil => exact ⟨rfl, rfl, rfl, rfl, rfl⟩
  | cons statement rest ih =>
    have quietHere := quiet statement List.mem_cons_self
    have later := ih (fun other otherMem => quiet other (List.mem_cons_of_mem _ otherMem))
      (Statement.execute translator statement)
    have now : SameContent translator (Statement.execute translator statement) := by
      cases statement with
      | emit event => exact ⟨rfl, rfl, rfl, rfl, rfl⟩
      | write change =>
        cases change <;>
          first
            | exact ⟨rfl, rfl, rfl, rfl, rfl⟩
            | simp [recordsStatement, TranslatorWrite.records] at quietHere
    exact ⟨now.1.trans later.1, now.2.trans later.2, now.3.trans later.3, now.4.trans later.4,
      now.5.trans later.5⟩

/-- A translator whose turn is not settled, with a usage object that can be read. -/
structure Unsettled (readUsage : Json → Option Json) (translator : Translator) : Prop where
  finalResponse : translator.finalResponse = none
  readable : ∀ usage ∈ translator.usage, (readUsage usage).isSome = true

variable {translator : Translator}

theorem Unsettled.apply (unsettled : Unsettled readUsage translator)
    {change : TranslatorWrite} (streaming : Streaming readUsage (.write change)) :
    Unsettled readUsage (translator.apply change) := by
  cases change with
  | usage usage =>
    refine ⟨unsettled.finalResponse, ?_⟩
    intro reported reported_eq
    obtain rfl : usage = reported := Option.some.inj reported_eq
    exact streaming
  | finalResponse response => exact streaming.elim
  | assistantMessage message => exact streaming.elim
  | nextSeq | createdEmitted | failed payload | finishReason reason | openText
  | appendText content | resetText | pushSegment segment | reasoning content | newCall index
  | callId index id | callName index name | callArguments index arguments =>
    exact ⟨unsettled.finalResponse, unsettled.readable⟩

theorem resume_streaming (streaming : ∀ statement ∈ left, Streaming readUsage statement)
    (unsettled : Unsettled readUsage translator) :
    Unsettled readUsage (Statement.resume translator left).1 ∧
      (∀ event ∈ (Statement.resume translator left).2.1, event.terminalStatus = none) ∧
      ∀ statement ∈ (Statement.resume translator left).2.2, Streaming readUsage statement := by
  induction left generalizing translator with
  | nil => exact ⟨unsettled, by simp [Statement.resume], by simp [Statement.resume]⟩
  | cons statement rest ih =>
    have here := streaming statement List.mem_cons_self
    have later : ∀ other ∈ rest, Streaming readUsage other := fun other otherMem =>
      streaming other (List.mem_cons_of_mem _ otherMem)
    cases statement with
    | emit event =>
      refine ⟨unsettled, ?_, later⟩
      intro other other_eq
      obtain rfl : event = other := Option.some.inj other_eq
      exact here
    | write change => exact ih later (unsettled.apply here)

end Suspended

section Stages

variable {settings : TurnSettings} {turn : Turn}

/-- The stream goes on, and `target` is the translator at the end of the chunk it
reads. -/
structure Streamed (settings : TurnSettings) (turn : Turn) (target : Translator) : Prop where
  held : target.held = received settings.loads turn.fed
  ordered : target.Ordered
  unsettled : Unsettled settings.readUsage turn.translator
  rows : turn.rows = []
  begun : turn.begun = 0
  background : turn.background = .notScheduled
  sent : ∀ event ∈ turn.sent, event.terminalStatus = none
  ended : turn.ended = false

/-- The turn is settled as this response and message, and not failed. -/
structure SettledTurn (settings : TurnSettings) (turn : Turn) (response : Response)
    (message : AssistantMessage) : Prop where
  finalResponse : turn.translator.finalResponse = some response
  assistantMessage : turn.translator.assistantMessage = some message
  intact : turn.translator.failed = false
  received : (received settings.loads turn.fed).failed = false
  tells : Tells (Responses.received settings.loads turn.fed) response.output message

structure Saving (settings : TurnSettings) (turn : Turn) (closing : List Event) (took : Bool)
    (response : Response) (message : AssistantMessage) : Prop where
  storing : settings.storing = true
  settled : SettledTurn settings turn response message
  rows : turn.rows =
    if took then [⟨response, settings.convo.map .prior ++ [.assistant message]⟩] else []
  begun : turn.begun = 1
  background : turn.background = .notScheduled
  sent : ∀ event ∈ turn.sent, event.terminalStatus = none
  closing : ∀ event ∈ closing, ∀ status, event.terminalStatus = some status →
    status = response.status
  ended : turn.ended = true

/-- The save of the body is over, and the events still to come are true to it. -/
structure ClosedTurn (settings : TurnSettings) (turn : Turn) (left : List Event) : Prop where
  once : turn.rows.length ≤ 1
  faithful : ∀ row ∈ turn.rows, Faithful settings turn row
  terminal : ∀ row ∈ turn.rows, ∀ event ∈ turn.sent ++ left, ∀ status,
    event.terminalStatus = some status → row.response.status = status
  failed : (received settings.loads turn.fed).failed = true → turn.rows = [] ∧ turn.begun = 0
  begun : settings.storing = true → (received settings.loads turn.fed).failed = false →
    0 < turn.begun
  background : turn.background = .notScheduled
  ended : turn.ended = true

/-- The `finally` block has scheduled the save of this row. -/
structure Scheduled (settings : TurnSettings) (turn : Turn) (row : Row) : Prop where
  faithful : Faithful settings turn row
  received : (received settings.loads turn.fed).failed = false
  begun : 0 < turn.begun
  sent : ∀ event ∈ turn.sent, event.terminalStatus = none

structure Dropped (settings : TurnSettings) (turn : Turn) : Prop where
  rows : turn.rows = []
  begun : turn.begun = 0
  sent : ∀ event ∈ turn.sent, event.terminalStatus = none
  failed : settings.storing = true → (received settings.loads turn.fed).failed = true

def Holds (settings : TurnSettings) (turn : Turn) : Prop :=
  match turn.stage with
  | .waiting => Streamed settings turn turn.translator
  | .feeding left _ =>
    Streamed settings turn (Statement.executeAll turn.translator left) ∧
      ∀ statement ∈ left, Streaming settings.readUsage statement
  | .saving closing took => ∃ response message, Saving settings turn closing took response message
  | .closing left => ClosedTurn settings turn left
  | .finished =>
    match turn.background with
    | .notScheduled => ClosedTurn settings turn [] ∨ Dropped settings turn
    | .running row took =>
      Scheduled settings turn row ∧ turn.rows = if took then [row] else []
    | .ended => ∃ row, Scheduled settings turn row ∧ (turn.rows = [] ∨ turn.rows = [row])

variable {other : Turn}

theorem Faithful.congr {row : Row} (faithful : Faithful settings turn row)
    (fed : other.fed = turn.fed) (ended : other.ended = turn.ended) :
    Faithful settings other row := by
  rcases faithful with ⟨completed, cut, tells⟩
  exact ⟨by rwa [ended], by rwa [ended], by rwa [fed]⟩

theorem received_failed {translator : Translator} {received : Received}
    (held : translator.held = received) : received.failed = translator.failed := by
  rw [← held]
  rfl

variable {message : AssistantMessage} {response : Response}

theorem faithful_aborted
    (tells : Tells (received settings.loads other.fed) response.output message) :
    Faithful settings other
      ⟨aborted response, settings.convo.map .prior ++ [.assistant message]⟩ where
  completed := fun completed => by cases completed
  cut := fun _ => rfl
  tells := ⟨message, rfl, tells⟩

theorem holds_cleanUp_streamed (streamed : Streamed settings turn turn.translator) :
    Holds settings (Turn.cleanUp settings turn) := by
  have failed := received_failed streamed.held
  unfold Turn.cleanUp
  by_cases stores : (settings.storing && !turn.translator.failed) = true
  · have intact : turn.translator.failed = false := by simp_all
    rcases finalize_ends intact streamed.unsettled.readable with
      ⟨-, response, message, settled⟩
    have forced : Turn.forceFinalize settings turn.translator =
        (finalize settings.readUsage).final turn.translator := by
      simp [Turn.forceFinalize, streamed.unsettled.finalResponse]
    have tells := settled.tells streamed.ordered
    rw [streamed.held] at tells
    rw [if_pos stores, forced]
    simp only [settled.finalResponse, persistMessages, settled.assistantMessage,
      Option.toList_some, List.map_cons, List.map_nil]
    exact ⟨⟨faithful_aborted tells, failed.trans intact, Nat.succ_pos _, streamed.sent⟩,
      by simpa using streamed.rows⟩
  · rw [if_neg stores]
    have scheduled := streamed.background
    simp only [Holds, scheduled]
    refine Or.inr ⟨streamed.rows, streamed.begun, streamed.sent, ?_⟩
    intro storing
    simpa [storing, failed] using stores

theorem holds_cleanUp_saving {closing : List Event}
    (saving : Saving settings turn closing false response message) :
    Holds settings (Turn.cleanUp settings turn) := by
  have settled := saving.settled
  have stores : (settings.storing && !turn.translator.failed) = true := by
    simp [saving.storing, settled.intact]
  have forced : Turn.forceFinalize settings turn.translator = turn.translator := by
    simp [Turn.forceFinalize, settled.finalResponse]
  unfold Turn.cleanUp
  rw [if_pos stores, forced]
  simp only [settled.finalResponse, persistMessages, settled.assistantMessage,
    Option.toList_some, List.map_cons, List.map_nil]
  exact ⟨⟨faithful_aborted settled.tells, settled.received, Nat.succ_pos _, saving.sent⟩,
    by simpa using saving.rows⟩

theorem holds_advance {left : List (Statement Event TranslatorWrite)} {raises : Bool}
    (streamed : Streamed settings turn (Statement.executeAll turn.translator left))
    (streaming : ∀ statement ∈ left, Streaming settings.readUsage statement) :
    Holds settings (Turn.advance settings turn left raises) := by
  rcases resume_streaming streaming streamed.unsettled with ⟨unsettled, quiet, later⟩
  have sameEnd := Statement.executeAll_resume turn.translator left
  have ends : (Statement.resume turn.translator left).2.1 = none →
      (Statement.resume turn.translator left).1 = Statement.executeAll turn.translator left :=
    Statement.resume_state_of_none
  unfold Turn.advance
  rcases resumed : Statement.resume turn.translator left with ⟨translator, _ | event, rest⟩ <;>
    rw [resumed] at unsettled quiet later sameEnd ends
  · have reached : translator = Statement.executeAll turn.translator left := ends rfl
    have kept (stage : Stage) : Streamed settings { turn with translator, stage } translator :=
      ⟨reached ▸ streamed.held, reached ▸ streamed.ordered, unsettled, streamed.rows,
        streamed.begun, streamed.background, streamed.sent, streamed.ended⟩
    cases raises with
    | true => exact holds_cleanUp_streamed (kept turn.stage)
    | false => exact kept .waiting
  · refine ⟨⟨?_, ?_, unsettled, streamed.rows, streamed.begun, streamed.background, ?_,
      streamed.ended⟩, later⟩
    · exact (congrArg Translator.held sameEnd).trans streamed.held
    · exact sameEnd ▸ streamed.ordered
    · intro other otherMem
      rcases List.mem_append.mp otherMem with earlier | last
      · exact streamed.sent other earlier
      · rw [List.mem_singleton.mp last]
        exact quiet event rfl

theorem holds_yieldClosing {left : List Event} (closed : ClosedTurn settings turn left) :
    Holds settings (turn.yieldClosing left) := by
  rcases closed with ⟨once, faithful, terminal, failed, begun, background, ended⟩
  cases left with
  | nil =>
    simp only [Turn.yieldClosing, Holds, background]
    refine Or.inl ⟨once, ?_, terminal, failed, begun, rfl, ended⟩
    intro row rowMem
    exact (faithful row rowMem).congr rfl rfl
  | cons event rest =>
    refine ⟨once, ?_, ?_, failed, begun, background, ended⟩
    · intro row rowMem
      exact (faithful row rowMem).congr rfl rfl
    · simpa [Turn.yieldClosing] using terminal

theorem mem_events_iff {statements : List (Statement Event TranslatorWrite)} {event : Event} :
    event ∈ Statement.events statements ↔ .emit event ∈ statements := by
  unfold Statement.events
  rw [List.mem_filterMap]
  constructor
  · rintro ⟨statement, statementMem, emitted⟩
    cases statement with
    | emit other => exact Option.some.inj emitted ▸ statementMem
    | write change => cases emitted
  · intro emitted
    exact ⟨.emit event, emitted, rfl⟩

theorem holds_finish_failed (streamed : Streamed settings turn turn.translator)
    (failed : turn.translator.failed = true) : Holds settings (Turn.finish settings turn) := by
  have receivedFailed := (received_failed streamed.held).trans failed
  have ends : (finalize settings.readUsage).Ends turn.translator fun after value =>
      value = some () ∧ after.failed = true := finalize_failed_ends failed
  unfold Turn.finish
  unfold Ends final at ends
  rcases finalized : finalize settings.readUsage turn.translator with ⟨statements, value⟩
  rw [finalized] at ends
  rcases ends with ⟨rfl, stillFailed⟩
  simp only [stillFailed, Bool.not_true, Bool.and_false, Bool.false_eq_true, if_false]
  apply holds_yieldClosing
  refine ⟨by simp [streamed.rows], by simp [streamed.rows], by simp [streamed.rows],
    fun _ => ⟨streamed.rows, streamed.begun⟩, ?_, streamed.background, rfl⟩
  intro _ intact
  rw [receivedFailed] at intact
  cases intact

theorem holds_finish_intact (streamed : Streamed settings turn turn.translator)
    (intact : turn.translator.failed = false) : Holds settings (Turn.finish settings turn) := by
  have receivedIntact := (received_failed streamed.held).trans intact
  have ends := finalize_ends intact streamed.unsettled.readable
  have terminal : ∀ event, .emit event ∈ (finalize settings.readUsage turn.translator).1 →
      ∀ status, event.terminalStatus = some status →
        status = turn.translator.closingStatus := fun event emitted status carried =>
    finalize_terminal emitted carried
  unfold Turn.finish
  unfold Ends final at ends
  rcases finalized : finalize settings.readUsage turn.translator with ⟨statements, value⟩
  rw [finalized] at ends terminal
  rcases ends with ⟨rfl, response, message, settled⟩
  have tells := settled.tells streamed.ordered
  rw [streamed.held] at tells
  have closing : ∀ event ∈ Statement.events statements, ∀ status,
      event.terminalStatus = some status → status = response.status := by
    intro event eventMem status carried
    rw [settled.status]
    exact terminal event (mem_events_iff.mp eventMem) status carried
  simp only [settled.finalResponse, settled.failed, intact, Option.isSome_some, Bool.not_false,
    Bool.and_true]
  cases storing : settings.storing with
  | true =>
    refine ⟨response, message, storing, ⟨settled.finalResponse, settled.assistantMessage,
      settled.failed.trans intact, receivedIntact, tells⟩, ?_, ?_, streamed.background,
      streamed.sent, closing, rfl⟩
    · simpa using streamed.rows
    · simpa using streamed.begun
  | false =>
    apply holds_yieldClosing
    refine ⟨by simp [streamed.rows], by simp [streamed.rows], by simp [streamed.rows],
      fun _ => ⟨streamed.rows, streamed.begun⟩, by simp [storing], streamed.background, rfl⟩

theorem closedTurn_of_saving {closing : List Event} {took : Bool}
    (saving : Saving settings turn closing took response message) :
    ClosedTurn settings turn closing := by
  have settled := saving.settled
  have only : ∀ row ∈ turn.rows,
      row = ⟨response, settings.convo.map .prior ++ [.assistant message]⟩ := by
    intro row rowMem
    rw [saving.rows] at rowMem
    cases took with
    | true => exact List.mem_singleton.mp rowMem
    | false => cases rowMem
  refine ⟨?_, ?_, ?_, ?_, ?_, saving.background, saving.ended⟩
  · rw [saving.rows]
    cases took <;> simp
  · intro row rowMem
    rw [only row rowMem]
    refine ⟨fun _ => saving.ended, ?_, message, rfl, settled.tells⟩
    intro cut
    rw [saving.ended] at cut
    cases cut
  · intro row rowMem event eventMem status carried
    rw [only row rowMem]
    rcases List.mem_append.mp eventMem with earlier | later
    · rw [saving.sent event earlier] at carried
      cases carried
    · exact (saving.closing event later status carried).symm
  · intro failed
    rw [settled.received] at failed
    cases failed
  · intro _ _
    rw [saving.begun]
    exact Nat.one_pos

theorem received_append (loads : String → Option Json) (chunks : List String) (chunk : String) :
    received loads (chunks ++ [chunk]) =
      (linesCarried (chunkLines loads chunk)).deltas.foldl Received.add
        (received loads chunks) := by
  simp [received, List.foldl_append]

theorem holds_chunk {chunk : String} (streamed : Streamed settings turn turn.translator)
    (readable : UsageReadable settings.readUsage (chunkLines settings.loads chunk)) :
    Holds settings (Turn.advance settings { turn with fed := turn.fed ++ [chunk] }
      (feed settings.loads chunk turn.translator).1
      (feed settings.loads chunk turn.translator).2.isNone) := by
  rcases takes_feed settings.loads chunk turn.translator with ⟨took, -⟩
  apply holds_advance
  · refine ⟨?_, took.ordered streamed.ordered, streamed.unsettled, streamed.rows, streamed.begun,
      streamed.background, streamed.sent, streamed.ended⟩
    rw [received_append, ← streamed.held]
    exact took.held
  · exact executes_feedLines readable turn.translator

variable {next : Turn}

theorem holds_interrupt (holds : Holds settings turn)
    (undisturbed : Undisturbed settings turn .interrupt)
    (stepped : Turn.step settings turn .interrupt = some next) : Holds settings next := by
  simp only [Turn.step] at stepped
  simp only [Holds] at holds
  simp only [Undisturbed, Stage.Recorded] at undisturbed
  cases stage_eq : turn.stage with
  | waiting =>
    simp only [stage_eq, Option.some.injEq] at stepped holds
    exact stepped ▸ holds_cleanUp_streamed holds
  | feeding left raises =>
    simp only [stage_eq, Option.some.injEq] at stepped holds undisturbed
    have same := sameContent_executeAll undisturbed turn.translator
    rcases holds with ⟨streamed, -⟩
    have whole : Streamed settings turn turn.translator :=
      { streamed with
        held := same.held.trans streamed.held
        ordered := same.ordered streamed.ordered }
    exact stepped ▸ holds_cleanUp_streamed whole
  | saving closing took =>
    simp only [stage_eq, Option.some.injEq] at stepped holds undisturbed
    subst undisturbed
    rcases holds with ⟨response, message, saving⟩
    exact stepped ▸ holds_cleanUp_saving saving
  | closing left =>
    simp only [stage_eq, Option.some.injEq] at stepped holds
    subst stepped
    simp only [Holds, holds.background]
    refine Or.inl ⟨holds.once, ?_, ?_, holds.failed, holds.begun, rfl, holds.ended⟩
    · intro row rowMem
      exact (holds.faithful row rowMem).congr rfl rfl
    · intro row rowMem event eventMem
      exact holds.terminal row rowMem event (List.mem_append_left _ (by simpa using eventMem))
  | finished => simp [stage_eq] at stepped

theorem finished_of_background (holds : Holds settings turn)
    (scheduled : turn.background ≠ .notScheduled) : turn.stage = .finished := by
  simp only [Holds] at holds
  cases stage_eq : turn.stage with
  | waiting | closing left =>
    simp only [stage_eq] at holds
    exact absurd holds.background scheduled
  | feeding left raises =>
    simp only [stage_eq] at holds
    exact absurd holds.1.background scheduled
  | saving closing took =>
    simp only [stage_eq] at holds
    rcases holds with ⟨response, message, saving⟩
    exact absurd saving.background scheduled
  | finished => rfl

theorem Scheduled.congr {row : Row} (scheduled : Scheduled settings turn row)
    (fed : other.fed = turn.fed) (ended : other.ended = turn.ended)
    (begun : other.begun = turn.begun) (sent : other.sent = turn.sent) :
    Scheduled settings other row :=
  ⟨scheduled.faithful.congr fed ended, by rw [fed]; exact scheduled.received,
    by rw [begun]; exact scheduled.begun, by rw [sent]; exact scheduled.sent⟩

theorem holds_backgroundTakesEffect (holds : Holds settings turn)
    (stepped : Turn.step settings turn .backgroundTakesEffect = some next) :
    Holds settings next := by
  simp only [Turn.step] at stepped
  split at stepped
  next row scheduled =>
    have isFinished := finished_of_background holds (by simp [scheduled])
    simp only [Holds, isFinished, scheduled] at holds
    simp only [Option.some.injEq] at stepped
    subst stepped
    simp only [Holds, isFinished]
    exact ⟨holds.1.congr rfl rfl rfl rfl, by simp [holds.2]⟩
  next => cases stepped

theorem holds_backgroundEnds (holds : Holds settings turn)
    (stepped : Turn.step settings turn .backgroundEnds = some next) : Holds settings next := by
  simp only [Turn.step] at stepped
  split at stepped
  next row took scheduled =>
    have isFinished := finished_of_background holds (by simp [scheduled])
    simp only [Holds, isFinished, scheduled] at holds
    simp only [Option.some.injEq] at stepped
    subst stepped
    simp only [Holds, isFinished]
    refine ⟨row, holds.1.congr rfl rfl rfl rfl, ?_⟩
    cases took with
    | true => exact Or.inr (by simpa using holds.2)
    | false => exact Or.inl (by simpa using holds.2)
  next => cases stepped

theorem holds_saveTakesEffect (holds : Holds settings turn)
    (stepped : Turn.step settings turn .saveTakesEffect = some next) : Holds settings next := by
  simp only [Turn.step] at stepped
  split at stepped
  next closing stage_eq =>
    simp only [Holds, stage_eq] at holds
    rcases holds with ⟨response, message, saving⟩
    have settled := saving.settled
    simp only [Turn.savedRow, settled.finalResponse, persistMessages, settled.assistantMessage,
      Option.map_some, Option.toList_some, List.map_cons, List.map_nil, Option.some.injEq]
      at stepped
    subst stepped
    refine ⟨response, message, saving.storing, ⟨settled.finalResponse, settled.assistantMessage,
      settled.intact, settled.received, settled.tells⟩, ?_, saving.begun, saving.background,
      saving.sent, saving.closing, saving.ended⟩
    simp [saving.rows]
  next => cases stepped

theorem holds_step (turn : Turn) (event : TurnEvent) (next : Turn) (holds : Holds settings turn)
    (undisturbed : Undisturbed settings turn event)
    (stepped : Turn.step settings turn event = some next) : Holds settings next := by
  cases event <;> simp only [Turn.step] at stepped
  case chunk chunk =>
    split at stepped
    next stage_eq =>
      simp only [Holds, stage_eq] at holds
      exact Option.some.inj stepped ▸ holds_chunk holds undisturbed
    next => cases stepped
  case framesEnd =>
    split at stepped
    next stage_eq =>
      simp only [Holds, stage_eq] at holds
      rw [← Option.some.inj stepped]
      cases failed : turn.translator.failed with
      | true => exact holds_finish_failed holds failed
      | false => exact holds_finish_intact holds failed
    next => cases stepped
  case framesRaise =>
    split at stepped
    next stage_eq =>
      simp only [Holds, stage_eq] at holds
      exact Option.some.inj stepped ▸ holds_cleanUp_streamed holds
    next => cases stepped
  case resume =>
    split at stepped
    next left raises stage_eq =>
      simp only [Holds, stage_eq] at holds
      exact Option.some.inj stepped ▸ holds_advance holds.1 holds.2
    next left stage_eq =>
      simp only [Holds, stage_eq] at holds
      exact Option.some.inj stepped ▸ holds_yieldClosing holds
    next => cases stepped
  case interrupt => exact holds_interrupt holds undisturbed stepped
  case saveTakesEffect => exact holds_saveTakesEffect holds stepped
  case saveEnds =>
    split at stepped
    next closing took stage_eq =>
      simp only [Holds, stage_eq] at holds
      rcases holds with ⟨response, message, saving⟩
      exact Option.some.inj stepped ▸ holds_yieldClosing (closedTurn_of_saving saving)
    next => cases stepped
  case backgroundTakesEffect => exact holds_backgroundTakesEffect holds stepped
  case backgroundEnds => exact holds_backgroundEnds holds stepped

theorem holds_initial : Holds settings ({} : Turn) where
  held := rfl
  ordered := ⟨List.Pairwise.nil, by simp [Translator.textIndices], List.Pairwise.nil,
    by simp [Translator.callIndices]⟩
  unsettled := ⟨rfl, by simp⟩
  rows := rfl
  begun := rfl
  background := rfl
  sent := by simp
  ended := rfl

theorem truthful_of_unstored (rows : turn.rows = [])
    (begun : (received settings.loads turn.fed).failed = true → turn.begun = 0)
    (sent : ∀ event ∈ turn.sent, event.terminalStatus = none)
    (handed : settings.storing = true → turn.stage = .finished → turn.ended = false →
      (received settings.loads turn.fed).failed = false → 0 < turn.begun) :
    Truthful settings turn where
  once := by simp [rows]
  faithful := by simp [rows]
  terminal := by simp [rows]
  failed := fun failed => ⟨rows, begun failed⟩
  saved := fun event eventMem terminal => by simp [sent event eventMem] at terminal
  handed := handed

theorem truthful_of_streamed {target : Translator} (streamed : Streamed settings turn target)
    (goesOn : turn.stage ≠ .finished) : Truthful settings turn :=
  truthful_of_unstored streamed.rows (fun _ => streamed.begun) streamed.sent
    fun _ isFinished => absurd isFinished goesOn

theorem truthful_of_closedTurn {left : List Event} (closed : ClosedTurn settings turn left)
    (persisted : ∀ closing took, turn.stage ≠ .saving closing took) :
    Truthful settings turn where
  once := closed.once
  faithful := closed.faithful
  terminal := fun row rowMem event eventMem =>
    closed.terminal row rowMem event (List.mem_append_left left eventMem)
  failed := closed.failed
  saved := fun _ _ _ => ⟨closed.background, persisted, closed.begun⟩
  handed := fun _ _ cut => by
    rw [closed.ended] at cut
    cases cut

theorem truthful_of_scheduled {row : Row} (scheduled : Scheduled settings turn row)
    (rows : turn.rows = [] ∨ turn.rows = [row]) : Truthful settings turn where
  once := by rcases rows with rows | rows <;> simp [rows]
  faithful := by
    intro stored storedMem
    rcases rows with rows | rows
    · simp [rows] at storedMem
    · rw [rows] at storedMem
      rw [List.mem_singleton.mp storedMem]
      exact scheduled.faithful
  terminal := by
    intro stored _ event eventMem status carried
    rw [scheduled.sent event eventMem] at carried
    cases carried
  failed := by
    intro failed
    rw [scheduled.received] at failed
    cases failed
  saved := by
    intro event eventMem terminal
    simp [scheduled.sent event eventMem] at terminal
  handed := fun _ _ _ _ => scheduled.begun

theorem truthful_of_holds (holds : Holds settings turn) : Truthful settings turn := by
  simp only [Holds] at holds
  cases stage_eq : turn.stage with
  | waiting =>
    simp only [stage_eq] at holds
    exact truthful_of_streamed holds (by simp [stage_eq])
  | feeding left raises =>
    simp only [stage_eq] at holds
    exact truthful_of_streamed holds.1 (by simp [stage_eq])
  | saving closing took =>
    simp only [stage_eq] at holds
    rcases holds with ⟨response, message, saving⟩
    have closed := closedTurn_of_saving saving
    refine ⟨closed.once, closed.faithful, ?_, closed.failed, ?_, fun _ isFinished => ?_⟩
    · intro row rowMem event eventMem
      exact closed.terminal row rowMem event (List.mem_append_left closing eventMem)
    · intro event eventMem terminal
      simp [saving.sent event eventMem] at terminal
    · simp [stage_eq] at isFinished
  | closing left =>
    simp only [stage_eq] at holds
    exact truthful_of_closedTurn holds (by simp [stage_eq])
  | finished =>
    simp only [stage_eq] at holds
    cases background_eq : turn.background with
    | notScheduled =>
      simp only [background_eq] at holds
      rcases holds with closed | dropped
      · exact truthful_of_closedTurn closed (by simp [stage_eq])
      · refine truthful_of_unstored dropped.rows (fun _ => dropped.begun) dropped.sent ?_
        intro storing _ _ intact
        rw [dropped.failed storing] at intact
        cases intact
    | running row took =>
      simp only [background_eq] at holds
      apply truthful_of_scheduled holds.1
      cases took with
      | true => exact Or.inr (by simpa using holds.2)
      | false => exact Or.inl (by simpa using holds.2)
    | ended =>
      simp only [background_eq] at holds
      rcases holds with ⟨row, scheduled, rows⟩
      exact truthful_of_scheduled scheduled rows

/-- A Responses turn is stored once and truthfully along every run whose interruptions find the
translator caught up and no save unnoticed. -/
theorem turn_stored_once_and_truthfully {events : List TurnEvent}
    (undisturbed : (turnMachine settings).Along (Undisturbed settings) {} events)
    (ran : (turnMachine settings).run {} events = some turn) : Truthful settings turn :=
  truthful_of_holds (Machine.run_invariant_along (Undisturbed settings)
      (fun turn event next holds met stepped => holds_step turn event next holds met stepped)
      holds_initial undisturbed ran)

end Stages

instance (readUsage : Json → Option Json) (lines : List Line) :
    Decidable (UsageReadable readUsage lines) :=
  inferInstanceAs (Decidable (∀ line ∈ lines, ∀ usage ∈ line.reportedUsage,
    (readUsage usage).isSome = true))

instance : (stage : Stage) → Decidable stage.Recorded
  | .feeding left _ =>
    inferInstanceAs (Decidable (∀ statement ∈ left, recordsStatement statement = false))
  | .saving _ took => inferInstanceAs (Decidable (took = false))
  | .waiting | .closing _ | .finished => isTrue trivial

instance (settings : TurnSettings) (turn : Turn) :
    (event : TurnEvent) → Decidable (Undisturbed settings turn event)
  | .chunk chunk =>
    inferInstanceAs (Decidable (UsageReadable settings.readUsage (chunkLines settings.loads chunk)))
  | .interrupt => inferInstanceAs (Decidable turn.stage.Recorded)
  | .framesEnd | .framesRaise | .resume | .saveTakesEffect | .saveEnds | .backgroundTakesEffect |
    .backgroundEnds => isTrue trivial

def textChunk : String :=
  "data: \x7b\"choices\":[\x7b\"delta\":\x7b\"content\":\"Hi\"\x7d\x7d]\x7d"

def callChunk : String :=
  "data: \x7b\"choices\":[\x7b\"delta\":\x7b\"tool_calls\":[\x7b\"id\":\"c\"\x7d]\x7d\x7d]\x7d"

/-- `json.loads` on the data of the two chunks. -/
def sampleLoads (data : String) : Option Json :=
  if "data: " ++ data = textChunk then
    some (.obj [("choices", .arr [.obj [("delta", .obj [("content", .str "Hi")])]])])
  else if "data: " ++ data = callChunk then
    some (.obj [("choices",
      .arr [.obj [("delta", .obj [("tool_calls", .arr [.obj [("id", .str "c")]])])]])])
  else none

def sampleSettings : TurnSettings where
  loads := sampleLoads
  readUsage := some
  convo := [.str "Hello"]
  storing := true

def sampleTexts (turn : Turn) : List String × String :=
  (turn.rows.map fun row => outputText row.response.output, (received sampleLoads turn.fed).text)

def pausedRun : List TurnEvent :=
  [.chunk textChunk, .resume, .resume, .resume, .resume, .resume, .interrupt,
    .backgroundTakesEffect, .backgroundEnds]

theorem turn_stored_once_and_truthfully_paused :
    ∃ turn, (turnMachine sampleSettings).run {} pausedRun = some turn ∧
      Truthful sampleSettings turn ∧ sampleTexts turn = (["Hi"], "Hi") := by
  have stored : ((turnMachine sampleSettings).run {} pausedRun).map sampleTexts =
      some (["Hi"], "Hi") := by decide +kernel
  rcases Option.map_eq_some_iff.mp stored with ⟨turn, ran, texts⟩
  exact ⟨turn, ran, turn_stored_once_and_truthfully (by decide +kernel) ran, texts⟩

def lostTextRun : List TurnEvent :=
  [.chunk textChunk, .resume, .resume, .resume, .resume, .resume, .chunk callChunk, .interrupt,
    .backgroundTakesEffect]

def savedTwiceRun : List TurnEvent :=
  [.chunk textChunk, .resume, .resume, .resume, .resume, .resume, .framesEnd, .saveTakesEffect,
    .interrupt, .backgroundTakesEffect]

/-- Interrupted at the event that closes a text item, a turn is stored without the
text; interrupted while its save returns, it is stored twice. -/
theorem interruption_loses_text_or_stores_twice :
    (∃ turn, (turnMachine sampleSettings).run {} lostTextRun = some turn ∧
      sampleTexts turn = ([""], "Hi") ∧ ¬Truthful sampleSettings turn) ∧
    ∃ turn, (turnMachine sampleSettings).run {} savedTwiceRun = some turn ∧
      turn.rows.length = 2 ∧ ¬Truthful sampleSettings turn := by
  have lost : ((turnMachine sampleSettings).run {} lostTextRun).map sampleTexts =
      some ([""], "Hi") := by decide +kernel
  have twice : ((turnMachine sampleSettings).run {} savedTwiceRun).map
      (fun turn => turn.rows.length) = some 2 := by decide +kernel
  rcases Option.map_eq_some_iff.mp lost with ⟨turn, ran, texts⟩
  rcases Option.map_eq_some_iff.mp twice with ⟨other, ranOther, rows⟩
  refine ⟨⟨turn, ran, texts, ?_⟩, ⟨other, ranOther, rows, ?_⟩⟩
  · intro truthful
    simp only [sampleTexts, Prod.mk.injEq] at texts
    rcases texts with ⟨rowTexts, receivedText⟩
    rcases List.map_eq_singleton_iff.mp rowTexts with ⟨row, onlyRow, rowText⟩
    rcases truthful.faithful row (by simp [onlyRow]) with ⟨-, -, message, -, tells⟩
    have same := tells.outputText
    rw [rowText] at same
    rw [show (received sampleSettings.loads turn.fed).text = "Hi" from receivedText] at same
    simp at same
  · intro truthful
    have once := truthful.once
    omega

end HybridInference.Responses
