import HybridInference.AutoMode.Sessions
import HybridInference.Library.Machine

/-!
# The thinking that a conversation carries to its model

`strip_foreign_thinking` of `serving.auto_mode`, over the conversations of an auto tier. Who wrote a
message is not in the message: it is a tag that the code does not read.
-/

namespace HybridInference.AutoMode

open Library

structure Block (Fields : Type*) where
  type : Option String
  fields : Fields
  deriving DecidableEq

inductive Content (Fields : Type*) where
  | text (text : String)
  | blocks (blocks : List (Block Fields))
  deriving DecidableEq

structure Message (Fields Others : Type*) where
  role : Option String
  content : Content Fields
  others : Others
  deriving DecidableEq

def thinkingBlockTypes : List String := ["thinking", "redacted_thinking"]

variable {Fields Others : Type*}

def Block.isThinking (block : Block Fields) : Bool := block.type.any thinkingBlockTypes.contains

namespace Message

variable (message : Message Fields Others)

def isAssistant : Bool := message.role = some "assistant"

def blocks : List (Block Fields) :=
  match message.content with
  | .text _ => []
  | .blocks blocks => blocks

def thinking : List (Block Fields) := message.blocks.filter Block.isThinking

def spoken : List (Option String × Others × (String ⊕ Block Fields)) :=
  match message.content with
  | .text text => [(message.role, message.others, .inl text)]
  | .blocks blocks => (blocks.filter fun block => !block.isThinking).map fun block =>
    (message.role, message.others, .inr block)

end Message

section Strip

variable (messages : List (Message Fields Others))

def lastAssistant : Option ℕ :=
  ((messages.zipIdx.filter fun entry => entry.1.isAssistant).map Prod.snd).max?

def keepIndex (selection : AutoSelection) : Option ℕ :=
  if selection.turn = .toolContinuation ∧ selection.decision.sessionAction = .keep then
    lastAssistant messages
  else none

def strippedAt (keepIndex : Option ℕ) (entry : Message Fields Others × ℕ) :
    Option (Message Fields Others) × ℕ :=
  match entry.1.content with
  | .text _ => (some entry.1, 0)
  | .blocks content =>
    if some entry.2 = keepIndex ∨ entry.1.isAssistant = false then (some entry.1, 0)
    else
      let remaining := content.filter fun block => !block.isThinking
      (if remaining.isEmpty then none else some { entry.1 with content := .blocks remaining },
        content.length - remaining.length)

/-- `strip_foreign_thinking`: the messages that are forwarded, and how many blocks were removed. -/
def stripForeignThinking (selection : AutoSelection) : List (Message Fields Others) × ℕ :=
  if selection.switches = 0 then (messages, 0)
  else
    let entries := messages.zipIdx.map (strippedAt (keepIndex messages selection))
    let removed := (entries.map Prod.snd).sum
    (if removed = 0 then messages else entries.filterMap Prod.fst, removed)

end Strip

section Stripping

variable {messages : List (Message Fields Others)} {index : Option ℕ}
  {entry : Message Fields Others × ℕ}
  {message : Message Fields Others} {selection : AutoSelection}

theorem spoken_strippedAt :
    (strippedAt index entry).1.toList.flatMap Message.spoken = entry.1.spoken := by
  unfold strippedAt
  split
  · simp
  · rename_i content isBlocks
    split_ifs with keeps
    · simp
    · dsimp only
      split_ifs with empty
      · rw [List.isEmpty_iff] at empty
        simp [Message.spoken, isBlocks, empty]
      · simp [Message.spoken, isBlocks, List.filter_filter]

theorem thinking_strippedAt (kept : (strippedAt index entry).1 = some message) :
    message = entry.1 ∧ (some entry.2 = index ∨ entry.1.isAssistant = false ∨
        entry.1.thinking = []) ∨
      message.thinking = [] := by
  unfold strippedAt at kept
  split at kept
  · rename_i text isText
    cases kept
    left
    refine ⟨rfl, Or.inr (Or.inr ?_)⟩
    simp [Message.thinking, Message.blocks, isText]
  · split_ifs at kept with keeps
    · cases kept
      exact Or.inl ⟨rfl, keeps.imp id Or.inl⟩
    · dsimp only at kept
      split_ifs at kept with empty
      cases kept
      right
      simp [Message.thinking, Message.blocks, List.filter_filter]

theorem thinking_of_removed_eq_zero (removed : (strippedAt index entry).2 = 0) :
    some entry.2 = index ∨ entry.1.isAssistant = false ∨ entry.1.thinking = [] := by
  unfold strippedAt at removed
  split at removed
  · rename_i text isText
    right
    right
    simp [Message.thinking, Message.blocks, isText]
  · rename_i content isBlocks
    split_ifs at removed with keeps
    · exact keeps.imp id Or.inl
    · right
      right
      dsimp only at removed
      have all : (content.filter fun block => !block.isThinking).length = content.length := by
        have le := List.length_filter_le (fun block => !block.isThinking) content
        omega
      rw [List.length_filter_eq_length_iff] at all
      unfold Message.thinking Message.blocks
      rw [isBlocks, List.filter_eq_nil_iff]
      intro block inside
      simpa using all block inside

theorem spoken_entries (entries : List (Message Fields Others × ℕ)) :
    ((entries.map (strippedAt index)).filterMap Prod.fst).flatMap Message.spoken =
      (entries.map Prod.fst).flatMap Message.spoken := by
  induction entries with
  | nil => rfl
  | cons entry rest ih =>
    rw [List.map_cons, List.map_cons, List.flatMap_cons, ← ih, ← @spoken_strippedAt _ _ index]
    cases kept : (strippedAt index entry).1 with
    | none =>
      rw [List.filterMap_cons_none kept]
      rfl
    | some message =>
      rw [List.filterMap_cons_some kept]
      simp

theorem spoken_stripForeignThinking :
    (stripForeignThinking messages selection).1.flatMap Message.spoken =
      messages.flatMap Message.spoken := by
  unfold stripForeignThinking
  split_ifs with unswitched
  · rfl
  · dsimp only
    split_ifs
    · rfl
    · rw [spoken_entries, List.zipIdx_map_fst]

theorem thinking_stripForeignThinking (switched : selection.switches ≠ 0)
    (inside : message ∈ (stripForeignThinking messages selection).1)
    (thinks : message.thinking ≠ []) :
    message ∈ messages ∧ (message.isAssistant = false ∨
      ∃ last, keepIndex messages selection = some last ∧ messages[last]? = some message) := by
  have conclude : ∀ entry ∈ messages.zipIdx, entry.1 = message →
      (some entry.2 = keepIndex messages selection ∨ entry.1.isAssistant = false ∨
        entry.1.thinking = []) →
      message ∈ messages ∧ (message.isAssistant = false ∨
        ∃ last, keepIndex messages selection = some last ∧ messages[last]? = some message) := by
    rintro ⟨_, position⟩ listed rfl kept
    rw [List.mem_zipIdx_iff_getElem?] at listed
    refine ⟨List.mem_of_getElem? listed, ?_⟩
    rcases kept with isLast | other | quiet
    · exact Or.inr ⟨position, isLast.symm, listed⟩
    · exact Or.inl other
    · exact absurd quiet thinks
  unfold stripForeignThinking at inside
  rw [if_neg switched] at inside
  dsimp only at inside
  split_ifs at inside with nothing
  · rcases List.getElem?_of_mem inside with ⟨position, found⟩
    have listed : (message, position) ∈ messages.zipIdx :=
      List.mem_zipIdx_iff_getElem?.mpr found
    have removed : (strippedAt (keepIndex messages selection) (message, position)).2 = 0 := by
      rw [List.sum_eq_zero_iff_forall_eq_nat] at nothing
      apply nothing
      rw [List.map_map]
      exact List.mem_map_of_mem listed
    exact conclude _ listed rfl (thinking_of_removed_eq_zero removed)
  · rcases List.mem_filterMap.mp inside with ⟨result, made, kept⟩
    rcases List.mem_map.mp made with ⟨entry, listed, rfl⟩
    rcases thinking_strippedAt kept with ⟨rfl, left_⟩ | quiet
    · exact conclude entry listed rfl left_
    · exact absurd quiet thinks

end Stripping

/-! ## Conversations -/

abbrev Said (Fields : Type*) := Message Fields (Option String)

def WrittenBy (model : String) (messages : List (Said Fields)) : Prop :=
  ∀ message ∈ messages, message.thinking ≠ [] → message.others = some model

structure UserMessage (Fields : Type*) where
  content : Content Fields
  plain : ∀ blocks, content = .blocks blocks → blocks.all fun block => !block.isThinking

def UserMessage.said (message : UserMessage Fields) : Said Fields :=
  ⟨some "user", message.content, none⟩

def replyOf (model : String) (blocks : List (Block Fields)) : Said Fields :=
  ⟨some "assistant", .blocks blocks, some model⟩

/-- The turn of `anthropic_features`. -/
def turnOf (messages : List (Said Fields)) (sideCall : Bool) : TurnKind :=
  if sideCall then .sideCall
  else if messages.getLast?.any fun message => message.role = some "user" &&
      message.blocks.any fun block => block.type = some "tool_result" then .toolContinuation
  else .newTurn

/-- One request of the conversation: the auto mode that serves it, what was added since the one
before it, and the reply, which a request that fails does not get. -/
structure Ask (Key Fields : Type*) where
  mode : Mode
  requested : String
  added : List (UserMessage Fields)
  sideCall : Bool
  promptTokens : ℤ
  maxTokens : Option ℤ
  inputModalities : List String
  usesTools : Bool
  reachable : String → Option Reachable
  source : String
  getAt : ℚ
  putAt : ℚ
  reply : Option (List (Block Fields))

structure Conversation (Key Fields : Type*) where
  sessions : SessionStore Key := []
  history : List (Said Fields) := []

variable {Key : Type*} [DecidableEq Key]

inductive Event (key : Key) (Fields : Type*) where
  | ask (ask : Ask Key Fields)
  | other (mode : Mode) (request : Request Key)
      (elsewhere : request.session.map Prod.fst ≠ some key)
  | restart

namespace Ask

variable (ask : Ask Key Fields)

def messages (history : List (Said Fields)) : List (Said Fields) :=
  history ++ ask.added.map UserMessage.said

def request (key : Key) (history : List (Said Fields)) : Request Key where
  requested := ask.requested
  features := ⟨ask.promptTokens, turnOf (ask.messages history) ask.sideCall, ask.maxTokens,
    ask.inputModalities, ask.usesTools⟩
  reachable := ask.reachable
  session := some (key, ask.source)
  getAt := ask.getAt
  putAt := ask.putAt

end Ask

variable (key : Key)

def Conversation.asked (conversation : Conversation Key Fields) (ask : Ask Key Fields) :
    Except AutoModelUnavailable AutoSelection × SessionStore Key :=
  ask.mode.select conversation.sessions (ask.request key conversation.history)

def Conversation.next (conversation : Conversation Key Fields) :
    Event key Fields → Conversation Key Fields
  | .restart => { conversation with sessions := [] }
  | .other mode request _ =>
    { conversation with sessions := (mode.select conversation.sessions request).2 }
  | .ask ask =>
    { sessions := (conversation.asked key ask).2
      history := ask.messages conversation.history ++
        match (conversation.asked key ask).1, ask.reply with
        | .ok selection, some blocks => [replyOf selection.candidate.modelId blocks]
        | _, _ => [] }

def conversations (Fields : Type*) : Machine (Conversation Key Fields) (Event key Fields) where
  step conversation event := some (conversation.next key event)

def ForwardsOwnThinking (conversation : Conversation Key Fields) : Event key Fields → Prop
  | .ask ask => ∀ selection, (conversation.asked key ask).1 = .ok selection →
      WrittenBy selection.candidate.modelId
          (stripForeignThinking (ask.messages conversation.history) selection).1 ∧
        (stripForeignThinking (ask.messages conversation.history) selection).1.flatMap
            Message.spoken = (ask.messages conversation.history).flatMap Message.spoken
  | _ => True

def Conversation.state (conversation : Conversation Key Fields) (ask : Ask Key Fields) :
    Option SessionState :=
  (ask.mode.sessionOf conversation.sessions (ask.request key conversation.history)).1

/-- A request at which nothing is forgotten of who wrote the conversation. -/
structure Remembered (conversation : Conversation Key Fields) (ask : Ask Key Fields)
    (profile : AutoProfile) : Prop where
  /-- A session without a state of this tier version has thinking of the best model only. -/
  kept : ask.sideCall = false → usableState profile (conversation.state key ask) = none →
    ∀ best, (ableFor profile (ask.request key conversation.history)).head? = some best →
      WrittenBy best.modelId (ask.messages conversation.history)
  /-- A side call before the first switch finds the session's model able, or thinking of the best
  model only. -/
  sideCall : ask.sideCall = true →
    ((conversation.state key ask).map SessionState.switches).getD 0 = 0 →
    (∀ held, usableState profile (conversation.state key ask) = some held →
      held.candidate ∉ ableFor profile (ask.request key conversation.history)) →
    ∀ best, (ableFor profile (ask.request key conversation.history)).head? = some best →
      WrittenBy best.modelId (ask.messages conversation.history) ∧
        ∀ held, conversation.state key ask = some held → best.modelId = held.candidate.modelId ∨
            ∀ blocks, ask.reply = some blocks → blocks.all fun block => !block.isThinking
  /-- A tool loop goes on after a reply of the model that its session was moved to. -/
  answered : turnOf (ask.messages conversation.history) ask.sideCall = .toolContinuation →
    ∀ held, usableState profile (conversation.state key ask) = some held → held.switches ≠ 0 →
      held.candidate ∈ ableFor profile (ask.request key conversation.history) →
      ∀ last message, lastAssistant (ask.messages conversation.history) = some last →
        (ask.messages conversation.history)[last]? = some message → message.thinking ≠ [] →
        message.others = some held.candidate.modelId

def Remembers (conversation : Conversation Key Fields) : Event key Fields → Prop
  | .ask ask => ∀ profile, ask.mode.resolve ask.requested = some profile →
      Remembered key conversation ask profile
  | _ => True

section Store

variable {mode : Mode} {sessions : SessionStore Key} {request : Request Key}
  {selection : AutoSelection} {profile : AutoProfile}

theorem sessionOf_distinct (distinct : OrderedDict.Distinct sessions) :
    OrderedDict.Distinct (mode.sessionOf sessions request).2 := by
  unfold Mode.sessionOf
  cases request.session with
  | none => exact distinct
  | some session => exact distinct.sublist RecentStore.get_sublist

theorem sessionOf_subset : (mode.sessionOf sessions request).2 ⊆ sessions := by
  unfold Mode.sessionOf
  cases request.session with
  | none => exact List.Subset.refl _
  | some session => exact RecentStore.get_sublist.subset

theorem Mode.resolve_of_ok (answer : (mode.select sessions request).1 = .ok selection) :
    ∃ profile, mode.resolve request.requested = some profile := by
  cases resolved : mode.resolve request.requested with
  | none =>
    rw [mode.select_of_unresolved sessions resolved] at answer
    cases answer
  | some profile => exact ⟨profile, rfl⟩

theorem Mode.select_distinct (mode : Mode) (request : Request Key)
    (distinct : OrderedDict.Distinct sessions) :
    OrderedDict.Distinct (mode.select sessions request).2 := by
  cases resolved : mode.resolve request.requested with
  | none =>
    rw [mode.select_of_unresolved sessions resolved]
    exact distinct
  | some profile =>
    rcases mode.select_cases sessions resolved with
      ⟨_, refusal, answer⟩ | ⟨selection, _, _, _, _, answer⟩
    · rw [answer]
      exact sessionOf_distinct distinct
    · rw [answer]
      unfold Mode.storeFor
      split
      · exact RecentStore.put_distinct (sessionOf_distinct distinct)
      · exact sessionOf_distinct distinct

theorem Mode.mem_select {entry : Key × SessionState × ℚ} (distinct : OrderedDict.Distinct sessions)
    (inside : entry ∈ (mode.select sessions request).2) :
    (∃ selection, (mode.select sessions request).1 = .ok selection ∧
        request.session.map Prod.fst = some entry.1 ∧
        selection.decision.nextState = some entry.2.1) ∨
      entry ∈ sessions ∧ ∀ selection, (mode.select sessions request).1 = .ok selection →
        request.session.map Prod.fst = some entry.1 →
        selection.decision.nextState = none ∧
          (mode.sessionOf sessions request).1 = some entry.2.1 := by
  cases resolved : mode.resolve request.requested with
  | none =>
    rw [mode.select_of_unresolved sessions resolved] at inside ⊢
    exact Or.inr ⟨inside, by simp⟩
  | some profile =>
    rcases mode.select_cases sessions resolved with
      ⟨_, refusal, answer⟩ | ⟨selection, _, _, _, _, answer⟩
    · rw [answer] at inside ⊢
      exact Or.inr ⟨sessionOf_subset inside, by simp⟩
    · rw [answer] at inside ⊢
      unfold Mode.storeFor at inside
      cases isSession : request.session with
      | none =>
        rw [isSession] at inside
        exact Or.inr ⟨sessionOf_subset inside, by simp⟩
      | some session =>
        rw [isSession] at inside
        cases next : selection.decision.nextState with
        | none =>
          rw [next] at inside
          refine Or.inr ⟨sessionOf_subset inside, ?_⟩
          rintro _ ⟨⟩ same
          refine ⟨next, ?_⟩
          rw [Option.map_some, Option.some.injEq] at same
          unfold Mode.sessionOf at inside ⊢
          rw [isSession] at inside ⊢
          dsimp only at inside ⊢
          rw [same] at inside ⊢
          exact RecentStore.get_of_mem distinct inside
        | some state =>
          rw [next] at inside
          rcases RecentStore.mem_put inside with rfl | ⟨before, other⟩
          · exact Or.inl ⟨selection, rfl, rfl, next⟩
          · refine Or.inr ⟨sessionOf_subset before, ?_⟩
            rintro _ _ same
            rw [Option.map_some, Option.some.injEq] at same
            exact absurd same.symm other

theorem nextState_of_chosen {features : RequestFeatures}
    {catalog : String → Option CandidateInfo} {state : Option SessionState} {chosen : Candidate}
    (side : features.turn ≠ .sideCall)
    (picked : (select profile features catalog state).chosen = some chosen) :
    ∃ next, (select profile features catalog state).nextState = some next ∧
      next.candidate = chosen := by
  cases usable : usableState profile state with
  | none => exact ⟨_, (nextState_of_new side usable picked).2, rfl⟩
  | some held => exact ⟨_, (nextState_of_held side usable picked).1, rfl⟩

end Store

theorem usableState_eq_some {profile : AutoProfile} {state : Option SessionState}
    {held : SessionState} (usable : usableState profile state = some held) : state = some held := by
  unfold usableState at usable
  rw [Option.filter_eq_some_iff] at usable
  exact usable.1

theorem turnOf_eq_sideCall_iff {messages : List (Said Fields)} {sideCall : Bool} :
    turnOf messages sideCall = .sideCall ↔ sideCall = true := by
  unfold turnOf
  cases sideCall with
  | true => simp
  | false =>
    rw [if_neg Bool.false_ne_true]
    split_ifs <;> simp

theorem thinking_said (message : UserMessage Fields) : message.said.thinking = [] := by
  unfold Message.thinking Message.blocks UserMessage.said
  split
  · rfl
  · rename_i blocks isBlocks
    rw [List.filter_eq_nil_iff]
    intro block inside
    simpa using List.all_eq_true.mp (message.plain blocks isBlocks) block inside

omit [DecidableEq Key] in
theorem thinking_messages {ask : Ask Key Fields} {history : List (Said Fields)}
    {message : Said Fields} (inside : message ∈ ask.messages history)
    (thinks : message.thinking ≠ []) : message ∈ history := by
  rcases List.mem_append.mp inside with before | added
  · exact before
  · rcases List.mem_map.mp added with ⟨said, _, rfl⟩
    exact absurd (thinking_said said) thinks

/-- The invariant of a conversation: while its session has not changed models, all thinking in it is
the session's model's. -/
structure Attributed (conversation : Conversation Key Fields) : Prop where
  distinct : OrderedDict.Distinct conversation.sessions
  thinkers : ∀ message ∈ conversation.history, message.thinking ≠ [] → message.isAssistant = true
  unswitched : ∀ entry ∈ conversation.sessions, entry.1 = key → entry.2.1.switches = 0 →
    WrittenBy entry.2.1.candidate.modelId conversation.history

section Asking

variable {key} {conversation : Conversation Key Fields} {ask : Ask Key Fields}
  {profile : AutoProfile} {selection : AutoSelection} {held : SessionState}

theorem Attributed.writtenBy (attributed : Attributed key conversation)
    (isHeld : conversation.state key ask = some held) (unswitched : held.switches = 0) :
    WrittenBy held.candidate.modelId (ask.messages conversation.history) := by
  have found : ∃ storedAt, conversation.sessions.lookup key = some (held, storedAt) :=
    RecentStore.get_eq_some isHeld
  rcases found with ⟨storedAt, looked⟩
  have written := attributed.unswitched _ (OrderedDict.mem_of_lookup looked) rfl unswitched
  intro message inside thinks
  exact written message (thinking_messages inside thinks) thinks

theorem chosen_of_asked (resolved : ask.mode.resolve ask.requested = some profile)
    (answer : (conversation.asked key ask).1 = .ok selection) :
    (select profile (ask.request key conversation.history).features
        (ask.request key conversation.history).catalog (conversation.state key ask)).chosen =
        some selection.candidate ∧
      selection.decision = select profile (ask.request key conversation.history).features
        (ask.request key conversation.history).catalog (conversation.state key ask) ∧
      selection.turn = turnOf (ask.messages conversation.history) ask.sideCall ∧
      selection.switches = (selection.decision.nextState.map SessionState.switches).getD
        (((conversation.state key ask).map SessionState.switches).getD 0) := by
  have isRequest : ask.mode.resolve (ask.request key conversation.history).requested =
      some profile := resolved
  unfold Conversation.asked at answer
  rcases ask.mode.select_cases conversation.sessions isRequest with
    ⟨_, refusal, refused⟩ | ⟨other, picked, decided, turn, switches, answered⟩
  · rw [refused] at answer
    cases answer
  · rw [answered] at answer
    cases answer
    exact ⟨picked, decided, turn, switches⟩

theorem Attributed.chosen (attributed : Attributed key conversation)
    (remembered : Remembered key conversation ask profile)
    (resolved : ask.mode.resolve ask.requested = some profile)
    (answer : (conversation.asked key ask).1 = .ok selection)
    (unswitched : selection.switches = 0) :
    WrittenBy selection.candidate.modelId (ask.messages conversation.history) := by
  rcases chosen_of_asked resolved answer with ⟨picked, decided, _, switches⟩
  rw [unswitched] at switches
  cases side : ask.sideCall with
  | true =>
    have turn : (ask.request key conversation.history).features.turn = .sideCall :=
      turnOf_eq_sideCall_iff.mpr side
    rw [decided, nextState_of_sideCall turn] at switches
    rcases (chosen_of_sideCall turn picked).2 with ⟨held, usable, chosen⟩ | ⟨unable, best⟩
    · have isHeld := usableState_eq_some usable
      rw [isHeld] at switches
      rw [chosen]
      exact attributed.writtenBy isHeld switches.symm
    · exact (remembered.sideCall side switches.symm unable _ best).1
  | false =>
    have turn : (ask.request key conversation.history).features.turn ≠ .sideCall := by
      intro isSide
      rw [turnOf_eq_sideCall_iff.mp isSide] at side
      cases side
    cases usable : usableState profile (conversation.state key ask) with
    | none => exact remembered.kept side usable _ (nextState_of_new turn usable picked).1
    | some held =>
      rw [decided, (nextState_of_held turn usable picked).1] at switches
      have same : selection.candidate = held.candidate ∧ held.switches = 0 := by
        dsimp only [Option.map_some, Option.getD_some] at switches
        split_ifs at switches with same
        · exact ⟨same, by omega⟩
        · omega
      rw [same.1]
      exact attributed.writtenBy (usableState_eq_some usable) same.2

theorem last_of_keepIndex {last : ℕ} {message : Said Fields}
    (remembered : Remembered key conversation ask profile)
    (resolved : ask.mode.resolve ask.requested = some profile)
    (answer : (conversation.asked key ask).1 = .ok selection) (switched : selection.switches ≠ 0)
    (kept : keepIndex (ask.messages conversation.history) selection = some last)
    (found : (ask.messages conversation.history)[last]? = some message)
    (thinks : message.thinking ≠ []) : message.others = some selection.candidate.modelId := by
  rcases chosen_of_asked resolved answer with ⟨picked, decided, isTurn, switches⟩
  unfold keepIndex at kept
  split_ifs at kept with keeps
  rw [isTurn] at keeps
  have turn : (ask.request key conversation.history).features.turn ≠ .sideCall := by
    intro isSide
    have continuing : (ask.request key conversation.history).features.turn = .toolContinuation :=
      keeps.1
    rw [continuing] at isSide
    cases isSide
  cases usable : usableState profile (conversation.state key ask) with
  | none =>
    rw [decided, (nextState_of_new turn usable picked).2] at switches
    exact absurd switches switched
  | some held =>
    rcases nextState_of_held turn usable picked with ⟨next, _, _, keep⟩
    rcases keep (decided ▸ keeps.2) with ⟨same, able⟩
    rw [decided, next] at switches
    dsimp only [Option.map_some, Option.getD_some] at switches
    rw [if_pos same, Nat.zero_add] at switches
    rw [same]
    exact remembered.answered keeps.1 held usable (switches ▸ switched) able last message kept
      found thinks

theorem Attributed.forwards (attributed : Attributed key conversation)
    (remembered : Remembered key conversation ask profile)
    (resolved : ask.mode.resolve ask.requested = some profile) :
    ForwardsOwnThinking key conversation (.ask ask) := by
  intro selection answer
  refine ⟨?_, spoken_stripForeignThinking⟩
  by_cases unswitched : selection.switches = 0
  · have written := attributed.chosen remembered resolved answer unswitched
    unfold stripForeignThinking
    rw [if_pos unswitched]
    exact written
  · intro message inside thinks
    rcases thinking_stripForeignThinking unswitched inside thinks with
      ⟨carried, notAssistant | ⟨last, kept, found⟩⟩
    · have assistant := attributed.thinkers message (thinking_messages carried thinks) thinks
      rw [notAssistant] at assistant
      cases assistant
    · exact last_of_keepIndex remembered resolved answer unswitched kept found thinks

theorem writtenBy_append {model : String} {messages replies : List (Said Fields)}
    (before : WrittenBy model messages) (reply : WrittenBy model replies) :
    WrittenBy model (messages ++ replies) := by
  intro message inside thinks
  rcases List.mem_append.mp inside with earlier | new
  · exact before message earlier thinks
  · exact reply message new thinks

omit [DecidableEq Key] in
theorem writtenBy_messages {model : String} {history : List (Said Fields)}
    (written : WrittenBy model history) : WrittenBy model (ask.messages history) :=
  fun message inside thinks => written message (thinking_messages inside thinks) thinks

theorem writtenBy_replyOf (model : String) (blocks : List (Block Fields)) :
    WrittenBy model [replyOf model blocks] := by
  intro message inside _
  rw [List.mem_singleton.mp inside]
  rfl

variable {blocks : List (Block Fields)}

theorem writtenBy_of_plain {model other : String}
    (plain : blocks.all fun block => !block.isThinking) : WrittenBy model
    [replyOf other blocks] := by
  intro message inside thinks
  rw [List.mem_singleton.mp inside] at thinks
  apply absurd _ thinks
  unfold Message.thinking Message.blocks replyOf
  rw [List.filter_eq_nil_iff]
  intro block listed
  simpa using List.all_eq_true.mp plain block listed

theorem sideReply_writtenBy (remembered : Remembered key conversation ask profile)
    (resolved : ask.mode.resolve ask.requested = some profile)
    (answer : (conversation.asked key ask).1 = .ok selection)
    (nothing : selection.decision.nextState = none)
    (isHeld : conversation.state key ask = some held) (unswitched : held.switches = 0)
    (replied : ask.reply = some blocks) :
    WrittenBy held.candidate.modelId [replyOf selection.candidate.modelId blocks] := by
  rcases chosen_of_asked resolved answer with ⟨picked, decided, _, _⟩
  rw [decided] at nothing
  have turn : (ask.request key conversation.history).features.turn = .sideCall := by
    by_contra side
    rcases nextState_of_chosen side picked with ⟨next, isNext, _⟩
    rw [isNext] at nothing
    cases nothing
  have side : ask.sideCall = true := turnOf_eq_sideCall_iff.mp turn
  rcases (chosen_of_sideCall turn picked).2 with ⟨other, usable, chosen⟩ | ⟨unable, best⟩
  · have same := (usableState_eq_some usable).symm.trans isHeld
    cases same
    rw [chosen]
    exact writtenBy_replyOf _ _
  · have zero : ((conversation.state key ask).map SessionState.switches).getD 0 = 0 := by
      rw [isHeld]
      exact unswitched
    rcases (remembered.sideCall side zero unable _ best).2 held isHeld with same | plain
    · rw [← same]
      exact writtenBy_replyOf _ _
    · exact writtenBy_of_plain (plain blocks replied)

end Asking

theorem Attributed.next {conversation : Conversation Key Fields} {event : Event key Fields}
    (attributed : Attributed key conversation) (remembers : Remembers key conversation event) :
    Attributed key (conversation.next key event) := by
  cases event with
  | restart => exact ⟨List.nodup_nil, attributed.thinkers, by simp [Conversation.next]⟩
  | other mode request elsewhere =>
    refine ⟨mode.select_distinct request attributed.distinct, attributed.thinkers, ?_⟩
    intro entry inside isKey
    rcases Mode.mem_select attributed.distinct inside with ⟨_, _, session, _⟩ | ⟨before, _⟩
    · exact absurd (isKey ▸ session) elsewhere
    · exact attributed.unswitched entry before isKey
  | ask ask =>
    have isSession : (ask.request key conversation.history).session.map Prod.fst = some key := rfl
    refine ⟨ask.mode.select_distinct _ attributed.distinct, ?_, ?_⟩
    · intro message inside thinks
      unfold Conversation.next at inside
      rcases List.mem_append.mp inside with carried | reply
      · exact attributed.thinkers message (thinking_messages carried thinks) thinks
      · split at reply
        · rw [List.mem_singleton.mp reply]
          rfl
        · cases reply
    · intro entry inside isKey unswitched
      unfold Conversation.next
      dsimp only
      rcases Mode.mem_select attributed.distinct inside with
        ⟨selection, answer, _, next⟩ | ⟨before, left_⟩
      · rcases Mode.resolve_of_ok answer with ⟨profile, resolved⟩
        have remembered := remembers profile resolved
        rcases chosen_of_asked resolved answer with ⟨picked, decided, turn, switches⟩
        have same : entry.2.1.candidate = selection.candidate := by
          have turn : (ask.request key conversation.history).features.turn ≠ .sideCall := by
            intro side
            rw [decided, nextState_of_sideCall side] at next
            cases next
          rcases nextState_of_chosen turn picked with ⟨stored, isStored, candidate⟩
          rw [decided, isStored, Option.some.injEq] at next
          rw [← next, candidate]
        rw [next, Option.map_some, Option.getD_some, unswitched] at switches
        have written := attributed.chosen remembered resolved answer switches
        rw [same]
        apply writtenBy_append written
        have isAnswer : (conversation.asked key ask).1 = .ok selection := answer
        rw [isAnswer]
        cases ask.reply with
        | none => exact fun _ inside => nomatch inside
        | some blocks => exact writtenBy_replyOf _ _
      · apply writtenBy_append
        · exact writtenBy_messages (attributed.unswitched entry before isKey unswitched)
        · split
          · rename_i selection blocks answer replied
            rcases Mode.resolve_of_ok answer with ⟨profile, resolved⟩
            rcases left_ selection answer (isSession.trans (congrArg some isKey.symm)) with
              ⟨nothing, isHeld⟩
            exact sideReply_writtenBy (remembers profile resolved) resolved answer nothing isHeld
              unswitched replied
          · exact fun _ inside => nomatch inside

/-- In every conversation in which nothing is forgotten of who wrote it, no request forwards
thinking of another model, and no request loses anything but thinking. -/
theorem forwards_own_thinking {events : List (Event key Fields)}
    (remembers : (conversations key Fields).Along (Remembers key) {} events) :
    (conversations key Fields).Along (ForwardsOwnThinking key) {} events := by
  refine @Machine.along_of_invariant _ _ _ (Remembers key) (ForwardsOwnThinking key)
    (Attributed key) ?_ ?_ _ _ ?_ remembers
  · intro conversation event attributed remembered
    cases event with
    | ask ask =>
      intro selection answer
      rcases Mode.resolve_of_ok answer with ⟨profile, resolved⟩
      exact attributed.forwards (remembered profile resolved) resolved selection answer
    | other => trivial
    | restart => trivial
  · rintro conversation event _ attributed remembered ⟨⟩
    exact attributed.next key remembered
  · exact ⟨List.nodup_nil, by simp, by simp⟩

instance [DecidableEq Fields] (model : String) (messages : List (Said Fields)) :
    Decidable (WrittenBy model messages) :=
  inferInstanceAs (Decidable (∀ message ∈ messages, message.thinking ≠ [] →
    message.others = some model))

def userSaid (text : String) : UserMessage String :=
  ⟨.text text, fun _ isBlocks => by cases isBlocks⟩

/-- A user turn of a conversation over `opusThenGlm`; `opusUp` tells whether the first model is
up. -/
def sampleAsk (opusUp : Bool) (moment : ℚ) : Ask ℕ String where
  mode := opusThenGlmMode
  requested := "auto"
  added := [userSaid "go on"]
  sideCall := false
  promptTokens := 100
  maxTokens := none
  inputModalities := ["text"]
  usesTools := true
  reachable := (sampleRequest .newTurn opusUp moment).reachable
  source := "conversation"
  getAt := moment
  putAt := moment
  reply := some [⟨some "thinking", "signed"⟩, ⟨some "text", "done"⟩]

def sampleConversation : Conversation ℕ String :=
  Conversation.next 1 {} (.ask (sampleAsk false 0))

/-- A model answers, the session is idle for longer than its timeout, and another model is sent the
thinking. -/
theorem idle_conversation_forwards_foreign_thinking : ¬∀ events : List (Event (1 : ℕ) String),
      (conversations 1 String).Along (ForwardsOwnThinking 1) {} events := by
  intro all
  generalize isStarted : (sampleConversation : Conversation ℕ String) = started
  have second : ForwardsOwnThinking 1 started (.ask (sampleAsk true 4000)) := by
    rw [← isStarted]
    exact ((all [.ask (sampleAsk false 0), .ask (sampleAsk true 4000)]).2 _ rfl).1
  have lost : started.state 1 (sampleAsk true 4000) = none := by
    rw [← isStarted]
    decide +kernel
  have carried : ¬WrittenBy "opus" ((sampleAsk true 4000).messages started.history) := by
    rw [← isStarted]
    decide +kernel
  have ables : ableFor opusThenGlm ((sampleAsk true 4000).request 1 started.history) =
      opusThenGlm.candidates := by
    rw [← isStarted]
    decide +kernel
  have turn : ((sampleAsk true 4000).request 1 started.history).features.turn = .newTurn := by
    rw [← isStarted]
    decide +kernel
  rcases @Mode.select_cases ℕ _ opusThenGlmMode opusThenGlm
      ((sampleAsk true 4000).request 1 started.history) started.sessions rfl with
    ⟨nobody, _⟩ | ⟨selection, picked, decided, _, switches, answer⟩
  · have someone := congrArg Option.isSome nobody
    rw [select_chosen_isSome] at someone
    unfold ableFor at ables
    rw [ables] at someone
    cases someone
  · have usable : usableState opusThenGlm (started.state 1 (sampleAsk true 4000)) = none := by
      rw [lost]
      rfl
    rcases nextState_of_new (by rw [turn]; decide) usable picked with ⟨best, next⟩
    unfold ableFor at ables
    rw [ables] at best
    have isOpus : (⟨"opus", none⟩ : Candidate) = selection.candidate := Option.some.inj best
    have unswitched : selection.switches = 0 := by
      rw [switches, decided]
      unfold Conversation.state at next
      exact congrArg (fun state => (Option.map SessionState.switches state).getD _) next
    have forwarded := (second selection (congrArg Prod.fst answer)).1
    unfold stripForeignThinking at forwarded
    rw [if_pos unswitched, ← isOpus] at forwarded
    exact carried forwarded

/-- The session is moved back to the first model a minute later, and the thinking is stripped. -/
theorem forwards_own_thinking_after_switch :
    (conversations 1 String).Along (ForwardsOwnThinking 1) {}
      [.ask (sampleAsk false 0), .ask (sampleAsk true 60)] := by
  apply forwards_own_thinking
  have only : ∀ name profile, opusThenGlmMode.resolve name = some profile →
      profile = opusThenGlm := by
    intro name profile resolved
    have cases_ : (if name = "auto" then some opusThenGlm else none) = some profile := resolved
    split_ifs at cases_
    exact (Option.some.inj cases_).symm
  refine ⟨?_, ?_⟩
  · intro profile resolved
    cases only _ _ resolved
    refine ⟨?_, fun side => absurd side (by decide), fun continuing => ?_⟩
    · intro _ _ best _ message inside thinks
      exact absurd (thinking_messages inside thinks) List.not_mem_nil
    · exact absurd continuing (by decide +kernel)
  · rintro conversation ⟨⟩
    refine ⟨?_, fun _ _ => trivial⟩
    intro profile resolved
    cases only _ _ resolved
    refine ⟨?_, fun side => absurd side (by decide), fun continuing => ?_⟩
    · intro _ forgotten
      exact absurd forgotten (by decide +kernel)
    · exact absurd continuing (by decide +kernel)

end HybridInference.AutoMode
