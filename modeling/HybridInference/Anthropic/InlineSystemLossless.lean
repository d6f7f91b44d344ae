import HybridInference.Anthropic.InlineSystemPlacing

/-!
# Inline system messages are placed losslessly

Every text of a system message lands in the `system` field or in a reminder, all other
entries stay as they were sent, a second pass finds nothing to move, and what is added to
a conversation that waits for the assistant only adds to the end of the prompt.
-/

namespace HybridInference.Anthropic

open Library

variable {written : Json → String}

section Runs

variable {start seen : List Json} {placing : Placing} {slots : List Slot}

/-- Placing one entry extends the arrangement. -/
theorem Arranged.step {entry : Json} (arranged : Arranged written start seen placing slots) :
    ∃ next, Arranged written start (seen ++ [entry]) (placing.place written entry) next ∧
      (placing.place written entry).hoisted = placing.hoisted ∧
      ∃ more, flattened (placing.place written entry).kept = flattened placing.kept ++ more := by
  have silent (noMessage : ∀ fields, entry ≠ .obj fields) :
      ∃ next, Arranged written start (seen ++ [entry])
          { placing with kept := placing.kept ++ [entry] } next ∧
        placing.hoisted = placing.hoisted ∧
        ∃ more, flattened (placing.kept ++ [entry]) = flattened placing.kept ++ more :=
    ⟨_, arranged.entry noMessage, rfl, _, flattened_append _ _⟩
  cases entry with
  | obj message =>
    cases system : (Json.get message "role").isStr "system" with
    | true =>
      simp only [Placing.place, system, if_true]
      exact arranged.system system
    | false =>
      simp only [Placing.place, system, Bool.false_eq_true, if_false]
      rcases arranged.conversation system with ⟨more, next, kept⟩
      refine ⟨_, next, ?_, flattened (more.map Slot.render), ?_⟩
      · unfold Placing.placeConversation
        split_ifs <;> rfl
      · rw [kept, flattened_append]
  | _ => exact silent (by simp)

/-- Placing every entry extends the arrangement. -/
theorem Arranged.run {entries : List Json} (arranged : Arranged written start seen placing slots) :
    ∃ next, Arranged written start (seen ++ entries)
        (entries.foldl (Placing.place written) placing) next ∧
      (entries.foldl (Placing.place written) placing).hoisted = placing.hoisted ∧
      ∃ more, flattened (entries.foldl (Placing.place written) placing).kept =
        flattened placing.kept ++ more := by
  induction entries generalizing seen placing slots with
  | nil => exact ⟨slots, by simpa using arranged, rfl, [], by simp⟩
  | cons entry rest ih =>
    rcases arranged.step with ⟨middle, stepped, sameHoisted, first, grown⟩
    rcases ih stepped with ⟨next, ran, stillHoisted, second, grownMore⟩
    refine ⟨next, by simpa using ran, stillHoisted.trans sameHoisted, first ++ second, ?_⟩
    rw [List.foldl_cons, grownMore, grown, List.append_assoc]

theorem foldl_place_leading {entries : List Json}
    (leading : ∀ entry ∈ entries, isConversation entry = false) (hoisted : List Fields)
    (kept : List Json) :
    entries.foldl (Placing.place written) { hoisted := hoisted, kept := kept } =
      { hoisted := hoisted ++ entries.flatMap systemTexts
        kept := kept ++ entries.filter fun entry => !isSystemMessage entry } := by
  induction entries generalizing hoisted kept with
  | nil => simp
  | cons entry rest ih =>
    have other := leading entry (by simp)
    have rested := ih fun later member => leading later (by simp [member])
    cases entry with
    | obj message =>
      have system : (Json.get message "role").isStr "system" = true := by
        simpa [isConversation] using other
      simp [Placing.place, Placing.placeSystem, system, systemTexts, isSystemMessage, rested]
    | _ => simp [Placing.place, systemTexts, isSystemMessage, rested]

theorem arranged_first {message : Fields} (hoisted : List Fields)
    (notSystem : (Json.get message "role").isStr "system" = false) :
    Arranged written start [.obj message]
      (Placing.place written { hoisted := hoisted, kept := start } (.obj message))
      [.sent (.obj message)] := by
  have isMessage : isConversation (.obj message) = true := by
    simp [isConversation, notSystem]
  have original : isSystemMessage (.obj message) = false := notSystem
  simp only [Placing.place, notSystem, Bool.false_eq_true, if_false, Placing.placeConversation,
    List.isEmpty_nil, if_true]
  refine ⟨rfl, ?_, ?_, ?_, [], .sent (.obj message), [], message, rfl, rfl, by simp [Silent],
    Or.inl rfl, by simp [isMessage], by simp⟩
  · simp [Slot.originals, original]
  · simp [Slot.reminders, systemTexts, notSystem]
  · simp [Slot.Proper, original]

theorem Arranged.finish (arranged : Arranged written start seen placing slots) :
    ∃ last : List Slot, placing.finish.kept = start ++ last.map Slot.render ∧
      last.flatMap Slot.originals = seen.filter (fun entry => !isSystemMessage entry) ∧
      last.flatMap Slot.reminders = (seen.flatMap systemTexts).map (asSystemReminder written) ∧
      ∀ slot ∈ last, slot.Proper := by
  unfold Placing.finish
  by_cases empty : placing.pending.isEmpty = true
  · rw [if_pos empty]
    rw [List.isEmpty_iff] at empty
    refine ⟨slots, arranged.kept, arranged.originals, ?_, arranged.proper⟩
    simpa [empty] using arranged.reminders
  · rw [if_neg empty]
    refine ⟨slots ++ [.inserted placing.pending], by simp [arranged.kept, Slot.render], ?_, ?_, ?_⟩
    · simp [arranged.originals, Slot.originals]
    · simp [← arranged.reminders, Slot.reminders]
    · intro slot member
      rcases List.mem_append.mp member with earlier | new
      · exact arranged.proper slot earlier
      · rw [List.mem_singleton.mp new]
        trivial

end Runs

def leading (messages : List Json) : List Json :=
  messages.takeWhile fun entry => !isConversation entry

def conversation (messages : List Json) : List Json :=
  messages.dropWhile fun entry => !isConversation entry

theorem leading_append_conversation (messages : List Json) :
    leading messages ++ conversation messages = messages :=
  List.takeWhile_append_dropWhile

theorem leading_not_conversation (messages : List Json) :
    ∀ entry ∈ leading messages, isConversation entry = false := by
  intro entry member
  have silent := List.all_eq_true.mp List.all_takeWhile entry member
  simpa using silent

theorem conversation_cases (messages : List Json) :
    conversation messages = [] ∨ ∃ first rest, conversation messages = .obj first :: rest ∧
      (Json.get first "role").isStr "system" = false := by
  cases split : conversation messages with
  | nil => exact Or.inl rfl
  | cons entry rest =>
    have starts : isConversation entry = true := by
      unfold conversation at split
      have notSilent := List.head_dropWhile_not (fun entry => !isConversation entry)
        (show messages.dropWhile (fun entry => !isConversation entry) ≠ [] by simp [split])
      simpa [split] using notSilent
    cases entry with
    | obj first => exact Or.inr ⟨first, rest, rfl, by simpa [isConversation] using starts⟩
    | _ => cases starts

def placed (written : Json → String) (messages : List Json) : Placing :=
  messages.foldl (Placing.place written) {}

theorem placed_eq (messages : List Json) :
    placed written messages = (conversation messages).foldl (Placing.place written)
      { hoisted := (leading messages).flatMap systemTexts
        kept := (leading messages).filter fun entry => !isSystemMessage entry } := by
  have first := @foldl_place_leading written _ (leading_not_conversation messages) [] []
  unfold placed
  conv_lhs => rw [← leading_append_conversation messages]
  rw [List.foldl_append, first]
  simp

theorem arranged_placed {messages rest : List Json} {first : Fields}
    (split : conversation messages = .obj first :: rest)
    (notSystem : (Json.get first "role").isStr "system" = false) :
    ∃ slots, Arranged written ((leading messages).filter fun entry => !isSystemMessage entry)
        (conversation messages) (placed written messages) slots ∧
      (placed written messages).hoisted = (leading messages).flatMap systemTexts := by
  have begun := @arranged_first written
    ((leading messages).filter fun entry => !isSystemMessage entry) first
    ((leading messages).flatMap systemTexts) notSystem
  rcases begun.run with ⟨slots, arranged, sameHoisted, -⟩
  rw [placed_eq, split]
  refine ⟨slots, by simpa using arranged, ?_⟩
  rw [List.foldl_cons, sameHoisted]
  simp [Placing.place, notSystem, Placing.placeConversation]

structure Placed (written : Json → String) (messages : List Json) (placing : Placing)
    (slots : List Slot) : Prop where
  kept : placing.kept = slots.map Slot.render
  originals : slots.flatMap Slot.originals = messages.filter fun entry => !isSystemMessage entry
  reminders : slots.flatMap Slot.reminders =
    ((conversation messages).flatMap systemTexts).map (asSystemReminder written)
  proper : ∀ slot ∈ slots, slot.Proper
  hoisted : placing.hoisted = (leading messages).flatMap systemTexts

theorem sent_slots (entries : List Json) : (entries.map Slot.sent).map Slot.render = entries ∧
      (entries.map Slot.sent).flatMap Slot.originals = entries ∧
      (entries.map Slot.sent).flatMap Slot.reminders = [] := by
  refine ⟨?_, ?_, ?_⟩
  · rw [List.map_map]
    exact List.map_id _
  · induction entries with
    | nil => rfl
    | cons entry rest ih => simpa [Slot.originals] using ih
  · rw [List.flatMap_eq_nil_iff]
    intro slot member
    rcases List.mem_map.mp member with ⟨entry, -, rfl⟩
    rfl

theorem placed_slots (messages : List Json) :
    ∃ slots, Placed written messages (placed written messages).finish slots := by
  rcases sent_slots ((leading messages).filter fun entry => !isSystemMessage entry) with
    ⟨rendered, originals, noReminders⟩
  have properStart : ∀ slot ∈ ((leading messages).filter fun entry =>
      !isSystemMessage entry).map Slot.sent, slot.Proper := by
    intro slot member
    rcases List.mem_map.mp member with ⟨entry, inStart, rfl⟩
    simpa [Slot.Proper] using (List.mem_filter.mp inStart).2
  have whole : messages.filter (fun entry => !isSystemMessage entry) =
      (leading messages).filter (fun entry => !isSystemMessage entry) ++
        (conversation messages).filter fun entry => !isSystemMessage entry := by
    rw [← List.filter_append, leading_append_conversation]
  have sameHoisted : (placed written messages).finish.hoisted =
      (placed written messages).hoisted := by
    unfold Placing.finish
    split_ifs <;> rfl
  rcases conversation_cases messages with none | ⟨first, rest, split, notSystem⟩
  · refine ⟨_, ?_, ?_, ?_, properStart, ?_⟩
    · rw [placed_eq, none, rendered]
      rfl
    · rw [whole, none, originals]
      simp
    · rw [noReminders, none]
      rfl
    · rw [placed_eq, none]
      rfl
  · rcases @arranged_placed written messages rest first split notSystem with
      ⟨slots, arranged, isHoisted⟩
    rcases arranged.finish with ⟨last, kept, isOriginals, isReminders, proper⟩
    refine ⟨((leading messages).filter fun entry => !isSystemMessage entry).map Slot.sent ++ last,
      ?_, ?_, ?_, ?_, sameHoisted.trans isHoisted⟩
    · rw [kept, List.map_append, rendered]
    · rw [List.flatMap_append, originals, isOriginals, whole]
    · rw [List.flatMap_append, noReminders, isReminders, List.nil_append]
    · intro slot member
      rcases List.mem_append.mp member with early | late
      · exact properStart slot early
      · exact proper slot late

theorem Slot.Proper.not_system {slot : Slot} (proper : slot.Proper) :
    isSystemMessage slot.render = false := by
  cases slot with
  | sent entry => exact proper
  | reminded message head tail =>
    have user : isUser message = true := proper
    simp only [Slot.render, isSystemMessage, get_withContent_role]
    exact not_system_of_isUser user
  | inserted blocks => rfl

theorem foldl_place_unmoved {entries : List Json} {placing : Placing}
    (none : ∀ entry ∈ entries, isSystemMessage entry = false) (empty : placing.pending = []) :
    (entries.foldl (Placing.place written) placing).kept = placing.kept ++ entries ∧
      (entries.foldl (Placing.place written) placing).pending = [] ∧
      (entries.foldl (Placing.place written) placing).hoisted = placing.hoisted := by
  induction entries generalizing placing with
  | nil => simp [empty]
  | cons entry rest ih =>
    have unmoved := none entry (by simp)
    have later : ∀ entry ∈ rest, isSystemMessage entry = false :=
      fun other member => none other (by simp [member])
    have step : (placing.place written entry).kept = placing.kept ++ [entry] ∧
        (placing.place written entry).pending = [] ∧
        (placing.place written entry).hoisted = placing.hoisted := by
      cases entry with
      | obj message =>
        have notSystem : (Json.get message "role").isStr "system" = false := unmoved
        simp [Placing.place, notSystem, Placing.placeConversation, empty]
      | _ => simp [Placing.place, empty]
    rcases ih later step.2.1 with ⟨kept, pending, hoisted⟩
    rw [List.foldl_cons]
    refine ⟨?_, pending, hoisted.trans step.2.2⟩
    rw [kept, step.1]
    simp

def messagesOf (body : Fields) : List Json :=
  match Json.get body "messages" with
  | .arr messages => messages
  | _ => []

/-- The `system` field after the texts that joined it. -/
def systemAfter (body : Fields) (hoisted : List Fields) : Json :=
  if hoisted.isEmpty then Json.get body "system"
  else .arr (existingSystem (Json.get body "system") ++ hoisted.map Json.obj)

section

variable {body : Fields} {messages : List Json}
  (isMessages : Json.get body "messages" = .arr messages)

include isMessages

theorem normalizeInlineSystem_of_none (none : ∀ entry ∈ messages, isSystemMessage entry = false) :
    normalizeInlineSystem written body = body := by
  have nothing : messages.any isSystemMessage = false := by
    rw [List.any_eq_false]
    intro entry member
    simp [none entry member]
  simp only [normalizeInlineSystem, isMessages, nothing, Bool.false_eq_true, if_false]

theorem normalizeInlineSystem_fields :
    messagesOf (normalizeInlineSystem written body) = (placed written messages).finish.kept ∧
      Json.get (normalizeInlineSystem written body) "messages" =
        .arr (placed written messages).finish.kept ∧
      Json.get (normalizeInlineSystem written body) "system" =
        systemAfter body ((leading messages).flatMap systemTexts) ∧
      ∀ name, name ≠ "messages" → name ≠ "system" →
        Json.get (normalizeInlineSystem written body) name = Json.get body name := by
  rcases @placed_slots written messages with ⟨slots, facts⟩
  have isHoisted := facts.hoisted
  by_cases any : messages.any isSystemMessage = true
  · have normalized : normalizeInlineSystem written body =
        if (placed written messages).finish.hoisted.isEmpty then
          Json.put body "messages" (.arr (placed written messages).finish.kept)
        else
          Json.put (Json.put body "messages" (.arr (placed written messages).finish.kept)) "system"
            (.arr (existingSystem (Json.get body "system") ++
              (placed written messages).finish.hoisted.map Json.obj)) := by
      simp only [normalizeInlineSystem, isMessages, any, if_true]
      rfl
    rw [normalized, isHoisted]
    unfold systemAfter
    split_ifs with noTexts
    · refine ⟨by simp [messagesOf, Json.get_put], by simp [Json.get_put], by simp [Json.get_put],
        ?_⟩
      intro name notMessages notSystem
      simp [Json.get_put, notMessages]
    · refine ⟨by simp [messagesOf, Json.get_put], by simp [Json.get_put], by simp [Json.get_put],
        ?_⟩
      intro name notMessages notSystem
      simp [Json.get_put, notMessages, notSystem]
  · have none : ∀ entry ∈ messages, isSystemMessage entry = false := by
      simpa using any
    have normalized : normalizeInlineSystem written body = body :=
      normalizeInlineSystem_of_none isMessages none
    rcases @foldl_place_unmoved written messages {} none rfl with ⟨kept, pending, hoisted⟩
    have finished : (placed written messages).finish = placed written messages := by
      unfold Placing.finish placed
      rw [pending]
      rfl
    have noTexts : (leading messages).flatMap systemTexts = [] := by
      rw [← isHoisted, finished]
      exact hoisted
    rw [normalized, finished, noTexts]
    have sameKept : (placed written messages).kept = messages := by
      unfold placed
      simpa using kept
    rw [sameKept]
    exact ⟨by simp [messagesOf, isMessages], isMessages, rfl, fun _ _ _ => rfl⟩

theorem normalizeInlineSystem_messages :
    ∀ entry ∈ messagesOf (normalizeInlineSystem written body), isSystemMessage entry = false := by
  rcases @placed_slots written messages with ⟨slots, facts⟩
  rw [(normalizeInlineSystem_fields isMessages).1, facts.kept]
  intro entry member
  rcases List.mem_map.mp member with ⟨slot, isSlot, rfl⟩
  exact (facts.proper slot isSlot).not_system

theorem normalizeInlineSystem_idem :
    normalizeInlineSystem written (normalizeInlineSystem written body) =
      normalizeInlineSystem written body := by
  have moved := (@normalizeInlineSystem_fields written body messages isMessages).2.1
  have none := @normalizeInlineSystem_messages written body messages isMessages
  rw [(normalizeInlineSystem_fields isMessages).1] at none
  exact normalizeInlineSystem_of_none moved none

end

theorem placed_append {messages more : List Json} {latest : Fields}
    (isLatest : (messages.filter isConversation).getLast? = some (.obj latest))
    (user : isUser latest = true) :
    leading (messages ++ more) = leading messages ∧
      flattened (placed written messages).finish.kept <+:
        flattened (placed written (messages ++ more)).finish.kept := by
  rcases conversation_cases messages with none | ⟨first, rest, split, notSystem⟩
  · exfalso
    have all := leading_append_conversation messages
    rw [none, List.append_nil] at all
    have silent : messages.filter isConversation = [] := by
      rw [List.filter_eq_nil_iff]
      intro entry member
      rw [← all] at member
      simp [leading_not_conversation messages entry member]
    rw [silent] at isLatest
    cases isLatest
  · rcases @arranged_placed written messages rest first split notSystem with
      ⟨slots, arranged, -⟩
    rcases arranged.latest with ⟨-, -, -, last, -, -, -, -, isLast, waits⟩
    have sameLast : last = latest := by
      have whole : (messages.filter isConversation).getLast? =
          ((conversation messages).filter isConversation).getLast? := by
        conv_lhs => rw [← leading_append_conversation messages, List.filter_append]
        have silent : (leading messages).filter isConversation = [] := by
          rw [List.filter_eq_nil_iff]
          intro entry member
          simp [leading_not_conversation messages entry member]
        rw [silent, List.nil_append]
      rw [whole, isLast] at isLatest
      exact Json.obj.inj (Option.some.inj isLatest)
    have noPending : (placed written messages).pending = [] := by
      by_contra waiting
      rw [sameLast] at waits
      rw [waits waiting] at user
      cases user
    rcases @Arranged.run written _ _ _ _ more arranged with ⟨next, -, -, grown, isGrown⟩
    have extended : placed written (messages ++ more) =
        more.foldl (Placing.place written) (placed written messages) := by
      simp [placed, List.foldl_append]
    refine ⟨?_, ?_⟩
    · have whole : messages ++ more = leading messages ++ .obj first :: (rest ++ more) := by
        conv_lhs => rw [← leading_append_conversation messages, split]
        simp
      have silent : ∀ entry ∈ leading messages, (!isConversation entry) = true := by
        simpa using leading_not_conversation messages
      have stops : (leading messages ++ Json.obj first :: (rest ++ more)).takeWhile
          (fun entry => !isConversation entry) = leading messages := by
        rw [List.takeWhile_append_of_pos silent]
        simp [isConversation, notSystem]
      rw [whole]
      exact stops
    · have finished : (placed written messages).finish = placed written messages := by
        unfold Placing.finish
        rw [noPending]
        rfl
      rw [finished, extended]
      have ends : ∃ last, flattened (more.foldl (Placing.place written)
          (placed written messages)).finish.kept =
            flattened (more.foldl (Placing.place written) (placed written messages)).kept ++
              last := by
        unfold Placing.finish
        split_ifs
        · exact ⟨[], by simp⟩
        · exact ⟨_, flattened_append _ _⟩
      rcases ends with ⟨last, isLastOf⟩
      rw [isLastOf, isGrown, List.append_assoc]
      exact List.prefix_append _ _

/-- All that was sent is kept or moved, in its order, once and for all, and a conversation
that waits for the assistant is only ever continued. -/
theorem inline_system_normalisation {body : Fields} {messages : List Json}
    (isMessages : Json.get body "messages" = .arr messages) :
    (∀ entry ∈ messagesOf (normalizeInlineSystem written body), isSystemMessage entry = false) ∧
    (∃ slots : List Slot, messagesOf (normalizeInlineSystem written body) = slots.map Slot.render ∧
      (∀ slot ∈ slots, slot.Proper) ∧
      slots.flatMap Slot.originals = messages.filter (fun entry => !isSystemMessage entry) ∧
      slots.flatMap Slot.reminders =
        ((conversation messages).flatMap systemTexts).map (asSystemReminder written)) ∧
    Json.get (normalizeInlineSystem written body) "system" =
      systemAfter body ((leading messages).flatMap systemTexts) ∧
    normalizeInlineSystem written (normalizeInlineSystem written body) =
      normalizeInlineSystem written body ∧
    ∀ more latest, (messages.filter isConversation).getLast? = some (.obj latest) →
      isUser latest = true →
      Json.get (normalizeInlineSystem written
          (Json.put body "messages" (.arr (messages ++ more)))) "system" =
        Json.get (normalizeInlineSystem written body) "system" ∧
      flattened (messagesOf (normalizeInlineSystem written body)) <+:
        flattened (messagesOf (normalizeInlineSystem written
          (Json.put body "messages" (.arr (messages ++ more))))) := by
  rcases @normalizeInlineSystem_fields written body messages isMessages with
    ⟨kept, -, isSystem, -⟩
  rcases @placed_slots written messages with ⟨slots, facts⟩
  refine ⟨normalizeInlineSystem_messages isMessages,
    ⟨slots, kept.trans facts.kept, facts.proper, facts.originals, facts.reminders⟩, isSystem,
    normalizeInlineSystem_idem isMessages, ?_⟩
  intro more latest isLatest user
  have extended : Json.get (Json.put body "messages" (.arr (messages ++ more))) "messages" =
      .arr (messages ++ more) := by
    simp [Json.get_put]
  rcases @normalizeInlineSystem_fields written _ _ extended with ⟨keptMore, -, isSystemMore, -⟩
  rcases @placed_append written messages more latest isLatest user with ⟨sameLeading, grown⟩
  refine ⟨?_, ?_⟩
  · rw [isSystemMore, isSystem, sameLeading]
    simp [systemAfter, Json.get_put]
  · rw [kept, keptMore]
    exact grown

/-- A reminder about the time in a conversation that goes on. -/
theorem inline_system_normalisation_of_reminder :
    let body : Fields := [("messages", .arr
      [.obj [("role", .str "user"), ("content", .str "hi")],
        .obj [("role", .str "system"), ("content", .str "noon")]])]
    let longer : Fields := Json.put body "messages" (.arr
      [.obj [("role", .str "user"), ("content", .str "hi")],
        .obj [("role", .str "system"), ("content", .str "noon")],
        .obj [("role", .str "assistant"), ("content", .str "hello")]])
    Json.get (normalizeInlineSystem (fun _ => "") longer) "system" =
        Json.get (normalizeInlineSystem (fun _ => "") body) "system" ∧
      (messagesOf (normalizeInlineSystem (fun _ => "") body)).length = 1 ∧
      (messagesOf (normalizeInlineSystem (fun _ => "") longer)).length = 2 ∧
      flattened (messagesOf (normalizeInlineSystem (fun _ => "") body)) <+:
        flattened (messagesOf (normalizeInlineSystem (fun _ => "") longer)) := by
  intro body longer
  have placedAll := @inline_system_normalisation (fun _ => "") body _ rfl
  rcases placedAll.2.2.2.2 [.obj [("role", .str "assistant"), ("content", .str "hello")]]
    [("role", .str "user"), ("content", .str "hi")] (by simp [isConversation, Json.get, Json.isStr])
    (by decide) with ⟨system, grown⟩
  exact ⟨system, by decide +kernel, by decide +kernel, grown⟩

end HybridInference.Anthropic
