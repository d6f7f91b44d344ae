import HybridInference.Anthropic.InlineSystem

/-!
# Where system messages go

Before the conversation begins their texts are put aside. From its first message on, the
messages that are kept are a list of slots: entries as they were sent, user messages
with reminders behind their leading tool results or at their end, and user messages that
only carry reminders.
-/

namespace HybridInference.Anthropic

open Library

inductive Slot where
  | sent (entry : Json)
  | reminded (message : Fields) (head tail : List Json)
  | inserted (blocks : List Json)

namespace Slot

def render : Slot → Json
  | .sent entry => entry
  | .reminded message head tail =>
    let blocks := contentBlocks (Json.get message "content")
    .obj (withContent message
      (blocks.takeWhile isToolResult ++ head ++ blocks.dropWhile isToolResult ++ tail))
  | .inserted blocks => userMessage blocks

def originals : Slot → List Json
  | .sent entry => [entry]
  | .reminded message _ _ => [.obj message]
  | .inserted _ => []

def reminders : Slot → List Json
  | .sent _ => []
  | .reminded _ head tail => head ++ tail
  | .inserted blocks => blocks

def Proper : Slot → Prop
  | .sent entry => isSystemMessage entry = false
  | .reminded message _ _ => isUser message = true
  | .inserted _ => True

def Holds (slot : Slot) (message : Fields) : Prop :=
  slot = .sent (.obj message) ∨ ∃ head tail, slot = .reminded message head tail

def remind (slot : Slot) (more : List Json) : Slot :=
  match slot with
  | .sent (.obj message) => .reminded message [] more
  | .reminded message head tail => .reminded message head (tail ++ more)
  | other => other

end Slot

def flattened (messages : List Json) : List (Json × Json) :=
  messages.flatMap fun message =>
    match message with
    | .obj fields =>
      (contentBlocks (Json.get fields "content")).map fun block => (Json.get fields "role", block)
    | _ => []

section Reminders

variable {message : Fields} {blocks more : List Json}

theorem get_withContent_role : Json.get (withContent message blocks) "role" =
    Json.get message "role" := by
  simp [withContent, Json.get_put]

theorem contentBlocks_withContent :
    contentBlocks (Json.get (withContent message blocks) "content") = blocks := by
  simp [withContent, Json.get_put, contentBlocks]

theorem not_system_of_isUser (user : isUser message = true) :
    (Json.get message "role").isStr "system" = false := by
  rw [isUser, Json.isStr_iff] at user
  rw [user]
  rfl

theorem split_takeWhile (blocks : List Json) :
    blocks.take (blocks.takeWhile isToolResult).length = blocks.takeWhile isToolResult ∧
      blocks.drop (blocks.takeWhile isToolResult).length = blocks.dropWhile isToolResult := by
  have whole : blocks.takeWhile isToolResult ++ blocks.dropWhile isToolResult = blocks :=
    List.takeWhile_append_dropWhile
  refine ⟨?_, ?_⟩
  · have taken : (blocks.takeWhile isToolResult ++ blocks.dropWhile isToolResult).take
        (blocks.takeWhile isToolResult).length = blocks.takeWhile isToolResult := List.take_left
    rwa [whole] at taken
  · have dropped : (blocks.takeWhile isToolResult ++ blocks.dropWhile isToolResult).drop
        (blocks.takeWhile isToolResult).length = blocks.dropWhile isToolResult := List.drop_left
    rwa [whole] at dropped

theorem withReminders_head : Json.obj (withReminders message more false) =
    (Slot.reminded message more []).render := by
  rcases split_takeWhile (contentBlocks (Json.get message "content")) with ⟨taken, dropped⟩
  simp [withReminders, Slot.render, taken, dropped]

variable {slot : Slot}

theorem withReminders_end {latest : Fields} (holds : slot.Holds message)
    (isLatest : slot.render = .obj latest) :
    Json.obj (withReminders latest more true) = (slot.remind more).render := by
  rcases holds with rfl | ⟨head, tail, rfl⟩
  · obtain rfl := Json.obj.inj isLatest
    have whole : (contentBlocks (Json.get message "content")).takeWhile isToolResult ++
        (contentBlocks (Json.get message "content")).dropWhile isToolResult =
          contentBlocks (Json.get message "content") := List.takeWhile_append_dropWhile
    simp [withReminders, Slot.remind, Slot.render, whole]
  · obtain rfl := Json.obj.inj isLatest
    have content : contentBlocks (Json.get (withContent message
        ((contentBlocks (Json.get message "content")).takeWhile isToolResult ++ head ++
          (contentBlocks (Json.get message "content")).dropWhile isToolResult ++ tail))
        "content") = _ := contentBlocks_withContent
    simp only [withReminders, if_true, content, Slot.remind, Slot.render, List.take_length,
      List.drop_length, List.append_nil]
    simp [withContent, Json.put_put]

theorem Slot.Holds.render (holds : slot.Holds message) :
    ∃ latest, slot.render = .obj latest ∧ Json.get latest "role" = Json.get message "role" := by
  rcases holds with rfl | ⟨head, tail, rfl⟩
  · exact ⟨message, rfl, rfl⟩
  · exact ⟨_, rfl, get_withContent_role⟩

theorem Slot.Holds.remind (holds : slot.Holds message) (more : List Json) :
    (slot.remind more).Holds message ∧ (slot.remind more).originals = slot.originals ∧
      (slot.remind more).reminders = slot.reminders ++ more := by
  rcases holds with rfl | ⟨head, tail, rfl⟩
  · exact ⟨Or.inr ⟨_, _, rfl⟩, rfl, by simp [Slot.remind, Slot.reminders]⟩
  · exact ⟨Or.inr ⟨_, _, rfl⟩, rfl, by simp [Slot.remind, Slot.reminders]⟩

theorem flattened_append (first second : List Json) :
    flattened (first ++ second) = flattened first ++ flattened second := by
  simp [flattened]

theorem flattened_cons (first : Json) (rest : List Json) :
    flattened (first :: rest) = flattened [first] ++ flattened rest := by
  simp [flattened]

theorem flattened_eq_nil {messages : List Json}
    (silent : ∀ message ∈ messages, ∀ fields, message ≠ .obj fields) : flattened messages = [] := by
  unfold flattened
  rw [List.flatMap_eq_nil_iff]
  intro message member
  cases message with
  | obj fields => exact absurd rfl (silent _ member fields)
  | _ => rfl

theorem flattened_withReminders (latest : Fields) (more : List Json) :
    flattened [.obj (withReminders latest more true)] =
      flattened [.obj latest] ++ more.map fun block => (Json.get latest "role", block) := by
  simp only [flattened, List.flatMap_cons, List.flatMap_nil, List.append_nil, withReminders,
    if_true, contentBlocks_withContent, get_withContent_role, List.take_length, List.drop_length,
    List.map_append]

end Reminders

def Silent (slots : List Slot) : Prop :=
  ∀ slot ∈ slots, ∃ entry, slot = .sent entry ∧ ∀ fields, entry ≠ .obj fields

/-- From the first message of the conversation on: the slots hold what was seen, the
latest message last, and reminders wait only behind a message that is not the user's. -/
structure Arranged (written : Json → String) (start seen : List Json) (placing : Placing)
    (slots : List Slot) : Prop where
  kept : placing.kept = start ++ slots.map Slot.render
  originals : slots.flatMap Slot.originals = seen.filter fun entry => !isSystemMessage entry
  reminders : slots.flatMap Slot.reminders ++ placing.pending =
    (seen.flatMap systemTexts).map (asSystemReminder written)
  proper : ∀ slot ∈ slots, slot.Proper
  latest : ∃ front last others message, slots = front ++ last :: others ∧
    placing.previous = some (start.length + front.length) ∧ Silent others ∧
    last.Holds message ∧ (seen.filter isConversation).getLast? = some (.obj message) ∧
    (placing.pending ≠ [] → isUser message = false)

section Steps

variable {written : Json → String} {start seen : List Json} {placing : Placing} {slots : List Slot}

theorem Silent.flattened (silent : Silent slots) : flattened (slots.map Slot.render) = [] := by
  apply flattened_eq_nil
  intro message member fields
  rcases List.mem_map.mp member with ⟨slot, isSlot, rfl⟩
  rcases silent slot isSlot with ⟨entry, rfl, noMessage⟩
  exact noMessage fields

theorem Silent.reminders (silent : Silent slots) : slots.flatMap Slot.reminders = [] := by
  rw [List.flatMap_eq_nil_iff]
  intro slot member
  rcases silent slot member with ⟨entry, rfl, -⟩
  rfl

theorem Arranged.entry {entry : Json} (arranged : Arranged written start seen placing slots)
    (noMessage : ∀ fields, entry ≠ .obj fields) :
    Arranged written start (seen ++ [entry])
      { placing with kept := placing.kept ++ [entry] } (slots ++ [.sent entry]) := by
  have notSystem : isSystemMessage entry = false := by
    cases entry with
    | obj fields => exact absurd rfl (noMessage fields)
    | _ => rfl
  have notConversation : isConversation entry = false := by
    cases entry with
    | obj fields => exact absurd rfl (noMessage fields)
    | _ => rfl
  have noTexts : systemTexts entry = [] := by
    cases entry with
    | obj fields => exact absurd rfl (noMessage fields)
    | _ => rfl
  rcases arranged.latest with ⟨front, last, others, message, split, isPrevious, silent, holds,
    isLatest, waits⟩
  refine ⟨by simp [arranged.kept, Slot.render], ?_, ?_, ?_, front, last, others ++ [.sent entry],
    message, by simp [split], isPrevious, ?_, holds, by simp [notConversation, isLatest], waits⟩
  · simp [arranged.originals, Slot.originals, notSystem]
  · simp [← arranged.reminders, Slot.reminders, noTexts]
  · intro slot member
    rcases List.mem_append.mp member with earlier | new
    · exact arranged.proper slot earlier
    · rw [List.mem_singleton.mp new]
      exact notSystem
  · intro slot member
    rcases List.mem_append.mp member with earlier | new
    · exact silent slot earlier
    · exact ⟨entry, List.mem_singleton.mp new, noMessage⟩

theorem Arranged.conversation {message : Fields}
    (arranged : Arranged written start seen placing slots)
    (notSystem : (Json.get message "role").isStr "system" = false) :
    ∃ more, Arranged written start (seen ++ [.obj message]) (placing.placeConversation message)
        (slots ++ more) ∧
      (placing.placeConversation message).kept = placing.kept ++ more.map Slot.render := by
  have isMessage : isConversation (.obj message) = true := by
    simp [isConversation, notSystem]
  have original : isSystemMessage (.obj message) = false := notSystem
  have noTexts : systemTexts (.obj message) = [] := by
    simp [systemTexts, notSystem]
  have isLatest : ((seen ++ [Json.obj message]).filter isConversation).getLast? =
      some (Json.obj message) := by
    simp [isMessage]
  have stays (more : List Slot) (proper : ∀ slot ∈ more, slot.Proper) :
      ∀ slot ∈ slots ++ more, slot.Proper := by
    intro slot member
    rcases List.mem_append.mp member with earlier | new
    · exact arranged.proper slot earlier
    · exact proper slot new
  unfold Placing.placeConversation
  by_cases empty : placing.pending.isEmpty = true
  · rw [if_pos empty]
    rw [List.isEmpty_iff] at empty
    refine ⟨[.sent (.obj message)], ⟨by simp [arranged.kept, Slot.render], ?_, ?_, ?_, slots,
      .sent (.obj message), [], message, rfl, ?_, by simp [Silent], Or.inl rfl, isLatest, ?_⟩,
      rfl⟩
    · simp [arranged.originals, Slot.originals, original]
    · simp [← arranged.reminders, Slot.reminders, noTexts]
    · exact stays _ (by simp [Slot.Proper, original])
    · simp [arranged.kept]
    · exact fun waiting => absurd empty waiting
  · rw [if_neg empty]
    by_cases user : isUser message = true
    · rw [if_pos user, withReminders_head]
      refine ⟨[.reminded message placing.pending []], ⟨by simp [arranged.kept], ?_, ?_, ?_, slots,
        .reminded message placing.pending [], [], message, rfl, ?_, by simp [Silent],
        Or.inr ⟨_, _, rfl⟩, isLatest, by simp⟩, rfl⟩
      · simp [arranged.originals, Slot.originals, original]
      · simp [← arranged.reminders, Slot.reminders, noTexts]
      · exact stays _ (by simp [Slot.Proper, user])
      · simp [arranged.kept]
    · rw [if_neg user]
      refine ⟨[.inserted placing.pending, .sent (.obj message)],
        ⟨by simp [arranged.kept, Slot.render], ?_, ?_, ?_, slots ++ [.inserted placing.pending],
        .sent (.obj message), [], message, by simp, ?_, by simp [Silent], Or.inl rfl, isLatest,
        by simp⟩, rfl⟩
      · simp [arranged.originals, Slot.originals, original]
      · simp [← arranged.reminders, Slot.reminders, noTexts]
      · exact stays _ (by simp [Slot.Proper, original])
      · simp [arranged.kept, Nat.add_assoc]

theorem Arranged.system {message : Fields} (arranged : Arranged written start seen placing slots)
    (system : (Json.get message "role").isStr "system" = true) :
    ∃ next, Arranged written start (seen ++ [.obj message])
        (placing.placeSystem written (systemTextBlocks (Json.get message "content"))) next ∧
      (placing.placeSystem written (systemTextBlocks (Json.get message "content"))).hoisted =
        placing.hoisted ∧
      ∃ more, flattened (placing.placeSystem written
        (systemTextBlocks (Json.get message "content"))).kept = flattened placing.kept ++ more := by
  have texts : systemTexts (.obj message) = systemTextBlocks (Json.get message "content") := by
    simp [systemTexts, system]
  have isSystem : isSystemMessage (.obj message) = true := system
  have notMessage : isConversation (.obj message) = false := by
    simp [isConversation, system]
  rcases arranged.latest with ⟨front, last, others, latest, split, isPrevious, silent, holds,
    isLatest, waits⟩
  simp only [Placing.placeSystem, isPrevious]
  by_cases noBlocks : (systemTextBlocks (Json.get message "content")).isEmpty = true
  · rw [if_pos noBlocks]
    rw [List.isEmpty_iff] at noBlocks
    refine ⟨slots, ⟨arranged.kept, ?_, ?_, arranged.proper, front, last, others, latest, split,
      isPrevious, silent, holds, by simp [notMessage, isLatest], waits⟩, rfl, [], by simp⟩
    · simp [arranged.originals, isSystem]
    · simp [arranged.reminders, texts, noBlocks]
  · rw [if_neg noBlocks]
    rcases holds.render with ⟨shown, isShown, sameRole⟩
    have keptSplit : placing.kept = (start ++ front.map Slot.render) ++
        last.render :: others.map Slot.render := by
      simp [arranged.kept, split]
    have place : start.length + front.length = (start ++ front.map Slot.render).length := by
      simp
    have found : placing.kept[start.length + front.length]? = some (.obj shown) := by
      rw [keptSplit, place, List.getElem?_append_right le_rfl, Nat.sub_self]
      simp [isShown]
    have sameUser : isUser shown = isUser latest := by
      simp [isUser, sameRole]
    have originals : (seen ++ [Json.obj message]).filter (fun entry => !isSystemMessage entry) =
        seen.filter fun entry => !isSystemMessage entry := by
      simp [isSystem]
    have latestKept : ((seen ++ [Json.obj message]).filter isConversation).getLast? =
        some (.obj latest) := by
      simp [notMessage, isLatest]
    rw [found]
    dsimp only
    by_cases user : isUser latest = true
    · rw [if_pos (sameUser.trans user), withReminders_end holds isShown]
      have noPending : placing.pending = [] := by
        by_contra waiting
        rw [waits waiting] at user
        cases user
      rcases holds.remind ((systemTextBlocks (Json.get message "content")).map
        (asSystemReminder written)) with ⟨stillHolds, sameOriginals, moreReminders⟩
      refine ⟨front ++ last.remind ((systemTextBlocks (Json.get message "content")).map
        (asSystemReminder written)) :: others, ⟨?_, ?_, ?_, ?_, front, _, others, latest, rfl,
          rfl, silent, stillHolds, latestKept, fun waiting => absurd noPending waiting⟩,
        rfl, ?_⟩
      · rw [keptSplit, place, List.set_append_right _ _ le_rfl, Nat.sub_self]
        simp
      · rw [originals, ← arranged.originals, split]
        simp [sameOriginals]
      · have earlier := arranged.reminders
        rw [split, noPending] at earlier
        simp only [List.flatMap_append, List.flatMap_cons, silent.reminders, List.append_nil]
          at earlier ⊢
        rw [List.map_append, ← earlier, noPending]
        simp [moreReminders, texts]
      · intro slot member
        have proper := arranged.proper
        rw [split] at proper
        rcases List.mem_append.mp member with before | after
        · exact proper slot (by simp [before])
        · rcases List.mem_cons.mp after with rfl | other
          · rcases stillHolds with sent | ⟨head, tail, reminded⟩
            · rcases holds with rfl | ⟨_, _, rfl⟩ <;> cases sent
            · rw [reminded]
              exact user
          · exact proper slot (by simp [other])
      · rw [keptSplit, place, List.set_append_right _ _ le_rfl, Nat.sub_self]
        refine ⟨((systemTextBlocks (Json.get message "content")).map
          (asSystemReminder written)).map fun block => (Json.get shown "role", block), ?_⟩
        simp only [List.set_cons_zero, flattened_append]
        rw [flattened_cons, flattened_cons last.render, silent.flattened,
          ← withReminders_end holds isShown, flattened_withReminders, isShown]
        simp
    · rw [if_neg (by rw [sameUser]; exact user)]
      refine ⟨slots, ⟨arranged.kept, ?_, ?_, arranged.proper, front, last, others, latest, split,
        rfl, silent, holds, latestKept, fun _ => by simpa using user⟩, rfl, [], by simp⟩
      · rw [originals]
        exact arranged.originals
      · rw [List.flatMap_append, List.map_append, ← arranged.reminders]
        simp [texts]

end Steps

end HybridInference.Anthropic
