import HybridInference.Library.Json

/-!
# System messages inside `messages`

`normalize_inline_system` for a body whose messages are any JSON values. A system
message joins the `system` field before the conversation begins, and becomes a reminder
in a neighbouring user message later on. What Python's `str` makes of a text that is no
string is left open.
-/

namespace HybridInference.Anthropic

open Library

abbrev Fields := List (String × Json)

def isSystemMessage : Json → Bool
  | .obj fields => (Json.get fields "role").isStr "system"
  | _ => false

def isConversation : Json → Bool
  | .obj fields => !(Json.get fields "role").isStr "system"
  | _ => false

def textBlock (text : String) : Fields := [("type", .str "text"), ("text", .str text)]

def nonemptyText : Json → Option Fields
  | .obj block =>
    if (Json.get block "type").isStr "text" && (Json.get block "text").truthy then some block
    else none
  | _ => none

def systemTextBlocks : Json → List Fields
  | .str text => if text ≠ "" then [textBlock text] else []
  | .arr items => items.filterMap nonemptyText
  | _ => []

def systemTexts : Json → List Fields
  | .obj fields =>
    if (Json.get fields "role").isStr "system" then systemTextBlocks (Json.get fields "content")
    else []
  | _ => []

def contentBlocks : Json → List Json
  | .str text => if text ≠ "" then [.obj (textBlock text)] else []
  | .arr items => items
  | .obj fields => [.obj fields]
  | _ => []

def isToolResult : Json → Bool
  | .obj block => (Json.get block "type").isStr "tool_result"
  | _ => false

def withContent (message : Fields) (blocks : List Json) : Fields :=
  Json.put message "content" (.arr blocks)

def withReminders (message : Fields) (reminders : List Json) (atEnd : Bool) : Fields :=
  let blocks := contentBlocks (Json.get message "content")
  let split := if atEnd then blocks.length else (blocks.takeWhile isToolResult).length
  withContent message (blocks.take split ++ reminders ++ blocks.drop split)

def userMessage (blocks : List Json) : Json :=
  .obj [("role", .str "user"), ("content", .arr blocks)]

def isUser (message : Fields) : Bool := (Json.get message "role").isStr "user"

/-- The state of the loop; `previous` is the place of the latest message in `kept`. -/
structure Placing where
  hoisted : List Fields := []
  kept : List Json := []
  pending : List Json := []
  previous : Option ℕ := none

section Loop

variable (written : Json → String)

def asSystemReminder (block : Fields) : Json :=
  let text := match Json.get block "text" with
    | .str text => text
    | value => written value
  .obj (Json.put block "text" (.str ("<system-reminder>\n" ++ text ++ "\n</system-reminder>")))

namespace Placing

def placeConversation (placing : Placing) (message : Fields) : Placing :=
  if placing.pending.isEmpty then
    { placing with
      kept := placing.kept ++ [.obj message]
      previous := some placing.kept.length }
  else if isUser message then
    { placing with
      kept := placing.kept ++ [.obj (withReminders message placing.pending false)]
      pending := []
      previous := some placing.kept.length }
  else
    { placing with
      kept := placing.kept ++ [userMessage placing.pending, .obj message]
      pending := []
      previous := some (placing.kept.length + 1) }

def placeSystem (placing : Placing) (blocks : List Fields) : Placing :=
  match placing.previous with
  | none => { placing with hoisted := placing.hoisted ++ blocks }
  | some place =>
    if blocks.isEmpty then placing
    else
      let reminders := blocks.map (asSystemReminder written)
      match placing.kept[place]? with
      | some (.obj latest) =>
        if isUser latest then
          { placing with
            kept := placing.kept.set place (.obj (withReminders latest reminders true)) }
        else { placing with pending := placing.pending ++ reminders }
      | _ => placing

def place (placing : Placing) : Json → Placing
  | .obj message =>
    if (Json.get message "role").isStr "system" then
      placing.placeSystem written (systemTextBlocks (Json.get message "content"))
    else placing.placeConversation message
  | other => { placing with kept := placing.kept ++ [other] }

def finish (placing : Placing) : Placing :=
  if placing.pending.isEmpty then placing
  else { placing with kept := placing.kept ++ [userMessage placing.pending] }

end Placing

/-- What the `system` field holds before the texts that join it. -/
def existingSystem : Json → List Json
  | .str text => [.obj (textBlock text)]
  | .arr blocks => blocks
  | _ => []

def normalizeInlineSystem (body : Fields) : Fields :=
  match Json.get body "messages" with
  | .arr messages =>
    if messages.any isSystemMessage then
      let placed := (messages.foldl (Placing.place written) {}).finish
      let normalized := Json.put body "messages" (.arr placed.kept)
      if placed.hoisted.isEmpty then normalized
      else
        Json.put normalized "system"
          (.arr (existingSystem (Json.get body "system") ++ placed.hoisted.map Json.obj))
    else body
  | _ => body

end Loop

end HybridInference.Anthropic
