import HybridInference.Library.OrderedDict
import HybridInference.Library.ValueEquality

/-!
# Payload de-duplication

`serving.storage.payload_dedup`: a request body is logged without the messages and tools that the
same row stores in columns of their own. The fields of a message that its column did not keep stay
behind in `messages_extra`, by index. Reading a row back is the rule of the module's docstring.
-/

namespace HybridInference.Logs

open Library

abbrev Fields := OrderedDict String Value

def messageResidualKey : String := "messages_extra"

def asDict : Value → Option Fields
  | .obj fields => some fields
  | _ => none

def asList : Value → Option (List Value)
  | .arr items => some items
  | _ => none

def residual (sent stored : Fields) : Fields :=
  sent.filter fun field =>
    match stored.lookup field.1 with
    | some value => !value.equal field.2
    | none => true

def aligned (sent stored : Value) : Option (List (Fields × Fields)) :=
  (asList sent).bind fun sent =>
    (asList stored).bind fun stored =>
      if sent.length = stored.length then
        (sent.zip stored).mapM fun pair =>
          (asDict pair.1).bind fun sent => (asDict pair.2).map fun stored => (sent, stored)
      else none

def messageResiduals (sent stored : Value) : Bool × Option (List Fields) :=
  match aligned sent stored with
  | none => (false, none)
  | some pairs =>
    let residuals := pairs.map fun pair => residual pair.1 pair.2
    if residuals.any fun residual => !residual.isEmpty then (true, some residuals)
    else (true, none)

/-- What `_strip_dict` makes of the messages. -/
def stripMessages (payload : Fields) (storedMessages : Value) : Fields :=
  match payload.lookup "messages" with
  | none => payload
  | some sent =>
    let (strippable, residuals) := messageResiduals sent storedMessages
    if strippable && !(residuals.isSome && (payload.lookup messageResidualKey).isSome) then
      match residuals with
      | some residuals =>
        OrderedDict.assign messageResidualKey (.arr (residuals.map Value.obj))
          (OrderedDict.remove "messages" payload)
      | none => OrderedDict.remove "messages" payload
    else payload

def stripDict (payload : Fields) (storedMessages storedTools : Value) : Fields :=
  let result := stripMessages payload storedMessages
  match result.lookup "tools" with
  | some tools =>
    if storedTools.isTruthy && tools.equal storedTools then OrderedDict.remove "tools" result
    else result
  | none => result

/-- `strip_duplicated_payload_keys` of a body that is a dictionary. -/
def stripDuplicatedPayloadKeys (payload : Fields) (storedMessages storedTools : Value) : Fields :=
  if ["messages", "tools"].any fun key => (payload.lookup key).isSome then
    stripDict payload storedMessages storedTools
  else payload

def overlayFields (fields extra : Fields) : Fields :=
  extra.foldr (fun field fields => OrderedDict.assign field.1 field.2 fields) fields

/-- A stored message with what an index of `messages_extra` adds to it. -/
def overlayMessage (message : Value) (extra : Option Value) : Value :=
  match asDict message, extra.bind asDict with
  | some fields, some extra => .obj (overlayFields fields extra)
  | _, _ => message

/-- `messages_extra` applied by index. -/
def overlay (stored : Value) (extra : Option Value) : Value :=
  match asList stored, extra.bind asList with
  | some messages, some extras =>
    .arr (messages.mapIdx fun index message => overlayMessage message extras[index]?)
  | _, _ => stored

def readMessages (row : Fields) (storedMessages : Value) : Value :=
  match row.lookup "messages" with
  | some messages => messages
  | none => overlay storedMessages (row.lookup messageResidualKey)

def readTools (row : Fields) (storedTools : Value) : Value :=
  (row.lookup "tools").getD storedTools

section Recovery

variable (same : Value → Value → Prop)

def MessageRecovered (sent back : Value) : Prop :=
  match asDict sent with
  | some fields => ∃ found, asDict back = some found ∧
      ∀ name value, fields.lookup name = some value →
        ∃ read, found.lookup name = some read ∧ same value read
  | none => back = sent

def MessagesRecovered (sent back : Value) : Prop :=
  match asList sent with
  | some messages => ∃ found, asList back = some found ∧
      List.Forall₂ (MessageRecovered same) messages found
  | none => back = sent

/-- What a row gives back of a body: as many messages with every field that was sent, the same
tools, and every other key as it was. What was not sent is not read back. -/
structure Recovered (body : Fields) (storedMessages storedTools : Value) : Prop where
  messages : ∀ sent, body.lookup "messages" = some sent → MessagesRecovered same sent
    (readMessages (stripDuplicatedPayloadKeys body storedMessages storedTools) storedMessages)
  noMessages : body.lookup "messages" = none →
    readMessages (stripDuplicatedPayloadKeys body storedMessages storedTools) storedMessages = .null
  tools : ∀ sent, body.lookup "tools" = some sent → same sent
    (readTools (stripDuplicatedPayloadKeys body storedMessages storedTools) storedTools)
  noTools : body.lookup "tools" = none →
    readTools (stripDuplicatedPayloadKeys body storedMessages storedTools) storedTools = .null
  others : ∀ key, key ≠ "messages" → key ≠ "tools" → ∀ value, body.lookup key = some value →
    (stripDuplicatedPayloadKeys body storedMessages storedTools).lookup key = some value

end Recovery

end HybridInference.Logs
