import HybridInference.Library.Dict
import HybridInference.Library.Numerals

/-!
# Token counts of an upstream's usage object

`serving.utils.token_utils`. A count that cannot be read is billed as zero, and a cache
count that cannot be read is not reported. Only what a conversion raises and no one catches
leaves a reader: the `OverflowError` of an integer without a double, and of an infinity.
-/

namespace HybridInference.Tokens

open Library

abbrev Usage := Dict String Value

def usageCountFields : List String :=
  ["prompt_tokens", "completion_tokens", "reasoning_tokens", "cache_read_tokens",
    "cache_write_tokens", "input_tokens", "output_tokens", "cache_read_input_tokens",
    "cache_creation_input_tokens"]

def cacheReadFields : List String :=
  ["cache_read_input_tokens", "cached_tokens", "cache_read_tokens", "prompt_cache_hit_tokens"]

def cacheWriteFields : List String := ["cache_creation_input_tokens", "cache_write_tokens"]

def get (usage : Usage) (field : String) : Value := (usage.find field).getD .null

/-- The count of a float; `_read_count` and `optional_token_count` read infinities, NaN and
negative numbers as none. -/
def countOf : PyFloat → Option ℕ
  | .finite value => if value.1 < 0 then none else some (PyFloat.toInt value.1).toNat
  | .infinite _ | .nan => none

def readCount : Value → Except PyError (Option ℕ)
  | .null | .bool _ | .arr _ | .obj _ => .ok none
  | .int value =>
    if !PyFloat.holdsInt value then .error .overflowError
    else if value < 0 then .ok none
    else .ok (some value.toNat)
  | .float value => .ok (countOf value)
  | .str text => .ok ((Text.float text.toList).bind countOf)

def usageCount (value : Value) : Except PyError ℕ :=
  if value.isNull then .ok 0 else (readCount value).map fun count => count.getD 0

def wholeOf : PyFloat → Option ℕ
  | .finite value =>
    if value.1 < 0 then none
    else if value.1 ≠ PyFloat.toInt value.1 then none
    else some (PyFloat.toInt value.1).toNat
  | .infinite _ | .nan => none

def optionalTokenCount : Value → Option ℕ
  | .null | .bool _ | .arr _ | .obj _ => none
  | .int value => if 0 ≤ value then some value.toNat else none
  | .float value => wholeOf value
  | .str text => (Text.float text.toList).bind wholeOf

/-- `clean[field] = usage_count(clean[field])`, where there is something. -/
def cleanCount (value : Value) : Except PyError Value :=
  if value.isNull then .ok value else (usageCount value).map fun count => .int count

def cleanTotal (value : Value) : Except PyError Value :=
  if value.isNull then .ok value
  else (readCount value).map fun count => count.elim .null fun count => .int count

def isDetails (field : String) : Bool := "_details".toList <:+ field.toList

/-- A `*_details` field that is not an object. -/
def isUnreadableDetails (usage : Usage) (field : String) : Bool :=
  isDetails field && match get usage field with
    | .null | .obj _ => false
    | _ => true

def fillCount (usage : Usage) (field : String) : Usage :=
  if (get usage field).isNull then usage.insert field (.int 0) else usage

def fillCounts (complete : Bool) (usage : Usage) : Usage :=
  if complete then fillCount (fillCount usage "prompt_tokens") "completion_tokens" else usage

def intOf : Value → ℤ
  | .int value => value
  | _ => 0

def fillTotal (complete : Bool) (usage : Usage) : Usage :=
  if complete && (get usage "total_tokens").isNull then
    usage.insert "total_tokens"
      (.int (intOf (get usage "prompt_tokens") + intOf (get usage "completion_tokens")))
  else usage

def dropDetails (usage : Usage) : Usage :=
  usage.eraseAll (usage.keys.filter (isUnreadableDetails usage))

def sanitizeUsage (usage : Usage) (complete : Bool) : Except PyError Usage := do
  let counted ← (fillCounts complete usage).updateEach cleanCount usageCountFields
  let totalled ← counted.updateEach cleanTotal ["total_tokens"]
  return dropDetails (fillTotal complete totalled)

def valuesAt (fields : List (String × Value)) (names : List String) : List Value :=
  names.filterMap fun name => fields.lookup name

def detailsAt (value : Value) (names : List String) : List Value :=
  match value with
  | .obj fields => valuesAt fields names
  | _ => []

/-- Where `extract_reasoning_tokens` looks, in its order. -/
def reasoningValues (usage : Usage) : List Value :=
  ["reasoning_tokens", "thoughts_token_count", "thinking_tokens"].filterMap usage.find ++
    detailsAt (get usage "completion_tokens_details") ["reasoning_tokens", "thinking_tokens"] ++
    detailsAt (get usage "usage_metadata")
      ["thoughts_token_count", "thinking_tokens", "reasoning_tokens"] ++
    detailsAt (get usage "prompt_tokens_details") ["reasoning_tokens"]

/-- `try: return int(value)`, for each of the values: what is neither a number nor text of
one is passed over. -/
def firstInt : List Value → Except PyError (Option ℤ)
  | [] => .ok none
  | value :: rest =>
    match value.readInt with
    | .ok count => .ok (some count)
    | .error .overflowError => .error .overflowError
    | .error .typeError | .error .valueError => firstInt rest

def extractReasoningTokens (usage : Usage) : Except PyError (Option ℤ) :=
  firstInt (reasoningValues usage)

def detailsFields : List String :=
  ["prompt_tokens_details", "input_tokens_details", "input_token_details"]

def nestedCacheReads : Value → List Value
  | .obj fields => ["cached_tokens", "cache_read_tokens", "cache_hit_tokens"].map
      (Value.get fields)
  | _ => []

/-- Where `extract_cache_tokens` looks for what was read from the cache, in its order. -/
def cacheReadValues (usage : Usage) : List Value :=
  cacheReadFields.map (get usage) ++
    detailsFields.flatMap fun field => nestedCacheReads (get usage field)

def cacheWriteValues (usage : Usage) : List Value := cacheWriteFields.map (get usage)

def sawNullDetails (usage : Usage) : Bool :=
  detailsFields.any fun field => (usage.find field).any Value.isNull

def extractCacheTokens (usage : Usage) (nullDetailsMeansMiss : Bool) : Option ℕ × Option ℕ :=
  let found := (cacheReadValues usage).findSome? optionalTokenCount
  let read :=
    if found.isNone && sawNullDetails usage && nullDetailsMeansMiss then some 0 else found
  (read, (cacheWriteValues usage).findSome? optionalTokenCount)

def isUnreadableCache (usage : Usage) (field : String) : Bool :=
  !(get usage field).isNull && (field ∈ cacheReadFields || field ∈ cacheWriteFields) &&
    (optionalTokenCount (get usage field)).isNone

def readableUsage (usage : Usage) : Usage :=
  usage.eraseAll (usage.keys.filter (isUnreadableCache usage))

/-- `normalized[field] = value`, where a value was found. -/
def addFound (usage : Usage) (field : String) (found : Option ℤ) : Usage :=
  found.elim usage fun value => usage.insert field (.int value)

def normalizeUsage (usage : Usage) : Except PyError (Option Usage) := do
  if usage.keys.isEmpty then return none
  let clean ← sanitizeUsage (readableUsage usage) false
  let reasoning ← extractReasoningTokens clean
  let (read, write) := extractCacheTokens clean false
  return some (addFound (addFound (addFound clean "reasoning_tokens" reasoning)
    "cache_read_tokens" (read.map fun count : ℕ => (count : ℤ)))
    "cache_write_tokens" (write.map fun count : ℕ => (count : ℤ)))

end HybridInference.Tokens
