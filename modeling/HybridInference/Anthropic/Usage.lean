import Mathlib.Algebra.Order.Group.Nat

/-!
# Token counts of a usage object

The readers of `serving.utils.token_utils` and `serving.storage.utils` that the
Anthropic surface applies to an upstream's usage object. A count is a natural
number; a field may also be null, or an object of counts.
-/

namespace HybridInference.Anthropic

inductive UsageValue where
  | count (value : ℕ)
  | null
  | details (fields : List (String × Option ℕ))
  deriving DecidableEq

abbrev Usage := List (String × UsageValue)

namespace Usage

/-- `usage.get(field)`; a field that is not there reads as null. -/
def get (usage : Usage) (field : String) : UsageValue :=
  (usage.lookup field).getD .null

/-- `field in usage`. -/
def has (usage : Usage) (field : String) : Bool :=
  (usage.lookup field).isSome

/-- `{**earlier, **later}`. -/
def merge (earlier later : Usage) : Usage := later ++ earlier

end Usage

/-- `optional_token_count`: what is not a count is not reported. -/
def optionalTokenCount : UsageValue → Option ℕ
  | .count value => some value
  | .null | .details _ => none

/-- `usage_count`: what is not a count is billed as zero. -/
def usageCount (value : UsageValue) : ℕ := (optionalTokenCount value).getD 0

def firstCount (usage : Usage) (fields : List String) : Option ℕ :=
  fields.findSome? fun field => optionalTokenCount (usage.get field)

def firstDetail (value : UsageValue) (fields : List String) : Option ℕ :=
  match value with
  | .details details => fields.findSome? fun field => (details.lookup field).join
  | .count _ | .null => none

/-- `extract_cache_tokens`, where a null details field is not a miss: what was read
from the cache, and what was written to it. -/
def extractCacheTokens (usage : Usage) : Option ℕ × Option ℕ :=
  let direct := firstCount usage
    ["cache_read_input_tokens", "cached_tokens", "cache_read_tokens", "prompt_cache_hit_tokens"]
  let nested := ["prompt_tokens_details", "input_tokens_details", "input_token_details"].findSome?
    fun field => firstDetail (usage.get field)
      ["cached_tokens", "cache_read_tokens", "cache_hit_tokens"]
  (direct.or nested, firstCount usage ["cache_creation_input_tokens", "cache_write_tokens"])

def extractReasoningTokens (usage : Usage) : Option ℕ :=
  (firstCount usage ["reasoning_tokens", "thoughts_token_count", "thinking_tokens"]).or
    ((firstDetail (usage.get "completion_tokens_details")
        ["reasoning_tokens", "thinking_tokens"]).or
      ((firstDetail (usage.get "usage_metadata")
          ["thoughts_token_count", "thinking_tokens", "reasoning_tokens"]).or
        (firstDetail (usage.get "prompt_tokens_details") ["reasoning_tokens"])))

structure UsageRecord where
  promptTokens : ℕ
  completionTokens : ℕ
  totalTokens : Option ℕ
  reasoningTokens : Option ℕ
  cacheReadTokens : Option ℕ
  cacheWriteTokens : Option ℕ
  deriving DecidableEq

def openaiUsageRecord (usage : Usage) : UsageRecord where
  promptTokens := usageCount (usage.get "prompt_tokens")
  completionTokens := usageCount (usage.get "completion_tokens")
  totalTokens := optionalTokenCount (usage.get "total_tokens")
  reasoningTokens := extractReasoningTokens usage
  cacheReadTokens := (extractCacheTokens usage).1
  cacheWriteTokens := (extractCacheTokens usage).2

/-- `billable_output_tokens`, of counts that a float holds exactly. -/
def billableOutputTokens (promptTokens completionTokens reasoningTokens : ℕ)
    (totalTokens : Option ℕ) : ℕ :=
  if reasoningTokens = 0 then completionTokens
  else if totalTokens = some (promptTokens + completionTokens) then completionTokens
  else completionTokens + reasoningTokens

def anthropicOutputTokens (record : UsageRecord) : ℕ :=
  billableOutputTokens record.promptTokens record.completionTokens
    (record.reasoningTokens.getD 0) record.totalTokens

structure AnthropicUsage where
  inputTokens : ℕ
  outputTokens : ℕ
  cacheReadInputTokens : Option ℕ := none
  cacheCreationInputTokens : Option ℕ := none
  deriving DecidableEq

end HybridInference.Anthropic
