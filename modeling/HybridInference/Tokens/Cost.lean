import HybridInference.Library.ExactNumber
import HybridInference.Tokens.Counts

/-!
# What a request is charged, and what is logged of it

`CostTracker.charge` of `serving.servers.routers.completions_cost` bills a request at the
prices that `_pricing_from_dict` reads once; `calculate_cost` of `serving.storage.utils` reads
the prices again for the log row. Both compute with exact numbers here.
-/

namespace HybridInference.Tokens

open Library

abbrev RawPricing := Dict String Value

structure Pricing where
  promptPrice : Exact
  completionPrice : Exact
  cacheReadPrice : Exact
  cacheWritePrice : Exact

def priceFields : List String :=
  ["prompt", "completion", "input_cache_reads", "input_cache_writes"]

/-- `raw.get(field, "0")`. -/
def price (raw : RawPricing) (field : String) : Value := (raw.find field).getD (.str "0")

/-- `value or 0`. -/
def orZero (value : Value) : Value := if value.isTruthy then value else .int 0

def pricingFromDict (raw : RawPricing) : Option Pricing := do
  let prompt ← Exact.ofValue (price raw "prompt")
  let completion ← Exact.ofValue (price raw "completion")
  let cacheRead ← Exact.ofValue (orZero (price raw "input_cache_reads"))
  let cacheWrite ← Exact.ofValue (orZero (price raw "input_cache_writes"))
  if (raw.find "prompt").isNone && (raw.find "completion").isNone then none
  else some ⟨prompt, completion, cacheRead, cacheWrite⟩

def billableOutputTokens (prompt completion reasoning : Exact) (total : Option Exact) : Exact :=
  if reasoning.isNonPositive then completion
  else
    match total with
    | none => completion.add reasoning
    | some total =>
      if total.isClose (prompt.add completion) (10 ^ 9 : ℚ)⁻¹ then completion
      else completion.add reasoning

structure BilledTokens where
  prompt : Exact
  completion : Exact
  reasoning : Exact
  total : Option Exact
  cacheRead : Exact
  cacheWrite : Exact

/-- What `_compute_cost` and `calculate_cost` do once counts and prices are read. -/
def cost (tokens : BilledTokens) (pricing : Pricing) : Exact :=
  let uncached :=
    if Exact.lt (.finite 0) pricing.cacheReadPrice then tokens.prompt.sub tokens.cacheRead
    else tokens.prompt
  let unwritten :=
    if Exact.lt (.finite 0) pricing.cacheWritePrice then uncached.sub tokens.cacheWrite
    else uncached
  let output :=
    billableOutputTokens tokens.prompt tokens.completion tokens.reasoning tokens.total
  ((((unwritten.max (.finite 0)).mul pricing.promptPrice).scaleDown 1000000).add
      ((output.mul pricing.completionPrice).scaleDown 1000000)).add
    ((tokens.cacheRead.mul pricing.cacheReadPrice).scaleDown 1000000) |>.add
    ((tokens.cacheWrite.mul pricing.cacheWritePrice).scaleDown 1000000)

/-- The token counts that a caller gives to `charge`. -/
structure ChargedTokens where
  promptTokens : ℤ
  completionTokens : ℤ
  totalTokens : Option ℤ
  cacheReadTokens : Value
  cacheWriteTokens : Value
  reasoningTokens : ℤ

/-- `int(usage.get(field, 0) or 0)`. -/
def intOrZero (value : Value) : Except PyError ℤ :=
  if value.isTruthy then value.readInt else .ok 0

/-- `int(usage[field]) if usage.get(field) is not None else None`. -/
def intOrNone (value : Value) : Except PyError (Option ℤ) :=
  if value.isNull then .ok none else value.readInt.map some

/-- The arguments of a caller of `charge`. -/
def chargedTokens (usage : Usage) : Except PyError ChargedTokens := do
  let prompt ← intOrZero (get usage "prompt_tokens")
  let completion ← intOrZero (get usage "completion_tokens")
  let total ← intOrNone (get usage "total_tokens")
  let reasoning ← intOrZero (get usage "reasoning_tokens")
  return {
    promptTokens := prompt
    completionTokens := completion
    totalTokens := total
    cacheReadTokens := get usage "cache_read_tokens"
    cacheWriteTokens := get usage "cache_write_tokens"
    reasoningTokens := reasoning }

def computeCost (tokens : ChargedTokens) (pricing : Pricing) : Option Exact := do
  let cacheRead ← Exact.ofValue (orZero tokens.cacheReadTokens)
  let cacheWrite ← Exact.ofValue (orZero tokens.cacheWriteTokens)
  return cost {
    prompt := .finite tokens.promptTokens
    completion := .finite tokens.completionTokens
    reasoning := .finite tokens.reasoningTokens
    total := tokens.totalTokens.map fun total : ℤ => .finite total
    cacheRead := cacheRead
    cacheWrite := cacheWrite } pricing

structure Charge where
  /-- `upstream_cost_usd` of the routing, which is also what `observe_billing` gets. -/
  upstreamCost : Option Exact
  /-- What the spend ledger records, where there is a store. -/
  recorded : Option Exact

def charge (tokens : ChargedTokens) (pricing : Option Pricing) : Charge :=
  match pricing with
  | none => ⟨none, none⟩
  | some pricing =>
    match computeCost tokens pricing with
    | none => ⟨none, none⟩
    | some cost =>
      ⟨some cost, if cost.isNonPositive then none else some cost⟩

def chargeFor (usage : Usage) (raw : RawPricing) : Except PyError Charge := do
  let tokens ← chargedTokens usage
  return charge tokens (pricingFromDict raw)

/-- `float(raw) if raw is not None else 0.0`. -/
def numberOrZero (value : Value) : Option Exact :=
  if value.isNull then some (.finite 0) else Exact.ofValue value

/-- `float(raw) if raw is not None else None`. -/
def numberOrNone (value : Value) : Option (Option Exact) :=
  if value.isNull then some none else (Exact.ofValue value).map some

def calculateCost (usage : Usage) (raw : RawPricing) : Option Exact := do
  if usage.keys.isEmpty || raw.keys.isEmpty then none
  else
    let prompt ← numberOrZero (get usage "prompt_tokens")
    let completion ← numberOrZero (get usage "completion_tokens")
    let reasoning ← numberOrZero (get usage "reasoning_tokens")
    let total ← numberOrNone (get usage "total_tokens")
    let cacheRead ← numberOrZero (get usage "cache_read_tokens")
    let cacheWrite ← numberOrZero (get usage "cache_write_tokens")
    let promptPrice ← Exact.ofValue (price raw "prompt")
    let completionPrice ← Exact.ofValue (price raw "completion")
    let cacheReadPrice ← Exact.ofValue (price raw "input_cache_reads")
    let cacheWritePrice ← Exact.ofValue (price raw "input_cache_writes")
    some (cost ⟨prompt, completion, reasoning, total, cacheRead, cacheWrite⟩
      ⟨promptPrice, completionPrice, cacheReadPrice, cacheWritePrice⟩)

end HybridInference.Tokens
