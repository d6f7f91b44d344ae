import HybridInference.Tokens.Cost
import HybridInference.Tokens.Unfailing

/-!
# The charged cost and the logged cost

Both readers make the same numbers of the counts of a normalized usage. The prices are read
alike but for two differences: the charge reads an empty cache price as zero where the log
gives up on it, and it asks for a prompt or a completion price where the log does not.
-/

namespace HybridInference.Tokens

open Library

/-- What `normalize_usage` made of some usage object. -/
structure NormalizedUsage where
  usage : Usage
  normalized : ∃ raw, normalizeUsage raw = .ok (some usage)
  nonempty : usage.keys.isEmpty = false

def NormalizedUsage.ofRaw (raw : Usage) : Option NormalizedUsage :=
  match normalized : normalizeUsage raw with
  | .ok (some usage) =>
    if nonempty : usage.keys.isEmpty = false then some ⟨usage, ⟨raw, normalized⟩, nonempty⟩
    else none
  | _ => none

structure PricingTable where
  raw : RawPricing
  nonempty : raw.keys.isEmpty = false

def cachePriceFields : List String := ["input_cache_reads", "input_cache_writes"]

def isRead (raw : RawPricing) (field : String) : Bool :=
  (Exact.ofValue (price raw field)).isSome

/-- The request is charged what is logged of it, and never less than nothing. -/
structure ChargedAsLogged (usage : NormalizedUsage) (pricing : PricingTable) : Prop where
  charged : ∃ charged, chargeFor usage.usage pricing.raw = .ok charged ∧
    charged.upstreamCost = calculateCost usage.usage pricing.raw ∧
    charged.recorded =
      (calculateCost usage.usage pricing.raw).filter fun cost => !cost.isNonPositive
  nonneg : (∀ field ∈ priceFields, ∀ amount,
      Exact.ofValue (price pricing.raw field) = some amount → amount.isNegative = false) →
    (∀ charged, chargeFor usage.usage pricing.raw = .ok charged →
      ∀ amount, charged.upstreamCost = some amount → amount.isNegative = false) ∧
    ∀ amount, calculateCost usage.usage pricing.raw = some amount → amount.isNegative = false

def PricedAlike (raw : RawPricing) : Prop :=
  isRead raw "prompt" = false ∨ isRead raw "completion" = false ∨
    (∃ field ∈ cachePriceFields, (price raw field).isTruthy = true ∧ isRead raw field = false) ∨
    ((raw.find "prompt").isSome = true ∨ (raw.find "completion").isSome = true ↔
      ∀ field ∈ cachePriceFields, isRead raw field = true)

section Counts

def IsInt (value : Value) : Prop := value = .null ∨ ∃ count : ℤ, value = .int count

variable {value : Value}

theorem numberOrZero_of_isInt (isInt : IsInt value) :
    numberOrZero value = some (.finite (intOf value)) := by
  rcases isInt with rfl | ⟨count, rfl⟩ <;> simp [numberOrZero, intOf, Value.isNull, Exact.ofValue]

theorem ofValue_orZero_of_isInt (isInt : IsInt value) :
    Exact.ofValue (orZero value) = some (.finite (intOf value)) := by
  rcases isInt with rfl | ⟨count, rfl⟩
  · simp [orZero, intOf, Value.isTruthy, Exact.ofValue]
  · by_cases zero : count = 0 <;> simp [orZero, intOf, Value.isTruthy, Exact.ofValue, zero]

theorem intOrZero_of_isInt (isInt : IsInt value) : intOrZero value = .ok (intOf value) := by
  rcases isInt with rfl | ⟨count, rfl⟩
  · rfl
  · by_cases zero : count = 0 <;> simp [intOrZero, intOf, Value.isTruthy, Value.readInt, zero]

def intOption (value : Value) : Option ℤ := if value.isNull then none else some (intOf value)

theorem intOrNone_of_isInt (isInt : IsInt value) : intOrNone value = .ok (intOption value) := by
  rcases isInt with rfl | ⟨count, rfl⟩ <;> rfl

theorem numberOrNone_of_isInt (isInt : IsInt value) :
    numberOrNone value = some ((intOption value).map fun total : ℤ => .finite total) := by
  rcases isInt with rfl | ⟨count, rfl⟩ <;> rfl

end Counts

section Normalized

variable {usage : Usage}

def billedFields : List String :=
  ["prompt_tokens", "completion_tokens", "total_tokens", "cache_read_tokens",
    "cache_write_tokens", "reasoning_tokens"]

theorem flattened_of_normalizeUsage {raw : Usage} (ran : normalizeUsage raw = .ok (some usage)) :
    ∃ clean reasoning, usage = flattened clean reasoning ∧
      ∀ field ∈ countNames, ∀ value, clean.find field = some value → Settled value := by
  rcases small_of_normalizeUsage ran with ⟨nonempty, small⟩
  rcases sanitizeUsage_find small with ⟨clean, sanitized, finds⟩
  rw [normalizeUsage_eq nonempty sanitized] at ran
  cases found : extractReasoningTokens clean with
  | error raised =>
    rw [found] at ran
    contradiction
  | ok reasoning =>
    rw [found] at ran
    refine ⟨clean, reasoning, (Option.some.inj (Except.ok.inj ran)).symm, ?_⟩
    intro field inside value there
    exact settled_sanitized finds small inside there

theorem intOf_nonneg_of_settled {value : Value} (settled : Settled value) : 0 ≤ intOf value := by
  rcases settled with rfl | ⟨count, rfl, -⟩
  · exact le_rfl
  · exact Int.natCast_nonneg count

theorem billed_of_normalized (normalized : ∃ raw, normalizeUsage raw = .ok (some usage))
    {field : String} (billed : field ∈ billedFields) :
    IsInt (get usage field) ∧ (field ≠ "reasoning_tokens" → 0 ≤ intOf (get usage field)) := by
  rcases normalized with ⟨raw, ran⟩
  rcases flattened_of_normalizeUsage ran with ⟨clean, reasoning, rfl, settled⟩
  have inside : field ∈ countNames := by
    revert field
    decide
  have kept : (flattened clean reasoning).find field = clean.find field →
      IsInt (get (flattened clean reasoning) field) ∧
        0 ≤ intOf (get (flattened clean reasoning) field) := by
    intro same
    rw [get_congr same]
    cases there : clean.find field with
    | none =>
      rw [get, there]
      exact ⟨Or.inl rfl, le_rfl⟩
    | some value =>
      rw [get_of_find there]
      refine ⟨?_, intOf_nonneg_of_settled (settled field inside value there)⟩
      rcases settled field inside value there with null | ⟨count, isCount, -⟩
      · exact Or.inl null
      · exact Or.inr ⟨count, isCount⟩
  have counted : ∀ count : ℤ, (flattened clean reasoning).find field = some (.int count) →
      IsInt (get (flattened clean reasoning) field) ∧
        intOf (get (flattened clean reasoning) field) = count := by
    intro count there
    rw [get_of_find there]
    exact ⟨Or.inr ⟨count, rfl⟩, rfl⟩
  have looked {read : Option ℕ} (found : (flattened clean reasoning).find field =
      (read.map fun count : ℕ => Value.int count).or (clean.find field)) :
      IsInt (get (flattened clean reasoning) field) ∧
        (field ≠ "reasoning_tokens" → 0 ≤ intOf (get (flattened clean reasoning) field)) := by
    cases read with
    | none => exact ⟨(kept found).1, fun _ => (kept found).2⟩
    | some count =>
      rcases counted count found with ⟨isInt, eq⟩
      exact ⟨isInt, fun _ => eq ▸ Int.natCast_nonneg count⟩
  have found := find_flattened clean reasoning field
  split_ifs at found with isReasoning
  · cases reasoning with
    | none => exact ⟨(kept found).1, fun other => absurd isReasoning other⟩
    | some count => exact ⟨(counted count found).1, fun other => absurd isReasoning other⟩
  · exact looked found
  · exact looked found
  · exact ⟨(kept found).1, fun _ => (kept found).2⟩

end Normalized

section Prices

variable {raw : RawPricing} {value : Value} {amount : Exact}

theorem orZero_of_isTruthy (truthy : value.isTruthy = true) : orZero value = value := by
  simp [orZero, truthy]

theorem orZero_of_not_isTruthy (falsy : value.isTruthy = false) : orZero value = .int 0 := by
  simp [orZero, falsy]

theorem ofValue_orZero (read : Exact.ofValue value = some amount) :
    Exact.ofValue (orZero value) = some amount := by
  cases truthy : value.isTruthy with
  | true => rw [orZero_of_isTruthy truthy, read]
  | false =>
    rw [orZero_of_not_isTruthy truthy, ← read]
    cases value with
    | null => contradiction
    | bool value =>
      obtain rfl : value = false := truthy
      rfl
    | int value =>
      obtain rfl : value = 0 := by simpa [Value.isTruthy] using truthy
      rfl
    | float value =>
      cases value with
      | finite value =>
        have zero : value.1 = 0 := by simpa [Value.isTruthy] using truthy
        simp [Exact.ofValue, Exact.ofFloat, zero]
      | infinite negative => contradiction
      | nan => contradiction
    | str text =>
      obtain rfl : text = "" := by simpa [Value.isTruthy] using truthy
      exact absurd read (by
        have unread : Exact.ofValue (.str "") = none := by decide +kernel
        simp [unread])
    | arr items => contradiction
    | obj fields => contradiction

theorem ofValue_orZero_isSome_iff : (Exact.ofValue (orZero value)).isSome = true ↔
      ¬(value.isTruthy = true ∧ (Exact.ofValue value).isSome = false) := by
  cases truthy : value.isTruthy with
  | true =>
    rw [orZero_of_isTruthy truthy]
    cases Exact.ofValue value <;> simp
  | false => simp [orZero_of_not_isTruthy truthy, Exact.ofValue]

def loggedPricing (raw : RawPricing) : Option Pricing := do
  let prompt ← Exact.ofValue (price raw "prompt")
  let completion ← Exact.ofValue (price raw "completion")
  let cacheRead ← Exact.ofValue (price raw "input_cache_reads")
  let cacheWrite ← Exact.ofValue (price raw "input_cache_writes")
  some ⟨prompt, completion, cacheRead, cacheWrite⟩

theorem loggedPricing_isSome_iff : (loggedPricing raw).isSome = true ↔ isRead raw "prompt" = true ∧
      isRead raw "completion" = true ∧ ∀ field ∈ cachePriceFields, isRead raw field = true := by
  simp only [cachePriceFields, List.forall_mem_cons]
  unfold loggedPricing isRead
  generalize Exact.ofValue (price raw "prompt") = prompt
  generalize Exact.ofValue (price raw "completion") = completion
  generalize Exact.ofValue (price raw "input_cache_reads") = cacheRead
  generalize Exact.ofValue (price raw "input_cache_writes") = cacheWrite
  cases prompt <;> cases completion <;> cases cacheRead <;> cases cacheWrite <;> simp

theorem pricingFromDict_isSome_iff :
    (pricingFromDict raw).isSome = true ↔ isRead raw "prompt" = true ∧
      isRead raw "completion" = true ∧
      (∀ field ∈ cachePriceFields,
        ¬((price raw field).isTruthy = true ∧ isRead raw field = false)) ∧
      ((raw.find "prompt").isSome = true ∨ (raw.find "completion").isSome = true) := by
  simp only [cachePriceFields, List.forall_mem_cons, isRead, ← ofValue_orZero_isSome_iff]
  unfold pricingFromDict
  generalize Exact.ofValue (price raw "prompt") = prompt
  generalize Exact.ofValue (price raw "completion") = completion
  generalize Exact.ofValue (orZero (price raw "input_cache_reads")) = cacheRead
  generalize Exact.ofValue (orZero (price raw "input_cache_writes")) = cacheWrite
  cases prompt <;> cases completion <;> cases cacheRead <;> cases cacheWrite <;>
    cases raw.find "prompt" <;> cases raw.find "completion" <;> simp

theorem pricingFromDict_eq_of_loggedPricing {logged charged : Pricing}
    (isLogged : loggedPricing raw = some logged) (isCharged : pricingFromDict raw = some charged) :
    charged = logged := by
  unfold loggedPricing at isLogged
  unfold pricingFromDict at isCharged
  simp only [Option.bind_eq_bind, Option.bind_eq_some_iff] at isLogged isCharged
  rcases isLogged with ⟨prompt, hasPrompt, completion, hasCompletion, cacheRead, hasRead,
    cacheWrite, hasWrite, isLogged⟩
  rw [hasPrompt, hasCompletion, ofValue_orZero hasRead, ofValue_orZero hasWrite] at isCharged
  simp only [Option.some.injEq, exists_eq_left'] at isCharged isLogged
  split_ifs at isCharged
  exact (Option.some.inj isCharged).symm.trans isLogged

end Prices

section Charging

def billedTokens (usage : Usage) : BilledTokens where
  prompt := .finite (intOf (get usage "prompt_tokens"))
  completion := .finite (intOf (get usage "completion_tokens"))
  reasoning := .finite (intOf (get usage "reasoning_tokens"))
  total := (intOption (get usage "total_tokens")).map fun total : ℤ => .finite total
  cacheRead := .finite (intOf (get usage "cache_read_tokens"))
  cacheWrite := .finite (intOf (get usage "cache_write_tokens"))

variable {tokens : BilledTokens} {pricing : Pricing}

theorem isNegative_billableOutputTokens {prompt completion reasoning : Exact}
    {total : Option Exact} (nonneg : completion.isNegative = false) :
    (billableOutputTokens prompt completion reasoning total).isNegative = false := by
  unfold billableOutputTokens
  split_ifs with none_billed
  · exact nonneg
  · have reasoningNonneg : reasoning.isNegative = false := by
      rw [Exact.isNonPositive, Bool.or_eq_true, not_or] at none_billed
      exact Bool.not_eq_true _ ▸ none_billed.1
    have both := Exact.isNegative_add nonneg reasoningNonneg
    cases total with
    | none => exact both
    | some total =>
      dsimp only
      split_ifs
      · exact nonneg
      · exact both

theorem isNegative_cost (completion : tokens.completion.isNegative = false)
    (cacheRead : tokens.cacheRead.isNegative = false)
    (cacheWrite : tokens.cacheWrite.isNegative = false)
    (promptPrice : pricing.promptPrice.isNegative = false)
    (completionPrice : pricing.completionPrice.isNegative = false)
    (cacheReadPrice : pricing.cacheReadPrice.isNegative = false)
    (cacheWritePrice : pricing.cacheWritePrice.isNegative = false) :
    (cost tokens pricing).isNegative = false := by
  have term : ∀ {count price : Exact}, count.isNegative = false → price.isNegative = false →
      ((count.mul price).scaleDown 1000000).isNegative = false := fun count price =>
    Exact.isNegative_scaleDown (Exact.isNegative_mul count price) (by norm_num)
  apply Exact.isNegative_add
  · apply Exact.isNegative_add
    · apply Exact.isNegative_add
      · exact term (Exact.isNegative_max_zero _) promptPrice
      · exact term (isNegative_billableOutputTokens completion) completionPrice
    · exact term cacheRead cacheReadPrice
  · exact term cacheWrite cacheWritePrice

/-- The counts of a usage, as its caller gives them to `charge`. -/
def callerTokens (usage : Usage) : ChargedTokens where
  promptTokens := intOf (get usage "prompt_tokens")
  completionTokens := intOf (get usage "completion_tokens")
  totalTokens := intOption (get usage "total_tokens")
  cacheReadTokens := get usage "cache_read_tokens"
  cacheWriteTokens := get usage "cache_write_tokens"
  reasoningTokens := intOf (get usage "reasoning_tokens")

variable {usage : Usage} {raw : RawPricing}

section

variable (isInt : ∀ field ∈ billedFields, IsInt (get usage field))

include isInt

theorem chargedTokens_eq : chargedTokens usage = .ok (callerTokens usage) := by
  unfold chargedTokens
  rw [intOrZero_of_isInt (isInt _ (by decide)), intOrZero_of_isInt (isInt _ (by decide)),
    intOrNone_of_isInt (isInt _ (by decide)), intOrZero_of_isInt (isInt _ (by decide))]
  rfl

theorem computeCost_eq (pricing : Pricing) :
    computeCost (callerTokens usage) pricing = some (cost (billedTokens usage) pricing) := by
  unfold computeCost callerTokens
  rw [ofValue_orZero_of_isInt (isInt _ (by decide)), ofValue_orZero_of_isInt (isInt _ (by decide))]
  rfl

theorem chargeFor_eq : ∃ charged, chargeFor usage raw = .ok charged ∧
      charged.upstreamCost = (pricingFromDict raw).map (cost (billedTokens usage)) ∧
      charged.recorded = charged.upstreamCost.filter fun cost => !cost.isNonPositive := by
  refine ⟨charge (callerTokens usage) (pricingFromDict raw), ?_, ?_⟩
  · rw [chargeFor, chargedTokens_eq isInt]
    rfl
  · unfold charge
    cases pricingFromDict raw with
    | none => exact ⟨rfl, rfl⟩
    | some pricing =>
      dsimp only
      rw [computeCost_eq isInt]
      refine ⟨rfl, ?_⟩
      cases nonPositive : (cost (billedTokens usage) pricing).isNonPositive <;>
        simp [Option.filter, nonPositive]

theorem calculateCost_eq
    (nonempty : usage.keys.isEmpty = false) (priced : raw.keys.isEmpty = false) :
    calculateCost usage raw = (loggedPricing raw).map (cost (billedTokens usage)) := by
  unfold calculateCost
  rw [nonempty, priced, numberOrZero_of_isInt (isInt _ (by decide)),
    numberOrZero_of_isInt (isInt _ (by decide)), numberOrZero_of_isInt (isInt _ (by decide)),
    numberOrNone_of_isInt (isInt _ (by decide)), numberOrZero_of_isInt (isInt _ (by decide)),
    numberOrZero_of_isInt (isInt _ (by decide))]
  unfold loggedPricing
  cases Exact.ofValue (price raw "prompt") <;> cases Exact.ofValue (price raw "completion") <;>
    cases Exact.ofValue (price raw "input_cache_reads") <;>
    cases Exact.ofValue (price raw "input_cache_writes") <;> rfl

end

variable {prices : Pricing}

theorem isNegative_of_pricing (nonneg : ∀ field ∈ priceFields, ∀ amount,
      Exact.ofValue (price raw field) = some amount → amount.isNegative = false)
    (isInt : ∀ field ∈ billedFields, IsInt (get usage field) ∧
      (field ≠ "reasoning_tokens" → 0 ≤ intOf (get usage field)))
    (prompt : Exact.ofValue (price raw "prompt") = some prices.promptPrice)
    (completion : Exact.ofValue (price raw "completion") = some prices.completionPrice)
    (cacheRead : Exact.ofValue (price raw "input_cache_reads") = some prices.cacheReadPrice ∨
      prices.cacheReadPrice = .finite 0)
    (cacheWrite : Exact.ofValue (price raw "input_cache_writes") = some prices.cacheWritePrice ∨
      prices.cacheWritePrice = .finite 0) :
    (cost (billedTokens usage) prices).isNegative = false := by
  have count : ∀ field ∈ billedFields, field ≠ "reasoning_tokens" →
      Exact.isNegative (.finite (intOf (get usage field))) = false := fun field billed other =>
    Exact.isNegative_finite.mpr (Int.cast_nonneg ((isInt field billed).2 other))
  have cachePrice : ∀ field ∈ priceFields, ∀ amount,
      Exact.ofValue (price raw field) = some amount ∨ amount = .finite 0 →
      amount.isNegative = false := by
    rintro field inside amount (read | rfl)
    · exact nonneg field inside amount read
    · rfl
  apply isNegative_cost
  · exact count "completion_tokens" (by decide) (by decide)
  · exact count "cache_read_tokens" (by decide) (by decide)
  · exact count "cache_write_tokens" (by decide) (by decide)
  · exact nonneg "prompt" (by decide) _ prompt
  · exact nonneg "completion" (by decide) _ completion
  · exact cachePrice "input_cache_reads" (by decide) _ cacheRead
  · exact cachePrice "input_cache_writes" (by decide) _ cacheWrite

theorem ofValue_of_loggedPricing (read : loggedPricing raw = some prices) :
    Exact.ofValue (price raw "prompt") = some prices.promptPrice ∧
      Exact.ofValue (price raw "completion") = some prices.completionPrice ∧
      Exact.ofValue (price raw "input_cache_reads") = some prices.cacheReadPrice ∧
      Exact.ofValue (price raw "input_cache_writes") = some prices.cacheWritePrice := by
  unfold loggedPricing at read
  simp only [Option.bind_eq_bind, Option.bind_eq_some_iff, Option.some.injEq] at read
  rcases read with ⟨prompt, hasPrompt, completion, hasCompletion, cacheRead, hasRead, cacheWrite,
    hasWrite, rfl⟩
  exact ⟨hasPrompt, hasCompletion, hasRead, hasWrite⟩

theorem ofValue_of_orZero {value : Value} {amount : Exact}
    (read : Exact.ofValue (orZero value) = some amount) :
    Exact.ofValue value = some amount ∨ amount = .finite 0 := by
  cases truthy : value.isTruthy with
  | true =>
    rw [orZero_of_isTruthy truthy] at read
    exact Or.inl read
  | false =>
    rw [orZero_of_not_isTruthy truthy] at read
    right
    simpa [Exact.ofValue] using read.symm

theorem ofValue_of_pricingFromDict (read : pricingFromDict raw = some prices) :
    Exact.ofValue (price raw "prompt") = some prices.promptPrice ∧
      Exact.ofValue (price raw "completion") = some prices.completionPrice ∧
      Exact.ofValue (orZero (price raw "input_cache_reads")) = some prices.cacheReadPrice ∧
      Exact.ofValue (orZero (price raw "input_cache_writes")) = some prices.cacheWritePrice := by
  unfold pricingFromDict at read
  simp only [Option.bind_eq_bind, Option.bind_eq_some_iff] at read
  rcases read with ⟨prompt, hasPrompt, completion, hasCompletion, cacheRead, hasRead, cacheWrite,
    hasWrite, read⟩
  split_ifs at read
  cases read
  exact ⟨hasPrompt, hasCompletion, hasRead, hasWrite⟩

theorem pricings_eq_iff : (pricingFromDict raw).map (cost (billedTokens usage)) =
        (loggedPricing raw).map (cost (billedTokens usage)) ↔ PricedAlike raw := by
  have agree : (pricingFromDict raw).map (cost (billedTokens usage)) =
      (loggedPricing raw).map (cost (billedTokens usage)) ↔
      ((pricingFromDict raw).isSome = true ↔ (loggedPricing raw).isSome = true) := by
    cases charged : pricingFromDict raw with
    | none => cases loggedPricing raw <;> simp
    | some chargedPrices =>
      cases logged : loggedPricing raw with
      | none => simp
      | some loggedPrices =>
        rw [pricingFromDict_eq_of_loggedPricing logged charged]
        simp
  rw [agree, pricingFromDict_isSome_iff, loggedPricing_isSome_iff]
  unfold PricedAlike
  have unread : (∃ field ∈ cachePriceFields,
      (price raw field).isTruthy = true ∧ isRead raw field = false) →
      ¬∀ field ∈ cachePriceFields, isRead raw field = true := by
    rintro ⟨field, inside, -, unread⟩ all
    rw [all field inside] at unread
    contradiction
  have none_iff : (∀ field ∈ cachePriceFields,
      ¬((price raw field).isTruthy = true ∧ isRead raw field = false)) ↔
      ¬∃ field ∈ cachePriceFields,
        (price raw field).isTruthy = true ∧ isRead raw field = false := by
    push Not
    rfl
  rw [none_iff]
  generalize (∃ field ∈ cachePriceFields,
    (price raw field).isTruthy = true ∧ isRead raw field = false) = bad at unread
  generalize (∀ field ∈ cachePriceFields, isRead raw field = true) = all at unread
  generalize ((raw.find "prompt").isSome = true ∨ (raw.find "completion").isSome = true) = keyed
  cases isRead raw "prompt" <;> cases isRead raw "completion" <;> simp
  grind

/-- A request is charged what is logged of it exactly when its prices are read alike. -/
theorem charged_as_logged_iff (usage : NormalizedUsage) (pricing : PricingTable) :
    ChargedAsLogged usage pricing ↔ PricedAlike pricing.raw := by
  have billed := fun field => @billed_of_normalized usage.usage usage.normalized field
  have isInt : ∀ field ∈ billedFields, IsInt (get usage.usage field) :=
    fun field inside => (billed field inside).1
  rcases @chargeFor_eq usage.usage pricing.raw isInt with ⟨charged, ran, upstream, recorded⟩
  have logged := calculateCost_eq isInt usage.nonempty pricing.nonempty
  rw [← @pricings_eq_iff usage.usage, ← upstream, ← logged]
  constructor
  · intro both
    rcases both.charged with ⟨other, ranOther, equal, -⟩
    rw [ran, Except.ok.injEq] at ranOther
    rw [ranOther]
    exact equal
  · intro equal
    refine ⟨⟨charged, ran, equal, by rw [recorded, equal]⟩, fun nonneg => ⟨?_, ?_⟩⟩
    · intro other ranOther amount isAmount
      rw [ran, Except.ok.injEq] at ranOther
      rw [← ranOther, upstream, Option.map_eq_some_iff] at isAmount
      rcases isAmount with ⟨prices, read, rfl⟩
      rcases ofValue_of_pricingFromDict read with ⟨prompt, completion, cacheRead, cacheWrite⟩
      exact isNegative_of_pricing nonneg billed prompt completion (ofValue_of_orZero cacheRead)
        (ofValue_of_orZero cacheWrite)
    · intro amount isAmount
      rw [logged, Option.map_eq_some_iff] at isAmount
      rcases isAmount with ⟨prices, read, rfl⟩
      rcases ofValue_of_loggedPricing read with ⟨prompt, completion, cacheRead, cacheWrite⟩
      exact isNegative_of_pricing nonneg billed prompt completion (Or.inl cacheRead)
        (Or.inl cacheWrite)

def nullCachePrice : PricingTable :=
  ⟨AList.insert "prompt" (.int 1) (AList.insert "input_cache_reads" .null ∅), by decide⟩

/-- Under a null cache price the logged cost is not the charged one. -/
theorem null_cache_price_is_not_logged :
    ∃ usage ∈ NormalizedUsage.ofRaw (AList.insert "prompt_tokens" (.int 1000000) ∅),
      ¬ChargedAsLogged usage nullCachePrice := by
  have isSome : (NormalizedUsage.ofRaw (AList.insert "prompt_tokens" (.int 1000000) ∅)).isSome =
      true := by decide +kernel
  have differs : ∀ usage ∈ NormalizedUsage.ofRaw (AList.insert "prompt_tokens" (.int 1000000) ∅),
      (chargeFor usage.usage nullCachePrice.raw).toOption.map Charge.upstreamCost ≠
        some (calculateCost usage.usage nullCachePrice.raw) := by decide +kernel
  rcases Option.isSome_iff_exists.mp isSome with ⟨usage, isUsage⟩
  refine ⟨usage, isUsage, fun same => differs usage isUsage ?_⟩
  rcases same.charged with ⟨charged, ran, equal, -⟩
  rw [ran, ← equal]
  rfl

end Charging

end HybridInference.Tokens
