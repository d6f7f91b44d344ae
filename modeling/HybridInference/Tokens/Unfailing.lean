import HybridInference.Tokens.Normalizing

/-!
# When an unreadable count fails an answered request

The readers of an upstream's usage object return on every object but those that hold a
number without a double where it is read as one, and normalizing an object again changes
nothing when, besides, the reasoning count is not negative and not every field was dropped.
-/

namespace HybridInference.Tokens

open Library

structure NeverFails (usage : Usage) : Prop where
  sanitized : ∀ complete, ∃ clean, sanitizeUsage usage complete = .ok clean
  reasoning : ∃ found, extractReasoningTokens usage = .ok found
  normalized : ∃ result, normalizeUsage usage = .ok result
  counts : ∀ result, normalizeUsage usage = .ok (some result) → ∀ field ∈ countNames, ∀ value,
    result.find field = some value → value = .null ∨ ∃ count : ℕ, value = .int count
  cacheRead : ∀ result, normalizeUsage usage = .ok (some result) → ∀ field ∈ cacheReadFields,
    (get result field).isNull = false →
      ∃ value ∈ cacheReadValues usage, (optionalTokenCount value).isSome = true
  cacheWrite : ∀ result, normalizeUsage usage = .ok (some result) → ∀ field ∈ cacheWriteFields,
    (get result field).isNull = false →
      ∃ value ∈ cacheWriteValues usage, (optionalTokenCount value).isSome = true
  again : ∀ result, normalizeUsage usage = .ok (some result) →
    ∃ second, normalizeUsage result = .ok (some second) ∧ ∀ key, second.find key = result.find key

structure Representable (usage : Usage) : Prop where
  /-- No count is an integer without a double. -/
  counts : ∀ field ∈ countNames, isHuge (get usage field) = false
  /-- The first value where reasoning tokens are looked for that is a number is finite. -/
  finite : ∀ value, (reasoningValues usage).find? isTaken = some value →
    ∃ count, value.readInt = .ok count
  /-- It is a count that has a double, where `reasoning_tokens` is not reported. -/
  reasoning : (get usage "reasoning_tokens").isNull = true →
    ∀ value count, (reasoningValues usage).find? isTaken = some value →
      value.readInt = .ok count → 0 ≤ count ∧ PyFloat.holdsInt count = true
  /-- The first cache count that can be read has a double. -/
  cacheRead : ∀ value count,
    (cacheReadValues usage).find? (fun value => (optionalTokenCount value).isSome) = some value →
      optionalTokenCount value = some count → PyFloat.holdsInt count = true
  /-- A field is left when the unreadable ones are dropped. -/
  left : usage.keys.isEmpty = false → ∃ key ∈ usage.keys,
    isUnreadableCache usage key = false ∧ isUnreadableDetails usage key = false

section Result

variable {usage clean second : Usage} {reasoning : Option ℤ}

/-- What a sanitized usage holds, and what is found in it, can be read once more. -/
structure Rereadable (usage clean : Usage) (reasoning : Option ℤ) : Prop where
  finds : ∀ key, clean.find key = cleanFind usage key
  small : ∀ field ∈ countNames, isHuge (get usage field) = false
  found : extractReasoningTokens clean = .ok reasoning
  count : ∀ count, reasoning = some count → 0 ≤ count ∧ PyFloat.holdsInt count = true
  cache : ∀ count, (cacheReadValues clean).findSome? optionalTokenCount = some count →
    PyFloat.holdsInt count = true

theorem settled_int {count : ℤ} (nonneg : 0 ≤ count) (holds : PyFloat.holdsInt count = true) :
    Settled (.int count) := by
  right
  refine ⟨count.toNat, ?_, ?_⟩
  · rw [Int.toNat_of_nonneg nonneg]
  · rw [Int.toNat_of_nonneg nonneg]
    exact holds

section

variable (finds : ∀ key, clean.find key = cleanFind usage key)

include finds

theorem settled_clean
    (small : ∀ field ∈ countNames, isHuge (get usage field) = false) {field : String}
    (inside : field ∈ countNames) {value : Value} (there : clean.find field = some value) :
    Settled value :=
  settled_sanitized finds (fun _ isCount => small_readableUsage (small _ isCount)) inside there

theorem cacheWrite_small
    (small : ∀ field ∈ countNames, isHuge (get usage field) = false) {count : ℕ}
    (read : (cacheWriteValues clean).findSome? optionalTokenCount = some count) :
    PyFloat.holdsInt count = true := by
  rcases List.exists_of_findSome?_eq_some read with ⟨value, inside, reads⟩
  rcases List.mem_map.mp inside with ⟨field, isWrite, rfl⟩
  cases there : clean.find field with
  | none =>
    rw [get, there] at reads
    contradiction
  | some value =>
    have isCount : ∀ field ∈ cacheWriteFields, field ∈ countNames := by decide
    rw [get_of_find there] at reads
    rcases settled_clean finds small (isCount field isWrite) there with rfl | ⟨amount, rfl, holds⟩
    · contradiction
    · rw [optionalTokenCount_int, Option.some.injEq] at reads
      rw [← reads]
      exact holds

theorem isNull_get_clean {key : String} (cache : key ∈ cacheReadFields ∨ key ∈ cacheWriteFields)
    (null : (get usage key).isNull = true) : (get clean key).isNull = true := by
  have cleaned := (finds key).trans (cleanFind_of_cache cache)
  have null_or_none : ∀ value, usage.find key = some value → value.isNull = true := by
    intro value found
    rw [get_of_find found] at null
    exact null
  unfold get
  rw [cleaned]
  split_ifs
  · rfl
  · cases found : usage.find key with
    | none => rfl
    | some value =>
      rw [Option.map_some, isNull_converted_cleanCount (null_or_none value found)]
      exact null_or_none value found
  · exact null

theorem isUnreadableCache_clean
    (small : ∀ field ∈ countNames, isHuge (get usage field) = false) (key : String) :
    isUnreadableCache clean key = false := by
  by_cases cache : key ∈ cacheReadFields ∨ key ∈ cacheWriteFields
  · rw [isUnreadableCache_eq_false_iff cache]
    cases unreadable : isUnreadableCache usage key with
    | true =>
      left
      have cleaned := (finds key).trans (cleanFind_of_cache cache)
      rw [unreadable, if_pos rfl] at cleaned
      rw [get, cleaned]
      rfl
    | false =>
      rcases (isUnreadableCache_eq_false_iff cache).mp unreadable with null | readable
      · left
        exact isNull_get_clean finds cache null
      · right
        rw [optionalTokenCount_clean finds small cache]
        exact readable
  · exact not_isUnreadableCache_of_not_mem (not_or.mp cache)

theorem isUnreadableDetails_clean (key : String) : isUnreadableDetails clean key = false := by
  cases details : isDetails key with
  | false => simp [isUnreadableDetails, details]
  | true =>
    have cleaned := (finds key).trans (cleanFind_of_details details)
    cases unreadable : isUnreadableDetails usage key with
    | true =>
      rw [unreadable, if_pos rfl] at cleaned
      simp [isUnreadableDetails, get, cleaned]
    | false =>
      rw [unreadable, if_neg Bool.false_ne_true] at cleaned
      rw [isUnreadableDetails_congr fun _ => cleaned]
      exact unreadable

end

theorem cleanFind_of_settled (cache : ∀ key, isUnreadableCache usage key = false)
    (details : ∀ key, isUnreadableDetails usage key = false)
    (settled : ∀ field ∈ countNames, ∀ value, usage.find field = some value → Settled value)
    (key : String) : cleanFind usage key = usage.find key := by
  have readable : ∀ key, (readableUsage usage).find key = usage.find key := by
    intro key
    rw [find_readableUsage, cache]
    rfl
  unfold cleanFind sanitizedFind
  rw [isUnreadableDetails_congr fun _ => readable key, details, if_neg Bool.false_ne_true, readable]
  cases found : usage.find key with
  | none => simp
  | some value =>
    split_ifs with isCount isTotal
    · have isSettled := settled key (List.mem_append_left _ isCount) value found
      rw [Option.map_some, isSettled.cleanCount]
    · have isSettled := settled key (List.mem_append_right _ (by simp [isTotal])) value found
      rw [Option.map_some, isSettled.cleanTotal]
    · rfl

namespace Rereadable

variable (rereadable : Rereadable usage clean reasoning)
include rereadable

theorem settled {field : String} (inside : field ∈ countNames) {value : Value}
    (there : (flattened clean reasoning).find field = some value) : Settled value := by
  have kept : clean.find field = some value → Settled value :=
    settled_clean rereadable.finds rereadable.small inside
  rw [find_flattened] at there
  split_ifs at there
  · cases found : reasoning with
    | none =>
      rw [found] at there
      exact kept there
    | some count =>
      rw [found] at there
      rcases rereadable.count count found with ⟨nonneg, holds⟩
      rw [← Option.some.inj there]
      exact settled_int nonneg holds
  · cases read : (cacheReadValues clean).findSome? optionalTokenCount with
    | none =>
      rw [read] at there
      exact kept there
    | some count =>
      rw [read] at there
      rw [← Option.some.inj there]
      exact Or.inr ⟨count, rfl, rereadable.cache count read⟩
  · cases read : (cacheWriteValues clean).findSome? optionalTokenCount with
    | none =>
      rw [read] at there
      exact kept there
    | some count =>
      rw [read] at there
      rw [← Option.some.inj there]
      exact Or.inr ⟨count, rfl, cacheWrite_small rereadable.finds rereadable.small read⟩
  · exact kept there

theorem small_flattened {field : String} (inside : field ∈ countNames) :
    isHuge (get (flattened clean reasoning) field) = false := by
  cases there : (flattened clean reasoning).find field with
  | none => simp [get, there, isHuge]
  | some value =>
    rw [get_of_find there]
    exact (rereadable.settled inside there).small

theorem isUnreadableCache_flattened (key : String) :
    isUnreadableCache (flattened clean reasoning) key = false := by
  have inClean := isUnreadableCache_clean rereadable.finds rereadable.small key
  have kept : (flattened clean reasoning).find key = clean.find key →
      isUnreadableCache (flattened clean reasoning) key = false := by
    intro same
    unfold isUnreadableCache at inClean ⊢
    rw [get_congr same]
    exact inClean
  have counted : ∀ count : ℕ, (flattened clean reasoning).find key = some (.int count) →
      isUnreadableCache (flattened clean reasoning) key = false := by
    intro count there
    unfold isUnreadableCache
    rw [get_of_find there, optionalTokenCount_int]
    simp
  by_cases isRead : key = "cache_read_tokens"
  · have found := find_flattened clean reasoning key
    rw [if_neg (by rw [isRead]; decide), if_pos isRead] at found
    cases read : (cacheReadValues clean).findSome? optionalTokenCount with
    | none =>
      rw [read] at found
      exact kept found
    | some count =>
      rw [read] at found
      exact counted count found
  · by_cases isWrite : key = "cache_write_tokens"
    · have found := find_flattened clean reasoning key
      rw [if_neg (by rw [isWrite]; decide), if_neg isRead, if_pos isWrite] at found
      cases read : (cacheWriteValues clean).findSome? optionalTokenCount with
      | none =>
        rw [read] at found
        exact kept found
      | some count =>
        rw [read] at found
        exact counted count found
    · by_cases isReasoning : key = "reasoning_tokens"
      · apply not_isUnreadableCache_of_not_mem
        rw [isReasoning]
        decide
      · apply kept
        apply find_flattened_of_not_mem
        simp [foundFields, isRead, isWrite, isReasoning]

theorem isUnreadableDetails_flattened (key : String) :
    isUnreadableDetails (flattened clean reasoning) key = false := by
  rw [isUnreadableDetails_congr]
  · exact isUnreadableDetails_clean rereadable.finds key
  · intro details
    apply find_flattened_of_not_mem
    intro inside
    revert details
    revert key
    decide

theorem normalizeUsage_again (nonempty : (flattened clean reasoning).keys.isEmpty = false) :
    ∃ second, normalizeUsage (flattened clean reasoning) = .ok (some second) ∧
      ∀ key, second.find key = (flattened clean reasoning).find key := by
  have small : ∀ field ∈ countNames,
      isHuge (get (readableUsage (flattened clean reasoning)) field) = false :=
    fun field inside => small_readableUsage (rereadable.small_flattened inside)
  rcases sanitizeUsage_find small with ⟨cleaned, ran, finds⟩
  have same : ∀ key, cleaned.find key = (flattened clean reasoning).find key := fun key =>
    (finds key).trans (cleanFind_of_settled rereadable.isUnreadableCache_flattened
      rereadable.isUnreadableDetails_flattened
      (fun _ inside _ there => rereadable.settled inside there) key)
  have found := extractReasoningTokens_again same rereadable.found
  refine ⟨flattened cleaned reasoning, ?_, fun key => ?_⟩
  · rw [normalizeUsage_eq nonempty ran, found]
    rfl
  · rw [find_flattened, find_flattened, cacheReadValues_again same, cacheWriteValues_again same,
      same, find_flattened]
    split_ifs
    · cases reasoning <;> rfl
    · cases (cacheReadValues clean).findSome? optionalTokenCount <;> rfl
    · cases (cacheWriteValues clean).findSome? optionalTokenCount <;> rfl
    · rfl

end Rereadable

end Result

section Charging

variable {usage clean result : Usage} {reasoning : Option ℤ}

theorem keys_isEmpty_iff : usage.keys.isEmpty = true ↔ ∀ key, usage.find key = none := by
  rw [List.isEmpty_iff, List.eq_nil_iff_forall_not_mem]
  constructor
  · intro noKeys key
    cases there : usage.find key with
    | none => rfl
    | some value => exact absurd (mem_keys_iff.mpr ⟨value, there⟩) (noKeys key)
  · intro nothing key inside
    rcases mem_keys_iff.mp inside with ⟨value, there⟩
    rw [nothing key] at there
    contradiction

theorem keys_nonempty_of_find {key : String} {value : Value}
    (there : usage.find key = some value) : usage.keys.isEmpty = false := by
  cases empty : usage.keys.isEmpty with
  | false => rfl
  | true =>
    rw [keys_isEmpty_iff.mp empty key] at there
    contradiction

theorem cleanFind_isSome_iff {key : String} :
    (cleanFind usage key).isSome = true ↔ key ∈ usage.keys ∧
      isUnreadableCache usage key = false ∧ isUnreadableDetails usage key = false := by
  unfold cleanFind sanitizedFind
  rw [isUnreadableDetails_congr fun details => find_readableUsage_of_not_mem
    (not_mem_cacheFields_of_isDetails details), find_readableUsage, ← Dict.find_isSome_iff]
  cases isUnreadableCache usage key <;> cases isUnreadableDetails usage key <;>
    split_ifs <;> simp_all

theorem flattened_nonempty_iff (finds : ∀ key, clean.find key = cleanFind usage key)
    (found : extractReasoningTokens clean = .ok reasoning) :
    (flattened clean reasoning).keys.isEmpty = false ↔ ∃ key ∈ usage.keys,
      isUnreadableCache usage key = false ∧ isUnreadableDetails usage key = false := by
  constructor
  · intro nonempty
    by_contra none_left
    push Not at none_left
    have empty : clean = ∅ := by
      apply Dict.eq_empty_of_keys_isEmpty
      rw [keys_isEmpty_iff]
      intro key
      rw [finds, ← Option.not_isSome_iff_eq_none, cleanFind_isSome_iff]
      rintro ⟨inside, cache, details⟩
      exact none_left key inside cache details
    subst empty
    obtain rfl : none = reasoning := Except.ok.inj found
    exact absurd nonempty (by decide)
  · rintro ⟨key, left⟩
    rcases Option.isSome_iff_exists.mp (cleanFind_isSome_iff.mpr left) with ⟨value, there⟩
    rw [← finds] at there
    have kept := find_flattened clean reasoning key
    rw [there] at kept
    split_ifs at kept
    · cases reasoning <;> exact keys_nonempty_of_find kept
    · cases read : (cacheReadValues clean).findSome? optionalTokenCount <;> rw [read] at kept <;>
        exact keys_nonempty_of_find kept
    · cases read : (cacheWriteValues clean).findSome? optionalTokenCount <;> rw [read] at kept <;>
        exact keys_nonempty_of_find kept
    · exact keys_nonempty_of_find kept

theorem extractReasoningTokens_eq_some_iff {count : ℤ} :
    extractReasoningTokens usage = .ok (some count) ↔
      ∃ value, (reasoningValues usage).find? isTaken = some value ∧ value.readInt = .ok count := by
  unfold extractReasoningTokens
  rw [firstInt_eq]
  cases (reasoningValues usage).find? isTaken with
  | none => simp
  | some value =>
    simp only [Option.some.injEq, exists_eq_left']
    cases value.readInt <;> simp [Except.map]

theorem Representable.rereadable (representable : Representable usage)
    (finds : ∀ key, clean.find key = cleanFind usage key) :
    ∃ reasoning, Rereadable usage clean reasoning := by
  have cache : ∀ count, (cacheReadValues clean).findSome? optionalTokenCount = some count →
      PyFloat.holdsInt count = true := by
    intro count read
    rw [cacheReadValues_clean finds representable.counts, findSome?_eq_some_iff] at read
    rcases read with ⟨value, first, reads⟩
    exact representable.cacheRead value count first reads
  cases unreported : (get usage "reasoning_tokens").isNull with
  | true =>
    rcases extractReasoningTokens_ok_iff.mpr representable.finite with ⟨reasoning, found⟩
    refine ⟨reasoning, finds, representable.counts, ?_, ?_, cache⟩
    · rw [extractReasoningTokens_clean finds unreported, found]
    · rintro count rfl
      rcases extractReasoningTokens_eq_some_iff.mp found with ⟨value, first, reads⟩
      exact representable.reasoning unreported value count first reads
  | false =>
    rcases extractReasoningTokens_of_reported finds representable.counts unreported with
      ⟨count, found, holds⟩
    refine ⟨some count, finds, representable.counts, found, ?_, cache⟩
    intro other same
    rw [← Option.some.inj same]
    exact ⟨Int.natCast_nonneg count, holds⟩

theorem small_readable (small : ∀ field ∈ countNames, isHuge (get usage field) = false) :
    ∀ field ∈ countNames, isHuge (get (readableUsage usage) field) = false :=
  fun field inside => small_readableUsage (small field inside)

theorem normalizeUsage_of_isEmpty (empty : usage.keys.isEmpty = true) :
    normalizeUsage usage = .ok none := by
  unfold normalizeUsage
  rw [empty, if_pos rfl]
  rfl

theorem Representable.normalizeUsage_eq (representable : Representable usage)
    (nonempty : usage.keys.isEmpty = false) :
    ∃ clean reasoning, Rereadable usage clean reasoning ∧
      normalizeUsage usage = .ok (some (flattened clean reasoning)) := by
  rcases sanitizeUsage_find (small_readable representable.counts) with ⟨clean, ran, finds⟩
  rcases representable.rereadable finds with ⟨reasoning, rereadable⟩
  refine ⟨clean, reasoning, rereadable, ?_⟩
  rw [Tokens.normalizeUsage_eq nonempty ran, rereadable.found]
  rfl

variable {field : String}

theorem isSome_get_flattened (rereadable : Rereadable usage clean reasoning)
    (cache : field ∈ cacheReadFields ∨ field ∈ cacheWriteFields)
    (reported : (get (flattened clean reasoning) field).isNull = false) :
    (optionalTokenCount (get (flattened clean reasoning) field)).isSome = true := by
  rcases (isUnreadableCache_eq_false_iff cache).mp
    (rereadable.isUnreadableCache_flattened field) with null | readable
  · rw [reported] at null
    contradiction
  · exact readable

theorem exists_cacheRead (rereadable : Rereadable usage clean reasoning)
    (inside : field ∈ cacheReadFields)
    (reported : (get (flattened clean reasoning) field).isNull = false) :
    ∃ value ∈ cacheReadValues usage, (optionalTokenCount value).isSome = true := by
  have readable := isSome_get_flattened rereadable (Or.inl inside) reported
  rw [← List.findSome?_isSome_iff, ← cacheReadValues_clean rereadable.finds rereadable.small,
    ← @cacheReadValues_again clean _ reasoning fun _ => rfl, List.findSome?_isSome_iff]
  exact ⟨_, List.mem_append_left _ (List.mem_map_of_mem inside), readable⟩

theorem exists_cacheWrite (rereadable : Rereadable usage clean reasoning)
    (inside : field ∈ cacheWriteFields)
    (reported : (get (flattened clean reasoning) field).isNull = false) :
    ∃ value ∈ cacheWriteValues usage, (optionalTokenCount value).isSome = true := by
  have readable := isSome_get_flattened rereadable (Or.inr inside) reported
  rw [← List.findSome?_isSome_iff, ← cacheWriteValues_clean rereadable.finds rereadable.small,
    ← @cacheWriteValues_again clean _ reasoning fun _ => rfl, List.findSome?_isSome_iff]
  exact ⟨_, List.mem_map_of_mem inside, readable⟩

theorem Representable.neverFails (representable : Representable usage) : NeverFails usage := by
  have flat : ∀ result, normalizeUsage usage = .ok (some result) → usage.keys.isEmpty = false ∧
        ∃ clean reasoning, Rereadable usage clean reasoning ∧
          result = flattened clean reasoning := by
    intro result ran
    cases empty : usage.keys.isEmpty with
    | true =>
      rw [normalizeUsage_of_isEmpty empty] at ran
      exact absurd (Except.ok.inj ran) (by simp)
    | false =>
      rcases representable.normalizeUsage_eq empty with ⟨clean, reasoning, rereadable, eq⟩
      rw [eq] at ran
      exact ⟨rfl, clean, reasoning, rereadable, (Option.some.inj (Except.ok.inj ran)).symm⟩
  refine ⟨sanitizeUsage_returns representable.counts,
    extractReasoningTokens_ok_iff.mpr representable.finite, ?_, ?_, ?_, ?_, ?_⟩
  · cases empty : usage.keys.isEmpty with
    | true => exact ⟨none, normalizeUsage_of_isEmpty empty⟩
    | false =>
      rcases representable.normalizeUsage_eq empty with ⟨clean, reasoning, -, eq⟩
      exact ⟨_, eq⟩
  · intro result ran field inside value there
    rcases flat result ran with ⟨-, clean, reasoning, rereadable, rfl⟩
    exact (rereadable.settled inside there).isCount
  · intro result ran field inside reported
    rcases flat result ran with ⟨-, clean, reasoning, rereadable, rfl⟩
    exact exists_cacheRead rereadable inside reported
  · intro result ran field inside reported
    rcases flat result ran with ⟨-, clean, reasoning, rereadable, rfl⟩
    exact exists_cacheWrite rereadable inside reported
  · intro result ran
    rcases flat result ran with ⟨nonempty, clean, reasoning, rereadable, rfl⟩
    apply rereadable.normalizeUsage_again
    rw [flattened_nonempty_iff rereadable.finds rereadable.found]
    exact representable.left nonempty

theorem small_of_normalizeUsage {second : Usage} (ran : normalizeUsage result = .ok (some second)) :
    result.keys.isEmpty = false ∧
      ∀ field ∈ countNames, isHuge (get (readableUsage result) field) = false := by
  cases empty : result.keys.isEmpty with
  | true =>
    rw [normalizeUsage_of_isEmpty empty] at ran
    exact absurd (Except.ok.inj ran) (by simp)
  | false =>
    refine ⟨rfl, small_of_sanitizeUsage ?_⟩
    unfold normalizeUsage at ran
    rw [empty, if_neg Bool.false_ne_true] at ran
    cases sanitized : sanitizeUsage (readableUsage result) false with
    | ok clean => exact ⟨clean, rfl⟩
    | error raised =>
      rw [sanitized] at ran
      contradiction

namespace NeverFails

variable (never : NeverFails usage)
include never

theorem small : ∀ field ∈ countNames, isHuge (get usage field) = false :=
  small_of_sanitizeUsage (never.sanitized false)

theorem normalized_eq (nonempty : usage.keys.isEmpty = false) :
    ∃ clean reasoning, (∀ key, clean.find key = cleanFind usage key) ∧
      extractReasoningTokens clean = .ok reasoning ∧
      normalizeUsage usage = .ok (some (flattened clean reasoning)) := by
  rcases sanitizeUsage_find (small_readable never.small) with ⟨clean, ran, finds⟩
  have eq := normalizeUsage_eq nonempty ran
  rcases never.normalized with ⟨result, returned⟩
  cases found : extractReasoningTokens clean with
  | error raised =>
    rw [eq, found] at returned
    contradiction
  | ok reasoning =>
    rw [found] at eq
    exact ⟨clean, reasoning, finds, found, eq⟩

theorem left (nonempty : usage.keys.isEmpty = false) : ∃ key ∈ usage.keys,
    isUnreadableCache usage key = false ∧ isUnreadableDetails usage key = false := by
  rcases never.normalized_eq nonempty with ⟨clean, reasoning, finds, found, eq⟩
  rcases never.again _ eq with ⟨second, ran, -⟩
  exact (flattened_nonempty_iff finds found).mp (small_of_normalizeUsage ran).1

theorem holdsInt_of_find (normalized : normalizeUsage usage = .ok (some result))
    (inside : field ∈ countNames) {count : ℤ} (there : result.find field = some (.int count)) :
    0 ≤ count ∧ PyFloat.holdsInt count = true := by
  have nonneg : 0 ≤ count := by
    rcases never.counts result normalized field inside _ there with null | ⟨natural, isNatural⟩
    · contradiction
    · rw [Value.int.inj isNatural]
      exact Int.natCast_nonneg natural
  refine ⟨nonneg, ?_⟩
  rcases never.again result normalized with ⟨second, ran, -⟩
  have small := (small_of_normalizeUsage ran).2 field inside
  have kept : (readableUsage result).find field = some (.int count) := by
    rw [find_readableUsage, if_neg, there]
    unfold isUnreadableCache
    rw [get_of_find there]
    simp [optionalTokenCount, nonneg]
  rw [get_of_find kept] at small
  simpa [isHuge] using small

theorem nonempty_of_mem {value : Value} (inside : value ∈ reasoningValues usage) :
    usage.keys.isEmpty = false := by
  cases empty : usage.keys.isEmpty with
  | false => rfl
  | true =>
    obtain rfl := Dict.eq_empty_of_keys_isEmpty empty
    contradiction

theorem representable : Representable usage := by
  refine ⟨never.small, extractReasoningTokens_ok_iff.mp never.reasoning, ?_, ?_, never.left⟩
  · intro unreported value count first reads
    rcases never.normalized_eq (never.nonempty_of_mem (List.mem_of_find?_eq_some first)) with
      ⟨clean, reasoning, finds, found, eq⟩
    rw [extractReasoningTokens_clean finds unreported,
      extractReasoningTokens_eq_some_iff.mpr ⟨value, first, reads⟩, Except.ok.injEq] at found
    have there : (flattened clean reasoning).find "reasoning_tokens" = some (.int count) := by
      rw [find_flattened, if_pos rfl, ← found]
      rfl
    exact never.holdsInt_of_find eq (by decide) there
  · intro value count first reads
    have read := findSome?_eq_some_iff.mpr ⟨value, first, reads⟩
    have nonempty : usage.keys.isEmpty = false := by
      cases empty : usage.keys.isEmpty with
      | false => rfl
      | true =>
        obtain rfl := Dict.eq_empty_of_keys_isEmpty empty
        contradiction
    rcases never.normalized_eq nonempty with ⟨clean, reasoning, finds, found, eq⟩
    have there : (flattened clean reasoning).find "cache_read_tokens" =
        some (.int (count : ℤ)) := by
      rw [find_flattened, if_neg (by decide), if_pos rfl,
        cacheReadValues_clean finds never.small, read]
      rfl
    exact (never.holdsInt_of_find eq (by decide) there).2

end NeverFails

/-- An answered request never fails for its usage object exactly when the counts of that
object can be read. -/
theorem neverFails_iff_representable (usage : Usage) : NeverFails usage ↔ Representable usage :=
  ⟨fun never => never.representable, fun representable => representable.neverFails⟩

/-- A prompt count without a double raises out of `sanitize_usage`. -/
theorem huge_prompt_count_fails :
    ¬NeverFails (AList.insert "prompt_tokens" (Value.int (10 ^ 400)) ∅) := by
  intro never
  have small := never.small "prompt_tokens" (by decide)
  exact absurd small (by decide +kernel)

end Charging

end HybridInference.Tokens
