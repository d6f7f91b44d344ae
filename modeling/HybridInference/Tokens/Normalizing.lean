import HybridInference.Tokens.Cleaning

/-!
# Normalizing a usage object

A cache count reads the same before and after its field is cleaned, so what is extracted of a
cleaned usage is what the usage reports. The result of normalizing is a fixed point of the
cleaning and of the extraction.
-/

namespace HybridInference.Tokens

open Library

variable {value : Value} {count : ℕ}

theorem readCount_of_optionalTokenCount
    (read : optionalTokenCount value = some count) (small : isHuge value = false) :
    readCount value = .ok (some count) := by
  have whole : ∀ number : PyFloat, wholeOf number = some count → countOf number = some count := by
    intro number isWhole
    cases number with
    | finite value =>
      unfold wholeOf at isWhole
      unfold countOf
      dsimp only at isWhole ⊢
      split_ifs at isWhole ⊢
      exact isWhole
    | infinite negative => contradiction
    | nan => contradiction
  cases value with
  | int value =>
    unfold optionalTokenCount at read
    unfold isHuge at small
    unfold readCount
    dsimp only at read small ⊢
    split_ifs at read with nonneg
    rw [small, if_neg Bool.false_ne_true, if_neg (not_lt.mpr nonneg), read]
  | float number =>
    unfold readCount
    exact congrArg Except.ok (whole number read)
  | str text =>
    unfold readCount
    rcases Option.bind_eq_some_iff.mp read with ⟨number, parsed, isWhole⟩
    simp [parsed, whole number isWhole]
  | null => contradiction
  | bool value => contradiction
  | arr items => contradiction
  | obj fields => contradiction

theorem isNull_of_optionalTokenCount
    (read : optionalTokenCount value = some count) : value.isNull = false := by
  cases value <;> first | contradiction | rfl

theorem converted_of_optionalTokenCount
    (read : optionalTokenCount value = some count) (small : isHuge value = false) :
    converted cleanCount value = .int count := by
  simp [converted, cleanCount, usageCount, isNull_of_optionalTokenCount read,
    readCount_of_optionalTokenCount read small, Except.map, Except.toOption]

theorem optionalTokenCount_int (count : ℕ) : optionalTokenCount (.int count) = some count := by
  simp [optionalTokenCount]

theorem holdsInt_of_readCount
    (read : readCount value = .ok (some count)) : PyFloat.holdsInt count = true := by
  have finite : ∀ number : PyFloat, countOf number = some count →
      PyFloat.holdsInt count = true := by
    intro number counted
    cases number with
    | finite value =>
      unfold countOf at counted
      dsimp only at counted
      split_ifs at counted with negative
      have nonneg := PyFloat.toInt_nonneg (not_lt.mp negative)
      rw [← Option.some.inj counted, Int.toNat_of_nonneg nonneg]
      exact PyFloat.holdsInt_toInt value
    | infinite negative => contradiction
    | nan => contradiction
  cases value with
  | int value =>
    unfold readCount at read
    dsimp only at read
    split_ifs at read with huge negative
    · exact absurd (Except.ok.inj read) (by simp)
    · rw [Bool.not_eq_true', Bool.not_eq_false] at huge
      rw [← Option.some.inj (Except.ok.inj read), Int.toNat_of_nonneg (not_lt.mp negative)]
      exact huge
  | float number =>
    unfold readCount at read
    exact finite number (Except.ok.inj read)
  | str text =>
    unfold readCount at read
    rcases Option.bind_eq_some_iff.mp (Except.ok.inj read) with ⟨number, -, counted⟩
    exact finite number counted
  | null | bool value | arr items | obj fields =>
    exact absurd (Except.ok.inj read) (by simp)

theorem holdsInt_zero : PyFloat.holdsInt 0 = true := by decide +kernel

def IsCount (value : Value) : Prop := value = .null ∨ ∃ count : ℕ, value = .int count

def Settled (value : Value) : Prop :=
  value = .null ∨ ∃ count : ℕ, value = .int count ∧ PyFloat.holdsInt count = true

theorem reported_cleanCount (small : isHuge value = false) (reported : value.isNull = false) :
    ∃ count : ℕ, converted cleanCount value = .int count ∧ PyFloat.holdsInt count = true := by
  rcases readCount_ok_iff.mpr small with ⟨count, ran⟩
  refine ⟨count.getD 0, ?_, ?_⟩
  · simp [converted, cleanCount, usageCount, reported, ran, Except.map, Except.toOption]
  · cases count with
    | none => exact holdsInt_zero
    | some count => exact holdsInt_of_readCount ran

theorem settled_cleanCount (small : isHuge value = false) :
    Settled (converted cleanCount value) := by
  cases null : value.isNull with
  | true =>
    left
    cases value <;> first | contradiction | rfl
  | false =>
    right
    exact reported_cleanCount small null

theorem settled_cleanTotal (small : isHuge value = false) :
    Settled (converted cleanTotal value) := by
  by_cases null : value.isNull = true
  · left
    cases value <;> first | contradiction | rfl
  · rcases readCount_ok_iff.mpr small with ⟨count, ran⟩
    cases count with
    | none =>
      left
      simp [converted, cleanTotal, null, ran, Except.map, Except.toOption]
    | some count =>
      right
      refine ⟨count, ?_, holdsInt_of_readCount ran⟩
      simp [converted, cleanTotal, null, ran, Except.map, Except.toOption]

theorem settled_sanitized {usage clean : Usage}
    (finds : ∀ key, clean.find key = sanitizedFind usage key)
    (small : ∀ field ∈ countNames, isHuge (get usage field) = false) {field : String}
    (inside : field ∈ countNames) (there : clean.find field = some value) :
    Settled value := by
  rw [finds, sanitizedFind, isUnreadableDetails, not_isDetails_of_mem_countNames inside,
    Bool.false_and, if_neg Bool.false_ne_true] at there
  split_ifs at there with isCount isTotal
  · rcases Option.map_eq_some_iff.mp there with ⟨raw, found, rfl⟩
    exact settled_cleanCount (isHuge_find (small field inside) found)
  · rcases Option.map_eq_some_iff.mp there with ⟨raw, found, rfl⟩
    exact settled_cleanTotal (isHuge_find (small field inside) found)
  · rcases List.mem_append.mp inside with count | total
    · exact absurd count isCount
    · exact absurd (List.mem_singleton.mp total) isTotal

theorem readCount_int (holds : PyFloat.holdsInt count = true) :
    readCount (.int count) = .ok (some count) := by
  unfold readCount
  simp [holds]

theorem Settled.cleanCount (settled : Settled value) : converted cleanCount value = value := by
  rcases settled with rfl | ⟨count, rfl, holds⟩
  · exact isNull_converted_cleanCount rfl
  · exact converted_of_optionalTokenCount (optionalTokenCount_int count) (by simp [isHuge, holds])

theorem Settled.cleanTotal (settled : Settled value) : converted cleanTotal value = value := by
  rcases settled with rfl | ⟨count, rfl, holds⟩
  · rfl
  · simp [converted, Tokens.cleanTotal, Value.isNull, readCount_int holds, Except.map,
      Except.toOption]

theorem Settled.small (settled : Settled value) : isHuge value = false := by
  rcases settled with rfl | ⟨count, rfl, holds⟩
  · rfl
  · simp [isHuge, holds]

theorem Settled.isCount (settled : Settled value) : IsCount value := by
  rcases settled with rfl | ⟨count, rfl, -⟩
  · exact Or.inl rfl
  · exact Or.inr ⟨count, rfl⟩

section Extracting

variable {usage clean : Usage}

theorem small_readableUsage {field : String} (small : isHuge (get usage field) = false) :
    isHuge (get (readableUsage usage) field) = false := by
  unfold get
  rw [find_readableUsage]
  split_ifs
  · rfl
  · exact small

theorem isUnreadableCache_eq_false_iff {key : String}
    (cache : key ∈ cacheReadFields ∨ key ∈ cacheWriteFields) :
    isUnreadableCache usage key = false ↔
      (get usage key).isNull = true ∨ (optionalTokenCount (get usage key)).isSome = true := by
  have inside : (decide (key ∈ cacheReadFields) || decide (key ∈ cacheWriteFields)) = true := by
    simpa using cache
  unfold isUnreadableCache
  rw [inside]
  cases (get usage key).isNull <;> cases optionalTokenCount (get usage key) <;> simp

theorem optionalTokenCount_clean (finds : ∀ key, clean.find key = cleanFind usage key)
    (small : ∀ field ∈ countNames, isHuge (get usage field) = false) {key : String}
    (cache : key ∈ cacheReadFields ∨ key ∈ cacheWriteFields) :
    optionalTokenCount (get clean key) = optionalTokenCount (get usage key) := by
  have cleaned := (finds key).trans (cleanFind_of_cache cache)
  cases unreadable : isUnreadableCache usage key with
  | true =>
    have notRead := unreadable
    rw [isUnreadableCache, Bool.and_eq_true, Option.isNone_iff_eq_none] at notRead
    rw [unreadable, if_pos rfl] at cleaned
    rw [notRead.2, get, cleaned]
    rfl
  | false =>
    rw [unreadable, if_neg Bool.false_ne_true] at cleaned
    split_ifs at cleaned with count
    · cases found : usage.find key with
      | none =>
        rw [found] at cleaned
        rw [get_congr (cleaned.trans found.symm)]
      | some value =>
        rw [found] at cleaned
        rw [get_of_find found, get_of_find cleaned]
        have isSmall := small key (List.mem_append_left _ count)
        rw [get_of_find found] at isSmall
        rcases (isUnreadableCache_eq_false_iff cache).mp unreadable with null | readable
        · rw [get_of_find found] at null
          rw [isNull_converted_cleanCount null]
        · rw [get_of_find found] at readable
          rcases Option.isSome_iff_exists.mp readable with ⟨amount, read⟩
          rw [converted_of_optionalTokenCount read isSmall, read]
          exact optionalTokenCount_int amount
    · rw [get_congr cleaned]

theorem findSome?_get_congr {other : Usage} {fields : List String} (same : ∀ field ∈ fields,
      optionalTokenCount (get other field) = optionalTokenCount (get usage field)) :
    (fields.map (get other)).findSome? optionalTokenCount =
      (fields.map (get usage)).findSome? optionalTokenCount := by
  induction fields with
  | nil => rfl
  | cons field rest ih =>
    rw [List.map_cons, List.map_cons, List.findSome?_cons, List.findSome?_cons,
      same field (by simp), ih fun later inside => same later (List.mem_cons_of_mem _ inside)]

section

variable (finds : ∀ key, clean.find key = cleanFind usage key)
  (small : ∀ field ∈ countNames, isHuge (get usage field) = false)

include finds small

theorem cacheReadValues_clean : (cacheReadValues clean).findSome? optionalTokenCount =
      (cacheReadValues usage).findSome? optionalTokenCount := by
  have nested : ∀ field ∈ detailsFields,
      nestedCacheReads (get clean field) = nestedCacheReads (get usage field) := by
    intro field inside
    have details : isDetails field = true := by
      revert field
      decide
    have cleaned := (finds field).trans (cleanFind_of_details details)
    unfold get
    rw [cleaned]
    unfold isUnreadableDetails
    rw [details]
    cases found : usage.find field with
    | none => simp
    | some value => cases value <;> simp [get, found, nestedCacheReads]
  unfold cacheReadValues
  rw [List.findSome?_append, List.findSome?_append, List.flatMap_congr nested,
    findSome?_get_congr fun field inside => optionalTokenCount_clean finds small (Or.inl inside)]

theorem cacheWriteValues_clean : (cacheWriteValues clean).findSome? optionalTokenCount =
      (cacheWriteValues usage).findSome? optionalTokenCount :=
  findSome?_get_congr fun _ inside => optionalTokenCount_clean finds small (Or.inr inside)

end

theorem findSome?_eq_some_iff {values : List Value} :
    values.findSome? optionalTokenCount = some count ↔
      ∃ value, values.find? (fun value => (optionalTokenCount value).isSome) = some value ∧
        optionalTokenCount value = some count := by
  induction values with
  | nil => simp
  | cons value rest ih =>
    rw [List.findSome?_cons, List.find?_cons]
    cases read : optionalTokenCount value with
    | none => simpa using ih
    | some found => simp [read]

theorem extractReasoningTokens_clean (finds : ∀ key, clean.find key = cleanFind usage key)
    (unreported : (get usage "reasoning_tokens").isNull = true) :
    extractReasoningTokens clean = extractReasoningTokens usage := by
  have cleaned : clean.find "reasoning_tokens" = usage.find "reasoning_tokens" := by
    rw [finds, cleanFind_of_count (by decide) (by decide)]
    cases found : usage.find "reasoning_tokens" with
    | none => rfl
    | some value =>
      rw [get_of_find found] at unreported
      exact congrArg some (isNull_converted_cleanCount unreported)
  rcases reasoningValues_clean finds with ⟨rest, ofClean, ofUsage⟩
  unfold extractReasoningTokens
  rw [ofClean, ofUsage, cleaned]

theorem extractReasoningTokens_of_reported (finds : ∀ key, clean.find key = cleanFind usage key)
    (small : ∀ field ∈ countNames, isHuge (get usage field) = false)
    (reported : (get usage "reasoning_tokens").isNull = false) :
    ∃ count : ℕ, extractReasoningTokens clean = .ok (some count) ∧
      PyFloat.holdsInt count = true := by
  have isSmall := small "reasoning_tokens" (by decide)
  cases found : usage.find "reasoning_tokens" with
  | none => simp [get, found, Value.isNull] at reported
  | some value =>
    rw [get_of_find found] at reported isSmall
    have cleaned : clean.find "reasoning_tokens" = some (converted cleanCount value) := by
      rw [finds, cleanFind_of_count (by decide) (by decide), found]
      rfl
    rcases reasoningValues_clean finds with ⟨rest, ofClean, -⟩
    rcases reported_cleanCount isSmall reported with ⟨count, isInt, holds⟩
    refine ⟨count, ?_, holds⟩
    unfold extractReasoningTokens
    rw [ofClean, cleaned, isInt]
    rfl

end Extracting

section Flattening

variable {usage clean : Usage}

def flattened (clean : Usage) (reasoning : Option ℤ) : Usage :=
  addFound (addFound (addFound clean "reasoning_tokens" reasoning)
    "cache_read_tokens" ((extractCacheTokens clean false).1.map fun count : ℕ => (count : ℤ)))
    "cache_write_tokens" ((extractCacheTokens clean false).2.map fun count : ℕ => (count : ℤ))

theorem extractCacheTokens_eq (clean : Usage) : extractCacheTokens clean false =
      ((cacheReadValues clean).findSome? optionalTokenCount,
        (cacheWriteValues clean).findSome? optionalTokenCount) := by
  simp [extractCacheTokens]

theorem normalizeUsage_eq (nonempty : usage.keys.isEmpty = false)
    (ran : sanitizeUsage (readableUsage usage) false = .ok clean) :
    normalizeUsage usage =
      (extractReasoningTokens clean).map fun found => some (flattened clean found) := by
  unfold normalizeUsage
  rw [nonempty, if_neg Bool.false_ne_true, ran]
  change (extractReasoningTokens clean).bind _ = _
  cases extractReasoningTokens clean <;> rfl

theorem find_addFound (usage : Usage) (field key : String) (found : Option ℤ) :
    (addFound usage field found).find key =
      if key = field then (found.map Value.int).or (usage.find key) else usage.find key := by
  cases found with
  | none => simp [addFound]
  | some count =>
    change Dict.find (AList.insert field (Value.int count) usage) key = _
    rw [Dict.find_insert]
    split_ifs <;> rfl

theorem find_flattened (clean : Usage) (reasoning : Option ℤ) (key : String) :
    (flattened clean reasoning).find key =
      if key = "reasoning_tokens" then (reasoning.map Value.int).or (clean.find key)
      else if key = "cache_read_tokens" then
        (((cacheReadValues clean).findSome? optionalTokenCount).map fun count : ℕ =>
          Value.int count).or (clean.find key)
      else if key = "cache_write_tokens" then
        (((cacheWriteValues clean).findSome? optionalTokenCount).map fun count : ℕ =>
          Value.int count).or (clean.find key)
      else clean.find key := by
  unfold flattened
  rw [extractCacheTokens_eq, find_addFound, find_addFound, find_addFound, Option.map_map,
    Option.map_map]
  by_cases write : key = "cache_write_tokens"
  · subst write
    rfl
  · by_cases read : key = "cache_read_tokens"
    · subst read
      rfl
    · simp [write, read]

def foundFields : List String := ["reasoning_tokens", "cache_read_tokens", "cache_write_tokens"]

theorem find_flattened_of_not_mem {reasoning : Option ℤ} {key : String}
    (other : key ∉ foundFields) : (flattened clean reasoning).find key = clean.find key := by
  simp only [foundFields, List.mem_cons, List.not_mem_nil, or_false, not_or] at other
  rw [find_flattened, if_neg other.1, if_neg other.2.1, if_neg other.2.2]

variable {second : Usage} {reasoning : Option ℤ}

section

variable (same : ∀ key, second.find key = (flattened clean reasoning).find key)

include same

theorem extractReasoningTokens_again (found : extractReasoningTokens clean = .ok reasoning) :
    extractReasoningTokens second = .ok reasoning := by
  have top := (same "reasoning_tokens").trans (find_flattened clean reasoning _)
  rw [if_pos rfl] at top
  have others : ∀ key, key ∉ foundFields → second.find key = clean.find key := fun key other =>
    (same key).trans (find_flattened_of_not_mem other)
  rw [← found]
  cases reasoning with
  | none =>
    unfold extractReasoningTokens reasoningValues
    simp only [List.filterMap_cons, List.filterMap_nil, get, top,
      others "thoughts_token_count" (by decide),
      others "thinking_tokens" (by decide), others "completion_tokens_details" (by decide),
      others "usage_metadata" (by decide), others "prompt_tokens_details" (by decide),
      Option.map_none, Option.none_or]
  | some count =>
    rw [found]
    unfold extractReasoningTokens reasoningValues
    simp only [List.filterMap_cons, top, Option.map_some, Option.some_or, List.cons_append]
    rfl

theorem cacheReadValues_again : (cacheReadValues second).findSome? optionalTokenCount =
      (cacheReadValues clean).findSome? optionalTokenCount := by
  have top := (same "cache_read_tokens").trans (find_flattened clean reasoning _)
  rw [if_neg (by decide), if_pos rfl] at top
  have others : ∀ key, key ∉ foundFields → get second key = get clean key := fun key other =>
    get_congr ((same key).trans (find_flattened_of_not_mem other))
  have nested : ∀ field ∈ detailsFields,
      nestedCacheReads (get second field) = nestedCacheReads (get clean field) := by
    intro field inside
    rw [others]
    revert field
    decide
  cases found : (cacheReadValues clean).findSome? optionalTokenCount with
  | none =>
    rw [← found]
    rw [found, Option.map_none, Option.none_or] at top
    unfold cacheReadValues
    simp only [cacheReadFields, List.map_cons, others "cache_read_input_tokens" (by decide),
      others "cached_tokens" (by decide), others "prompt_cache_hit_tokens" (by decide),
      get_congr top, List.map_nil, List.flatMap_congr nested]
  | some count =>
    rw [found, Option.map_some, Option.some_or] at top
    unfold cacheReadValues at found ⊢
    simp only [cacheReadFields, List.map_cons, List.cons_append, List.findSome?_cons] at found ⊢
    rw [others "cache_read_input_tokens" (by decide), others "cached_tokens" (by decide),
      get_of_find top, optionalTokenCount_int]
    cases first : optionalTokenCount (get clean "cache_read_input_tokens") with
    | some amount =>
      rw [first] at found
      exact found
    | none =>
      rw [first] at found
      cases next : optionalTokenCount (get clean "cached_tokens") with
      | some amount =>
        rw [next] at found
        exact found
      | none => rfl

theorem cacheWriteValues_again : (cacheWriteValues second).findSome? optionalTokenCount =
      (cacheWriteValues clean).findSome? optionalTokenCount := by
  have top := (same "cache_write_tokens").trans (find_flattened clean reasoning _)
  have first := get_congr ((same "cache_creation_input_tokens").trans
    (find_flattened_of_not_mem (by decide)))
  cases found : (cacheWriteValues clean).findSome? optionalTokenCount with
  | none =>
    rw [← found]
    rw [found, Option.map_none, Option.none_or] at top
    unfold cacheWriteValues
    simp only [cacheWriteFields, List.map_cons, first, get_congr top, List.map_nil]
  | some count =>
    rw [found, Option.map_some, Option.some_or] at top
    unfold cacheWriteValues at found ⊢
    simp only [cacheWriteFields, List.map_cons, List.findSome?_cons] at found ⊢
    rw [first, get_of_find top, optionalTokenCount_int]
    cases read : optionalTokenCount (get clean "cache_creation_input_tokens") with
    | some amount =>
      rw [read] at found
      exact found
    | none => rfl

end

end Flattening

end HybridInference.Tokens
