import HybridInference.Tokens.Counts

/-!
# Cleaning a usage object

A reader returns on every value but an integer without a double. Where there is none,
`sanitizeUsage` converts each count and drops the details it cannot read, and what is left of
a field is given by `cleanFind`.
-/

namespace HybridInference.Tokens

open Library

def isHuge : Value → Bool
  | .int value => !PyFloat.holdsInt value
  | _ => false

/-- `int(value)` neither gives up on the type of the value nor on its text. -/
def isTaken (value : Value) : Bool :=
  match value.readInt with
  | .ok _ | .error .overflowError => true
  | .error .typeError | .error .valueError => false

def countNames : List String := usageCountFields ++ ["total_tokens"]

variable {value : Value}

theorem readCount_ok_iff : (∃ count, readCount value = .ok count) ↔ isHuge value = false := by
  cases value with
  | int value =>
    unfold readCount isHuge
    cases holds : PyFloat.holdsInt value with
    | true =>
      refine iff_of_true ?_ (by simp [holds])
      simp only [holds, Bool.not_true, Bool.false_eq_true, if_false]
      split_ifs
      · exact ⟨_, rfl⟩
      · exact ⟨_, rfl⟩
    | false => simp [holds]
  | _ => exact iff_of_true ⟨_, rfl⟩ rfl

theorem cleanCount_ok_iff : (∃ cleaned, cleanCount value = .ok cleaned) ↔ isHuge value = false := by
  rw [← readCount_ok_iff]
  unfold cleanCount usageCount
  by_cases null : value.isNull = true
  · rw [if_pos null]
    refine iff_of_true ⟨_, rfl⟩ ?_
    cases value <;> first | contradiction | exact ⟨_, rfl⟩
  · rw [if_neg null, if_neg null]
    cases readCount value with
    | error raised => simp [Except.map]
    | ok count => exact iff_of_true ⟨_, rfl⟩ ⟨_, rfl⟩

theorem cleanTotal_ok_iff : (∃ cleaned, cleanTotal value = .ok cleaned) ↔ isHuge value = false := by
  rw [← readCount_ok_iff]
  unfold cleanTotal
  by_cases null : value.isNull = true
  · rw [if_pos null]
    refine iff_of_true ⟨_, rfl⟩ ?_
    cases value <;> first | contradiction | exact ⟨_, rfl⟩
  · rw [if_neg null]
    cases readCount value with
    | error raised => simp [Except.map]
    | ok count => exact iff_of_true ⟨_, rfl⟩ ⟨_, rfl⟩

def converted (convert : Value → Except PyError Value) (value : Value) : Value :=
  (convert value).toOption.getD value

theorem converted_eq {convert : Value → Except PyError Value}
    (returns : ∃ cleaned, convert value = .ok cleaned) :
    convert value = .ok (converted convert value) := by
  rcases returns with ⟨cleaned, ran⟩
  simp [converted, ran, Except.toOption]

section Sanitizing

variable {usage other : Usage}

variable {field : String}

theorem get_of_find (found : usage.find field = some value) : get usage field = value := by
  simp [get, found]

theorem get_congr (same : other.find field = usage.find field) :
    get other field = get usage field := by
  simp [get, same]

theorem find_fillCount (usage : Usage) (field key : String) : (fillCount usage field).find key =
      if key = field ∧ (get usage field).isNull = true then some (.int 0) else usage.find key := by
  unfold fillCount
  split_ifs with null both both
  · rw [Dict.find_insert, if_pos both.1]
  · rw [Dict.find_insert, if_neg]
    exact fun same => both ⟨same, null⟩
  · exact absurd both.2 null
  · rfl

theorem isHuge_fillCounts {complete : Bool} (small : isHuge (get usage field) = false) :
    isHuge (get (fillCounts complete usage) field) = false := by
  have zero_small : isHuge (.int 0) = false := by decide +kernel
  have filled : ∀ (usage : Usage) (name : String), isHuge (get usage field) = false →
      isHuge (get (fillCount usage name) field) = false := by
    intro usage name small
    unfold get
    rw [find_fillCount]
    split_ifs
    · exact zero_small
    · exact small
  unfold fillCounts
  split_ifs
  · exact filled _ _ (filled _ _ small)
  · exact small

theorem mem_keys_iff : field ∈ usage.keys ↔ ∃ value, usage.find field = some value := by
  rw [← Dict.find_isSome_iff, Option.isSome_iff_exists]

theorem find_dropDetails (usage : Usage) (key : String) : (dropDetails usage).find key =
      if isUnreadableDetails usage key then none else usage.find key :=
  Dict.find_eraseAll_filter usage (isUnreadableDetails usage) key

theorem find_readableUsage (usage : Usage) (key : String) : (readableUsage usage).find key =
      if isUnreadableCache usage key then none else usage.find key :=
  Dict.find_eraseAll_filter usage (isUnreadableCache usage) key

theorem usageCountFields_nodup : usageCountFields.Nodup := by decide

theorem isHuge_find (small : isHuge (get usage field) = false)
    (found : usage.find field = some value) : isHuge value = false :=
  get_of_find found ▸ small

theorem counted_totalled (small : ∀ field ∈ countNames, isHuge (get usage field) = false) :
    ∃ counted totalled, usage.updateEach cleanCount usageCountFields = .ok counted ∧
      counted.updateEach cleanTotal ["total_tokens"] = .ok totalled ∧
      ∀ key, totalled.find key =
        if key ∈ usageCountFields then (usage.find key).map (converted cleanCount)
        else if key = "total_tokens" then (usage.find key).map (converted cleanTotal)
        else usage.find key := by
  rcases Dict.updateEach_ok (converted cleanCount) usageCountFields_nodup usage
    (fun field inside value found => converted_eq (cleanCount_ok_iff.mpr
      (isHuge_find (small field (List.mem_append_left _ inside)) found))) with
    ⟨counted, ranCounts, counts⟩
  have total : counted.find "total_tokens" = usage.find "total_tokens" := by
    rw [counts, if_neg (by decide)]
  have each : ∀ field ∈ ["total_tokens"], ∀ value, counted.find field = some value →
      cleanTotal value = .ok (converted cleanTotal value) := by
    intro field inside value found
    obtain rfl := List.mem_singleton.mp inside
    rw [total] at found
    exact converted_eq (cleanTotal_ok_iff.mpr
      (isHuge_find (small _ (List.mem_append_right _ (by simp))) found))
  rcases Dict.updateEach_ok (converted cleanTotal) (List.nodup_singleton "total_tokens") counted
    each with ⟨totalled, ranTotal, totals⟩
  refine ⟨counted, totalled, ranCounts, ranTotal, fun key => ?_⟩
  rw [totals, counts]
  by_cases isCount : key ∈ usageCountFields
  · have notTotal : key ≠ "total_tokens" := by
      rintro rfl
      exact absurd isCount (by decide)
    simp [isCount, notTotal]
  · simp [isCount]

/-- What `sanitize_usage` leaves of a field. -/
def sanitizedFind (usage : Usage) (key : String) : Option Value :=
  if isUnreadableDetails usage key then none
  else if key ∈ usageCountFields then (usage.find key).map (converted cleanCount)
  else if key = "total_tokens" then (usage.find key).map (converted cleanTotal)
  else usage.find key

theorem not_isDetails_of_mem_countNames {key : String} (inside : key ∈ countNames) :
    isDetails key = false := by
  revert key
  decide

theorem isUnreadableDetails_congr {key : String}
    (same : isDetails key = true → other.find key = usage.find key) :
    isUnreadableDetails other key = isUnreadableDetails usage key := by
  unfold isUnreadableDetails
  cases details : isDetails key with
  | true => rw [get_congr (same details)]
  | false => rfl

theorem sanitizeUsage_find (small : ∀ field ∈ countNames, isHuge (get usage field) = false) :
    ∃ clean, sanitizeUsage usage false = .ok clean ∧
      ∀ key, clean.find key = sanitizedFind usage key := by
  rcases counted_totalled small with ⟨counted, totalled, ranCounts, ranTotal, finds⟩
  refine ⟨dropDetails totalled, ?_, fun key => ?_⟩
  · unfold sanitizeUsage fillCounts fillTotal
    simp only [Bool.false_eq_true, if_false, Bool.false_and]
    rw [ranCounts]
    change (counted.updateEach cleanTotal ["total_tokens"]).bind _ = _
    rw [ranTotal]
    rfl
  · rw [find_dropDetails, isUnreadableDetails_congr, finds]
    · rfl
    · intro details
      have notName : key ∉ countNames := by
        intro inside
        rw [not_isDetails_of_mem_countNames inside] at details
        contradiction
      rw [countNames, List.mem_append, List.mem_singleton, not_or] at notName
      rw [finds, if_neg notName.1, if_neg notName.2]

theorem sanitizeUsage_returns (small : ∀ field ∈ countNames, isHuge (get usage field) = false)
    (complete : Bool) : ∃ clean, sanitizeUsage usage complete = .ok clean := by
  have filled : ∀ field ∈ countNames, isHuge (get (fillCounts complete usage) field) = false :=
    fun field inside => isHuge_fillCounts (small field inside)
  rcases counted_totalled filled with ⟨counted, totalled, ranCounts, ranTotal, -⟩
  refine ⟨dropDetails (fillTotal complete totalled), ?_⟩
  unfold sanitizeUsage
  rw [ranCounts]
  change (counted.updateEach cleanTotal ["total_tokens"]).bind _ = _
  rw [ranTotal]
  rfl

theorem small_of_sanitizeUsage (returns : ∃ clean, sanitizeUsage usage false = .ok clean) :
    ∀ field ∈ countNames, isHuge (get usage field) = false := by
  rcases returns with ⟨clean, ran⟩
  unfold sanitizeUsage fillCounts at ran
  simp only [Bool.false_eq_true, if_false] at ran
  have smallCounts : ∀ field ∈ usageCountFields, isHuge (get usage field) = false := by
    intro field inside
    cases found : usage.find field with
    | none => simp [get, found, isHuge]
    | some value =>
      rw [get_of_find found, ← cleanCount_ok_iff]
      cases converts : cleanCount value with
      | ok cleaned => exact ⟨cleaned, rfl⟩
      | error raised =>
        rcases Dict.updateEach_error usageCountFields_nodup inside found converts with
          ⟨error, raises⟩
        rw [raises] at ran
        contradiction
  intro field inside
  rcases List.mem_append.mp inside with isCount | isTotal
  · exact smallCounts field isCount
  · obtain rfl := List.mem_singleton.mp isTotal
    have each : ∀ field ∈ usageCountFields, ∀ value, usage.find field = some value →
        cleanCount value = .ok (converted cleanCount value) := fun field inside value found =>
      converted_eq (cleanCount_ok_iff.mpr (isHuge_find (smallCounts field inside) found))
    rcases Dict.updateEach_ok (converted cleanCount) usageCountFields_nodup usage each with
      ⟨counted, ranCounts, counts⟩
    rw [ranCounts] at ran
    have total : counted.find "total_tokens" = usage.find "total_tokens" := by
      rw [counts, if_neg (by decide)]
    cases found : usage.find "total_tokens" with
    | none => simp [get, found, isHuge]
    | some value =>
      rw [get_of_find found, ← cleanTotal_ok_iff]
      cases converts : cleanTotal value with
      | ok cleaned => exact ⟨cleaned, rfl⟩
      | error raised =>
        rcases Dict.updateEach_error (List.nodup_singleton "total_tokens") (by simp)
          (total.trans found) converts with ⟨error, raises⟩
        change (counted.updateEach cleanTotal ["total_tokens"]).bind _ = _ at ran
        rw [raises] at ran
        contradiction

end Sanitizing

section Finding

variable {usage other : Usage}

theorem firstInt_eq (values : List Value) : firstInt values = match values.find? isTaken with
      | none => .ok none
      | some value => value.readInt.map some := by
  induction values with
  | nil => rfl
  | cons value rest ih =>
    unfold firstInt
    rw [List.find?_cons, ih]
    cases read : value.readInt with
    | error raised => cases raised <;> simp [isTaken, read, Except.map]
    | ok count => simp [isTaken, read, Except.map]

theorem extractReasoningTokens_ok_iff : (∃ found, extractReasoningTokens usage = .ok found) ↔
      ∀ value, (reasoningValues usage).find? isTaken = some value →
        ∃ count, value.readInt = .ok count := by
  unfold extractReasoningTokens
  rw [firstInt_eq]
  cases (reasoningValues usage).find? isTaken with
  | none => simp
  | some value =>
    simp only [Option.some.injEq, forall_eq']
    cases value.readInt with
    | error raised => simp [Except.map]
    | ok count => exact iff_of_true ⟨_, rfl⟩ ⟨_, rfl⟩

def cleanFind (usage : Usage) (key : String) : Option Value :=
  sanitizedFind (readableUsage usage) key

variable {key : String}

theorem not_isUnreadableCache_of_not_mem (absent : key ∉ cacheReadFields ∧ key ∉ cacheWriteFields) :
    isUnreadableCache usage key = false := by
  simp [isUnreadableCache, absent.1, absent.2]

theorem find_readableUsage_of_not_mem (absent : key ∉ cacheReadFields ∧ key ∉ cacheWriteFields) :
    (readableUsage usage).find key = usage.find key := by
  rw [find_readableUsage, not_isUnreadableCache_of_not_mem absent]
  rfl

theorem not_mem_cacheFields_of_isDetails (details : isDetails key = true) :
    key ∉ cacheReadFields ∧ key ∉ cacheWriteFields := by
  constructor
  · revert details
    contrapose!
    revert key
    decide
  · revert details
    contrapose!
    revert key
    decide

theorem cleanFind_of_plain (notCount : key ∉ countNames)
    (notCache : key ∉ cacheReadFields ∧ key ∉ cacheWriteFields)
    (notDetails : isDetails key = false) : cleanFind usage key = usage.find key := by
  rw [countNames, List.mem_append, List.mem_singleton, not_or] at notCount
  unfold cleanFind sanitizedFind isUnreadableDetails
  rw [notDetails]
  simp [notCount.1, notCount.2, find_readableUsage_of_not_mem notCache]

theorem cleanFind_of_details (details : isDetails key = true) :
    cleanFind usage key = if isUnreadableDetails usage key then none else usage.find key := by
  have notCache := not_mem_cacheFields_of_isDetails details
  have notCount : key ∉ countNames := by
    intro inside
    rw [not_isDetails_of_mem_countNames inside] at details
    contradiction
  rw [countNames, List.mem_append, List.mem_singleton, not_or] at notCount
  unfold cleanFind sanitizedFind
  rw [isUnreadableDetails_congr fun _ => find_readableUsage_of_not_mem notCache]
  simp [notCount.1, notCount.2, find_readableUsage_of_not_mem notCache]

theorem cleanFind_of_cache (cache : key ∈ cacheReadFields ∨ key ∈ cacheWriteFields) :
    cleanFind usage key = if isUnreadableCache usage key then none
      else if key ∈ usageCountFields then (usage.find key).map (converted cleanCount)
      else usage.find key := by
  have notDetails : isDetails key = false := by
    cases details : isDetails key with
    | false => rfl
    | true =>
      have absent := not_mem_cacheFields_of_isDetails details
      exact absurd cache (not_or.mpr absent)
  have notTotal : key ≠ "total_tokens" := by
    rintro rfl
    exact absurd cache (by decide)
  unfold cleanFind sanitizedFind isUnreadableDetails
  rw [notDetails, find_readableUsage]
  simp only [Bool.false_and, Bool.false_eq_true, if_false, notTotal]
  split_ifs <;> rfl

theorem cleanFind_of_count (count : key ∈ usageCountFields)
    (notCache : key ∉ cacheReadFields ∧ key ∉ cacheWriteFields) :
    cleanFind usage key = (usage.find key).map (converted cleanCount) := by
  unfold cleanFind sanitizedFind isUnreadableDetails
  rw [not_isDetails_of_mem_countNames (List.mem_append_left _ count), if_pos count,
    find_readableUsage_of_not_mem notCache]
  rfl

theorem detailsAt_get (key : String) (details : isDetails key = true)
    (clean : other.find key = cleanFind usage key) (names : List String) :
    detailsAt (get other key) names = detailsAt (get usage key) names := by
  rw [cleanFind_of_details details] at clean
  unfold get
  rw [clean]
  unfold isUnreadableDetails
  rw [details]
  cases found : usage.find key with
  | none => simp
  | some value => cases value <;> simp [get, found, detailsAt]

theorem isNull_converted_cleanCount (null : value.isNull = true) :
    converted cleanCount value = value := by
  simp [converted, cleanCount, null, Except.toOption]

theorem reasoningValues_clean (clean : ∀ key, other.find key = cleanFind usage key) :
    ∃ rest, reasoningValues other = ((other.find "reasoning_tokens").toList ++ rest) ∧
      reasoningValues usage = ((usage.find "reasoning_tokens").toList ++ rest) := by
  have plain : ∀ key ∈ ["thoughts_token_count", "thinking_tokens", "usage_metadata"],
      other.find key = usage.find key := by
    intro key inside
    rw [clean key]
    apply cleanFind_of_plain
    · revert key; decide
    · revert key; decide
    · revert key; decide
  have thoughts := plain "thoughts_token_count" (by simp)
  have thinking := plain "thinking_tokens" (by simp)
  have metadata := get_congr (plain "usage_metadata" (by simp))
  have completion := detailsAt_get "completion_tokens_details" (by decide) (clean _)
    ["reasoning_tokens", "thinking_tokens"]
  have prompt := detailsAt_get "prompt_tokens_details" (by decide) (clean _) ["reasoning_tokens"]
  refine ⟨["thoughts_token_count", "thinking_tokens"].filterMap usage.find ++
    detailsAt (get usage "completion_tokens_details") ["reasoning_tokens", "thinking_tokens"] ++
    detailsAt (get usage "usage_metadata")
      ["thoughts_token_count", "thinking_tokens", "reasoning_tokens"] ++
    detailsAt (get usage "prompt_tokens_details") ["reasoning_tokens"], ?_, ?_⟩
  · unfold reasoningValues
    rw [completion, prompt, metadata]
    cases found : other.find "reasoning_tokens" <;>
      simp [List.filterMap_cons, thoughts, thinking, found]
  · unfold reasoningValues
    cases found : usage.find "reasoning_tokens" <;> simp [List.filterMap_cons, found]

end Finding

end HybridInference.Tokens
