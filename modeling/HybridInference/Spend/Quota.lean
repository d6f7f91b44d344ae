import Mathlib.Algebra.Order.Field.Rat

/-!
# Spending limits

The decision of `serving.quota`: a request is refused by the narrowest limit it
does not fit under, each limit charging it the same estimate.
-/

namespace HybridInference.Spend

def estimatedRequestCostUsd : ℚ := 1 / 100

inductive Scope where
  | key
  | account
  deriving DecidableEq

inductive Window where
  | day
  | month
  deriving DecidableEq

inductive Limit where
  | accountDay
  | accountMonth
  | keyDay
  | keyMonth
  deriving DecidableEq

def limits : List Limit :=
  [.accountDay, .accountMonth, .keyDay, .keyMonth]

theorem mem_limits (limit : Limit) : limit ∈ limits := by
  cases limit <;> simp [limits]

structure BudgetRefusal where
  scope : Scope
  window : Window
  limitUsd : ℚ
  spentUsd : ℚ
  keyPrefix : Option String := none
  keyLabel : Option String := none
  deriving DecidableEq

/-- `_over`. -/
def overLimit (limitUsd : Option ℚ) (spentUsd : ℚ) : Bool :=
  limitUsd.any fun limit => limit < spentUsd + estimatedRequestCostUsd

def firstRefusal (limitUsd : Limit → Option ℚ) (spentUsd : Limit → ℚ)
    (keyPrefix keyLabel : Option String) : Option BudgetRefusal :=
  if overLimit (limitUsd .keyDay) (spentUsd .keyDay) then
    some
      { scope := .key
        window := .day
        limitUsd := (limitUsd .keyDay).getD 0
        spentUsd := spentUsd .keyDay
        keyPrefix := keyPrefix
        keyLabel := keyLabel }
  else if overLimit (limitUsd .keyMonth) (spentUsd .keyMonth) then
    some
      { scope := .key
        window := .month
        limitUsd := (limitUsd .keyMonth).getD 0
        spentUsd := spentUsd .keyMonth
        keyPrefix := keyPrefix
        keyLabel := keyLabel }
  else if overLimit (limitUsd .accountDay) (spentUsd .accountDay) then
    some
      { scope := .account
        window := .day
        limitUsd := (limitUsd .accountDay).getD 0
        spentUsd := spentUsd .accountDay }
  else if overLimit (limitUsd .accountMonth) (spentUsd .accountMonth) then
    some
      { scope := .account
        window := .month
        limitUsd := (limitUsd .accountMonth).getD 0
        spentUsd := spentUsd .accountMonth }
  else none

theorem fits_of_firstRefusal_none {limitUsd : Limit → Option ℚ} {spentUsd : Limit → ℚ}
    {keyPrefix keyLabel : Option String}
    (admitted : firstRefusal limitUsd spentUsd keyPrefix keyLabel = none) (limit : Limit)
    {quota : ℚ} (limited : limitUsd limit = some quota) :
    spentUsd limit + estimatedRequestCostUsd ≤ quota := by
  have under : overLimit (limitUsd limit) (spentUsd limit) = false := by
    unfold firstRefusal at admitted
    split_ifs at admitted with keyDay keyMonth accountDay accountMonth
    cases limit with
    | accountDay => simpa using accountDay
    | accountMonth => simpa using accountMonth
    | keyDay => simpa using keyDay
    | keyMonth => simpa using keyMonth
  rw [limited] at under
  simpa [overLimit] using under

end HybridInference.Spend
