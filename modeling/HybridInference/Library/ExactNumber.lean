import HybridInference.Library.Numerals

/-!
# Exact numbers with infinities

Arithmetic on floats with neither rounding nor overflow: a number is a rational, an infinity
or no number, and the operations on the last two are those of the floats.
-/

namespace HybridInference.Library

inductive Exact where
  | finite (value : ℚ)
  | infinite (negative : Bool)
  | nan
  deriving DecidableEq

namespace Exact

def ofFloat : PyFloat → Exact
  | .finite value => .finite value.1
  | .infinite negative => .infinite negative
  | .nan => .nan

/-- What `float(text)` reads. -/
def ofText (text : List Char) : Option Exact :=
  let (negative, unsigned) := Text.readSign (Text.strip text)
  let word := String.ofList (unsigned.map Char.toLower)
  if word = "inf" || word = "infinity" then some (.infinite negative)
  else if word = "nan" then some .nan
  else (Text.number text).map .finite

/-- `float(value)`, where it neither gives up on the type of the value nor on its text. -/
def ofValue : Value → Option Exact
  | .null | .arr _ | .obj _ => none
  | .bool value => some (.finite (if value then 1 else 0))
  | .int value => some (.finite value)
  | .float value => some (ofFloat value)
  | .str text => ofText text.toList

def neg : Exact → Exact
  | .finite value => .finite (-value)
  | .infinite negative => .infinite !negative
  | .nan => .nan

def add : Exact → Exact → Exact
  | .finite left, .finite right => .finite (left + right)
  | .infinite left, .infinite right => if left = right then .infinite left else .nan
  | .infinite negative, .finite _ | .finite _, .infinite negative => .infinite negative
  | .nan, _ | _, .nan => .nan

def sub (left right : Exact) : Exact := left.add right.neg

def mul : Exact → Exact → Exact
  | .finite left, .finite right => .finite (left * right)
  | .infinite left, .infinite right => .infinite (left != right)
  | .infinite negative, .finite value | .finite value, .infinite negative =>
    if value = 0 then .nan else .infinite (negative != decide (value < 0))
  | .nan, _ | _, .nan => .nan

def scaleDown (value : Exact) (divisor : ℚ) : Exact := value.mul (.finite divisor⁻¹)

def lt : Exact → Exact → Bool
  | .finite left, .finite right => left < right
  | .infinite negative, .finite _ => negative
  | .finite _, .infinite negative => !negative
  | .infinite left, .infinite right => left && !right
  | .nan, _ | _, .nan => false

def max (left right : Exact) : Exact := if left.lt right then right else left

/-- `math.isclose(left, right, rel_tol=0.0, abs_tol=tolerance)`. -/
def isClose (left right : Exact) (tolerance : ℚ) : Bool :=
  match left, right with
  | .finite left, .finite right => |left - right| ≤ tolerance
  | .infinite left, .infinite right => left = right
  | _, _ => false

def isNegative (value : Exact) : Bool := value.lt (.finite 0)

def isNonPositive (value : Exact) : Bool := value.isNegative || value = .finite 0

theorem isNegative_finite {value : ℚ} : isNegative (.finite value) = false ↔ 0 ≤ value := by
  simp [isNegative, lt]

theorem isNegative_add {left right : Exact} (leftNonneg : left.isNegative = false)
    (rightNonneg : right.isNegative = false) : (left.add right).isNegative = false := by
  cases left with
  | nan => cases right <;> rfl
  | infinite negative =>
    obtain rfl : negative = false := leftNonneg
    cases right with
    | nan => rfl
    | infinite other =>
      obtain rfl : other = false := rightNonneg
      rfl
    | finite value => rfl
  | finite value =>
    cases right with
    | nan => rfl
    | infinite negative => exact rightNonneg
    | finite other =>
      rw [isNegative_finite] at leftNonneg rightNonneg
      exact isNegative_finite.mpr (add_nonneg leftNonneg rightNonneg)

theorem isNegative_infinite_mul {value : ℚ} (nonneg : 0 ≤ value) :
    isNegative (if value = 0 then .nan else .infinite (false != decide (value < 0))) = false := by
  split_ifs
  · rfl
  · simpa [isNegative, lt] using nonneg

theorem isNegative_mul {left right : Exact} (leftNonneg : left.isNegative = false)
    (rightNonneg : right.isNegative = false) : (left.mul right).isNegative = false := by
  cases left with
  | nan => cases right <;> rfl
  | infinite negative =>
    obtain rfl : negative = false := leftNonneg
    cases right with
    | nan => rfl
    | infinite other =>
      obtain rfl : other = false := rightNonneg
      rfl
    | finite value => exact isNegative_infinite_mul (isNegative_finite.mp rightNonneg)
  | finite value =>
    cases right with
    | nan => rfl
    | infinite negative =>
      obtain rfl : negative = false := rightNonneg
      exact isNegative_infinite_mul (isNegative_finite.mp leftNonneg)
    | finite other =>
      rw [isNegative_finite] at leftNonneg rightNonneg
      exact isNegative_finite.mpr (mul_nonneg leftNonneg rightNonneg)

theorem isNegative_scaleDown {value : Exact} (nonneg : value.isNegative = false) {divisor : ℚ}
    (positive : 0 < divisor) : (value.scaleDown divisor).isNegative = false :=
  isNegative_mul nonneg (isNegative_finite.mpr (inv_nonneg.mpr positive.le))

theorem isNegative_max_zero (value : Exact) : (value.max (.finite 0)).isNegative = false := by
  unfold max
  split_ifs with below
  · exact isNegative_finite.mpr le_rfl
  · exact Bool.not_eq_true _ ▸ below

end Exact

end HybridInference.Library
