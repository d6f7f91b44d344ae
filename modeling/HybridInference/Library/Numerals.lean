import HybridInference.Library.Json
import Mathlib.Data.Int.Log
import Mathlib.Data.Rat.Floor

/-!
# Numbers as a Python program reads them

Integers of any size, doubles, and the texts that `int` and `float` read. A finite double is
a rational number of at most the largest double. A value is what `json.loads` returns, with
integers and floats kept apart.
-/

namespace HybridInference.Library

inductive PyError where
  | typeError
  | valueError
  | overflowError
  deriving DecidableEq

def maxDouble : ℚ := (2 ^ 53 - 1) * 2 ^ 971

abbrev Double := { value : ℚ // |value| ≤ maxDouble }

inductive PyFloat where
  | finite (value : Double)
  | infinite (negative : Bool)
  | nan
  deriving DecidableEq

namespace PyFloat

def roundHalfEven (value : ℚ) : ℤ :=
  let below := ⌊value⌋
  if value - below < 1 / 2 then below
  else if 1 / 2 < value - below then below + 1
  else if below % 2 = 0 then below
  else below + 1

def nearest (value : ℚ) : ℚ :=
  if value = 0 then 0
  else
    let exponent := max (Int.log 2 |value| - 52) (-1074)
    roundHalfEven (value / 2 ^ exponent) * 2 ^ exponent

def ofRational (value : ℚ) : PyFloat :=
  if bounded : |nearest value| ≤ maxDouble then .finite ⟨nearest value, bounded⟩
  else .infinite (value < 0)

/-- `int(value)`: towards zero. -/
def toInt (value : ℚ) : ℤ := if 0 ≤ value then ⌊value⌋ else ⌈value⌉

/-- The integer has a double: `float` of it does not raise `OverflowError`. -/
@[irreducible] def holdsInt (value : ℤ) : Bool := value.natAbs < 2 ^ 1024 - 2 ^ 970

theorem toInt_nonneg {value : ℚ} (nonneg : 0 ≤ value) : 0 ≤ toInt value := by
  unfold toInt
  rw [if_pos nonneg]
  exact Int.floor_nonneg.mpr nonneg

theorem natAbs_toInt_le (value : ℚ) : ((toInt value).natAbs : ℚ) ≤ |value| := by
  rw [Nat.cast_natAbs, Int.cast_abs]
  unfold toInt
  split_ifs with nonneg
  · rw [abs_of_nonneg nonneg, abs_of_nonneg (by exact_mod_cast Int.floor_nonneg.mpr nonneg)]
    exact Int.floor_le value
  · have below : value ≤ 0 := le_of_lt (not_le.mp nonneg)
    have ceil : ⌈value⌉ ≤ 0 := Int.ceil_le.mpr (by exact_mod_cast below)
    rw [abs_of_nonpos below, abs_of_nonpos (by exact_mod_cast ceil)]
    exact neg_le_neg (Int.le_ceil value)

theorem maxDouble_lt : maxDouble < ((2 ^ 1024 - 2 ^ 970 : ℕ) : ℚ) := by
  have top : (2 : ℚ) ^ 1024 = 2 ^ 54 * 2 ^ 970 := by rw [← pow_add]
  have half : (2 : ℚ) ^ 971 = 2 * 2 ^ 970 := by rw [← pow_succ']
  have positive : (0 : ℚ) < 2 ^ 970 := pow_pos (by norm_num) _
  rw [Nat.cast_sub (Nat.pow_le_pow_right Nat.two_pos (by omega : 970 ≤ 1024)), Nat.cast_pow,
    Nat.cast_pow, Nat.cast_ofNat, maxDouble, top, half]
  generalize (2 : ℚ) ^ 970 = unit at positive
  linarith

theorem holdsInt_toInt (value : Double) : holdsInt (toInt value.1) = true := by
  have bound := (natAbs_toInt_le value.1).trans value.2
  have below := maxDouble_lt
  unfold holdsInt
  rw [decide_eq_true_eq]
  exact_mod_cast lt_of_le_of_lt bound below

end PyFloat

namespace Text

def digitZeros : List ℕ :=
  [0x30, 0x660, 0x6f0, 0x7c0, 0x966, 0x9e6, 0xa66, 0xae6, 0xb66, 0xbe6, 0xc66, 0xce6, 0xd66, 0xde6,
    0xe50, 0xed0, 0xf20, 0x1040, 0x1090, 0x17e0, 0x1810, 0x1946, 0x19d0, 0x1a80, 0x1a90, 0x1b50,
    0x1bb0, 0x1c40, 0x1c50, 0xa620, 0xa8d0, 0xa900, 0xa9d0, 0xa9f0, 0xaa50, 0xabf0, 0xff10,
    0x104a0, 0x10d30, 0x11066, 0x110f0, 0x11136, 0x111d0, 0x112f0, 0x11450, 0x114d0, 0x11650,
    0x116c0, 0x11730, 0x118e0, 0x11950, 0x11c50, 0x11d50, 0x11da0, 0x11f50, 0x16a60, 0x16ac0,
    0x16b50, 0x1d7ce, 0x1d7d8, 0x1d7e2, 0x1d7ec, 0x1d7f6, 0x1e140, 0x1e2f0, 0x1e4f0, 0x1e950,
    0x1fbf0]

def digitValue (c : Char) : Option ℕ :=
  (digitZeros.find? fun first => first ≤ c.toNat && c.toNat < first + 10).map
    fun first => c.toNat - first

/-- The value of digits, with single underscores between them, after those that gave `value`. -/
def readDigits (value : ℕ) : List Char → Option ℕ
  | [] => some value
  | '_' :: c :: rest => (digitValue c).bind fun digit => readDigits (10 * value + digit) rest
  | c :: rest => (digitValue c).bind fun digit => readDigits (10 * value + digit) rest

def digits : List Char → Option ℕ
  | [] => none
  | c :: rest => (digitValue c).bind fun digit => readDigits digit rest

def readSign : List Char → Bool × List Char
  | '+' :: rest => (false, rest)
  | '-' :: rest => (true, rest)
  | text => (false, text)

def signed (negative : Bool) (value : ℚ) : ℚ := if negative then -value else value

def digitCount (text : List Char) : ℕ := text.countP fun c => c ≠ '_'

/-- `int(text)`: at most 4300 digits are read. -/
def int (text : List Char) : Option ℤ :=
  let (negative, unsigned) := readSign (strip text)
  if 4300 < digitCount unsigned then none
  else (digits unsigned).map fun value => if negative then -(value : ℤ) else value

def readDecimal (text : List Char) : Option ℚ :=
  let whole := text.takeWhile (· ≠ '.')
  match text.dropWhile (· ≠ '.') with
  | [] => (digits whole).map fun value => (value : ℚ)
  | _ :: fraction =>
    if whole.isEmpty && fraction.isEmpty then none
    else do
      let before ← if whole.isEmpty then some 0 else digits whole
      let after ← if fraction.isEmpty then some 0 else digits fraction
      some (before + after / 10 ^ digitCount fraction)

def isExponentMark (c : Char) : Bool := c = 'e' || c = 'E'

def readNumber (text : List Char) : Option ℚ :=
  let mantissa := text.takeWhile fun c => !isExponentMark c
  match text.dropWhile fun c => !isExponentMark c with
  | [] => readDecimal mantissa
  | _ :: rest => do
    let value ← readDecimal mantissa
    let (negative, exponent) := readSign rest
    let power ← digits exponent
    some (value * if negative then (10 ^ power)⁻¹ else 10 ^ power)

/-- The number that `float(text)` rounds, where the text names one. -/
def number (text : List Char) : Option ℚ :=
  let (negative, unsigned) := readSign (strip text)
  (readNumber unsigned).map (signed negative)

/-- `float(text)`. -/
def float (text : List Char) : Option PyFloat :=
  let (negative, unsigned) := readSign (strip text)
  let word := String.ofList (unsigned.map Char.toLower)
  if word = "inf" || word = "infinity" then some (.infinite negative)
  else if word = "nan" then some .nan
  else (number text).map PyFloat.ofRational

end Text

/-- What `json.loads` returns. -/
inductive Value where
  | null
  | bool (value : Bool)
  | int (value : ℤ)
  | float (value : PyFloat)
  | str (value : String)
  | arr (items : List Value)
  | obj (fields : List (String × Value))

namespace Value

def isNull : Value → Bool
  | .null => true
  | _ => false

def isTruthy : Value → Bool
  | .null => false
  | .bool value => value
  | .int value => value ≠ 0
  | .float (.finite value) => value.1 ≠ 0
  | .float (.infinite _) | .float .nan => true
  | .str text => text ≠ ""
  | .arr items => !items.isEmpty
  | .obj fields => !fields.isEmpty

def get (fields : List (String × Value)) (name : String) : Value :=
  (fields.lookup name).getD .null

/-- `int(value)`. -/
def readInt : Value → Except PyError ℤ
  | .null | .arr _ | .obj _ => .error .typeError
  | .bool value => .ok (if value then 1 else 0)
  | .int value => .ok value
  | .float (.finite value) => .ok (PyFloat.toInt value.1)
  | .float (.infinite _) => .error .overflowError
  | .float .nan => .error .valueError
  | .str text =>
    match Text.int text.toList with
    | some value => .ok value
    | none => .error .valueError

end Value

end HybridInference.Library
