import HybridInference.Library.Numerals

/-!
# Equality of JSON values as Python compares them

Numbers compare across their kinds, so `True`, `1` and `1.0` are equal, and a NaN equals nothing.
Dictionaries are equal when they have the same keys with equal values, in any order. The values
compared share no objects.
-/

namespace HybridInference.Library

namespace Value

def numeric : Value → Option (ℚ ⊕ Bool)
  | .bool value => some (.inl (if value then 1 else 0))
  | .int value => some (.inl value)
  | .float (.finite value) => some (.inl value.1)
  | .float (.infinite negative) => some (.inr negative)
  | _ => none

mutual

def equal : Value → Value → Bool
  | .null, .null => true
  | .str first, .str second => first = second
  | .arr first, .arr second => equalItems first second
  | .obj first, .obj second => first.length = second.length && equalFields first second
  | first, second =>
    match first.numeric, second.numeric with
    | some first, some second => first = second
    | _, _ => false

def equalItems : List Value → List Value → Bool
  | [], [] => true
  | first :: firsts, second :: seconds => equal first second && equalItems firsts seconds
  | _, _ => false

def equalFields : List (String × Value) → List (String × Value) → Bool
  | [], _ => true
  | (name, first) :: rest, fields =>
    (match fields.lookup name with
    | some second => equal first second
    | none => false) && equalFields rest fields

end

example : equal (.obj [("a", .bool true), ("b", .arr [.null])])
    (.obj [("b", .arr [.null]), ("a", .int 1)]) = true := by
  decide +kernel

end Value

end HybridInference.Library
