import Mathlib.Algebra.Order.Ring.Rat

/-!
# JSON values and text, as a Python program reads them

What `json.loads` returns, with the operations a program applies to a value whose
shape it does not know: `get` on a dictionary, truth of a value, and the value as
a dictionary key. Numbers that compare equal are one key, and so are `True` and
`1`; a list or a dictionary is not a key.
-/

namespace HybridInference.Library

inductive Json where
  | null
  | bool (value : Bool)
  | num (value : ℚ)
  | str (value : String)
  | arr (items : List Json)
  | obj (fields : List (String × Json))

namespace Json

inductive Key where
  | null
  | num (value : ℚ)
  | str (value : String)
  deriving DecidableEq

/-- `fields.get(name)`, of a dictionary. -/
def get (fields : List (String × Json)) (name : String) : Json :=
  (fields.lookup name).getD .null

/-- `{**fields, name: value}`. -/
def put (fields : List (String × Json)) (name : String) (value : Json) : List (String × Json) :=
  match fields with
  | [] => [(name, value)]
  | (other, was) :: rest =>
    if other = name then (name, value) :: rest else (other, was) :: put rest name value

theorem get_put (fields : List (String × Json)) (name other : String) (value : Json) :
    get (put fields name value) other = if other = name then value else get fields other := by
  induction fields with
  | nil =>
    by_cases same : other = name
    · simp [put, get, same]
    · simp [put, get, same, List.lookup_cons, beq_false_of_ne same]
  | cons field rest ih =>
    rcases field with ⟨first, was⟩
    unfold get at ih ⊢
    by_cases isName : first = name
    · by_cases same : other = name
      · simp [put, isName, same]
      · simp [put, isName, same, List.lookup_cons, beq_false_of_ne same]
    · by_cases isFirst : other = first
      · simp [put, isName, isFirst]
      · simpa [put, isName, List.lookup_cons, beq_false_of_ne isFirst] using ih

theorem put_put (fields : List (String × Json)) (name : String) (first second : Json) :
    put (put fields name first) name second = put fields name second := by
  induction fields with
  | nil => simp [put]
  | cons field rest ih =>
    rcases field with ⟨other, was⟩
    by_cases same : other = name
    · simp [put, same]
    · simpa [put, same] using ih

/-- `value == text`, of a string. -/
def isStr (value : Json) (text : String) : Bool :=
  match value with
  | .str found => found = text
  | _ => false

theorem isStr_iff {value : Json} {text : String} : value.isStr text = true ↔ value = .str text := by
  cases value <;> simp [isStr]

def truthy : Json → Bool
  | .null => false
  | .bool value => value
  | .num value => value ≠ 0
  | .str value => value ≠ ""
  | .arr items => !items.isEmpty
  | .obj fields => !fields.isEmpty

def orElse (value default : Json) : Json :=
  if value.truthy then value else default

/-- The value as a dictionary key; `none` where hashing it raises. -/
def key : Json → Option Key
  | .null => some .null
  | .bool value => some (.num (if value then 1 else 0))
  | .num value => some (.num value)
  | .str value => some (.str value)
  | .arr _ | .obj _ => none

/-- `value or {}`, where `.get` can then be called on it. -/
def orEmpty : Json → Option (List (String × Json))
  | .obj fields => some fields
  | value => if value.truthy then none else some []

end Json

namespace Text

/-- The characters at which `str.splitlines` ends a line. -/
def isLineBreak (c : Char) : Bool :=
  c ∈ ['\n', '\r', '\x0b', '\x0c', '\x1c', '\x1d', '\x1e', '\u0085', '\u2028', '\u2029']

/-- The characters `str.strip` takes off. -/
def isSpace (c : Char) : Bool :=
  c ∈ ['\t', '\n', '\x0b', '\x0c', '\r', '\x1c', '\x1d', '\x1e', '\x1f', ' ', '\u0085', '\u00a0',
    '\u1680', '\u2000', '\u2001', '\u2002', '\u2003', '\u2004', '\u2005', '\u2006', '\u2007',
    '\u2008', '\u2009', '\u200a', '\u2028', '\u2029', '\u202f', '\u205f', '\u3000']

/-- `splitlines` after the characters `line` of the current line, in reverse. -/
def splitFrom (line : List Char) : List Char → List (List Char)
  | [] => if line.isEmpty then [] else [line.reverse]
  | '\r' :: '\n' :: rest => line.reverse :: splitFrom [] rest
  | c :: rest =>
    if isLineBreak c then line.reverse :: splitFrom [] rest else splitFrom (c :: line) rest

def splitlines (text : List Char) : List (List Char) := splitFrom [] text

def strip (text : List Char) : List Char :=
  ((text.dropWhile isSpace).reverse.dropWhile isSpace).reverse

end Text

end HybridInference.Library
