import Mathlib.Data.List.Basic

/-!
# JSON texts, character by character

What `json.loads` accepts, as an automaton with the open objects and arrays on its stack. A
literal or a number is judged when it ends. Beyond the grammar there are `NaN` and the
infinities; an integer with too many digits is malformed, and objects and arrays nested too deep
end the reading with an error of its own.
-/

namespace HybridInference.Library.JsonText

inductive Container where
  | object
  | array
  deriving DecidableEq

inductive StringMode where
  | plain
  | escape
  | hex (left : ℕ)
  deriving DecidableEq

/-- Where a text is outside of strings; `mayClose` right behind an opening bracket. -/
inductive Place where
  | value (mayClose : Bool)
  | key (mayClose : Bool)
  | colon
  | after
  | atom (read : List Char)
  deriving DecidableEq

inductive Reading where
  | outside (place : Place) (stack : List Container)
  | inString (isKey : Bool) (mode : StringMode) (stack : List Container)
  | malformed
  | tooDeep
  deriving DecidableEq

/-- No integer is too long when `maxStrDigits` is 0. -/
structure Limits where
  maxStrDigits : ℕ
  maxDepth : ℕ

def isSpace (c : Char) : Bool := c ∈ [' ', '\t', '\n', '\r']

def isDigit (c : Char) : Bool := '0' ≤ c ∧ c ≤ '9'

def isHexDigit (c : Char) : Bool := isDigit c ∨ ('a' ≤ c ∧ c ≤ 'f') ∨ ('A' ≤ c ∧ c ≤ 'F')

/-- The fraction and the exponent of a number, from what follows its integer part. -/
def isExponent : List Char → Bool
  | mark :: rest =>
    let digits := if rest.head? = some '+' ∨ rest.head? = some '-' then rest.tail else rest
    (mark = 'e' ∨ mark = 'E') ∧ digits ≠ [] ∧ digits.all isDigit
  | [] => false

def isNumber (limits : Limits) (text : List Char) : Bool :=
  let unsigned := if text.head? = some '-' then text.tail else text
  let digits := unsigned.takeWhile isDigit
  let rest := unsigned.dropWhile isDigit
  digits ≠ [] ∧ (digits.head? = some '0' → digits = ['0']) ∧
    if rest = [] then ¬(0 < limits.maxStrDigits ∧ limits.maxStrDigits < digits.length)
    else if rest.head? = some '.' then
      let fraction := rest.tail.takeWhile isDigit
      let power := rest.tail.dropWhile isDigit
      fraction ≠ [] ∧ (power = [] ∨ isExponent power)
    else isExponent rest

def isAtom (limits : Limits) (text : List Char) : Bool :=
  text ∈ ["true", "false", "null", "NaN", "Infinity", "-Infinity"].map String.toList ∨
    isNumber limits text

def Place.ends (limits : Limits) : Place → Bool
  | after => true
  | atom read => isAtom limits read
  | _ => false

/-- What a character makes of a place that is no bracket and no quote. -/
def Place.plain (limits : Limits) (place : Place) (stack : List Container) (c : Char) :
    Option Place :=
  if isSpace c then
    match place with
    | atom read => if isAtom limits read then some after else none
    | other => some other
  else if c = ',' then
    match stack with
    | .object :: _ => if place.ends limits then some (key false) else none
    | .array :: _ => if place.ends limits then some (value false) else none
    | [] => none
  else if c = ':' then if place = colon then some (value false) else none
  else
    match place with
    | value _ => some (atom [c])
    | atom read => some (atom (read ++ [c]))
    | _ => none

namespace Reading

def opened (limits : Limits) (container : Container) (inside : Place) (place : Place)
    (stack : List Container) : Reading :=
  match place with
  | .value _ =>
    if limits.maxDepth ≤ stack.length then tooDeep else outside inside (container :: stack)
  | _ => malformed

def closed (limits : Limits) (container : Container) (empty : Place) (place : Place)
    (stack : List Container) : Reading :=
  match stack with
  | [] => malformed
  | inner :: outer =>
    if inner = container ∧ (place = empty ∨ place.ends limits) then outside .after outer
    else malformed

def stepOutside (limits : Limits) (place : Place) (stack : List Container) (c : Char) : Reading :=
  if c = '\x7b' then opened limits .object (.key true) place stack
  else if c = '[' then opened limits .array (.value true) place stack
  else if c = '\x7d' then closed limits .object (.key true) place stack
  else if c = ']' then closed limits .array (.value true) place stack
  else if c = '"' then
    match place with
    | .value _ => inString false .plain stack
    | .key _ => inString true .plain stack
    | _ => malformed
  else ((place.plain limits stack c).map (outside · stack)).getD malformed

def stepInString (isKey : Bool) (mode : StringMode) (stack : List Container) (c : Char) :
    Reading :=
  match mode with
  | .plain =>
    if c = '"' then outside (if isKey then .colon else .after) stack
    else if c = '\\' then inString isKey .escape stack
    else if c < ' ' then malformed
    else inString isKey .plain stack
  | .escape =>
    if c = 'u' then inString isKey (.hex 3) stack
    else if c ∈ ['"', '\\', '/', 'b', 'f', 'n', 'r', 't'] then inString isKey .plain stack
    else malformed
  | .hex left =>
    if isHexDigit c then inString isKey (if left = 0 then .plain else .hex (left - 1)) stack
    else malformed

def step (limits : Limits) : Reading → Char → Reading
  | outside place stack, c => stepOutside limits place stack c
  | inString isKey mode stack, c => stepInString isKey mode stack c
  | malformed, _ => malformed
  | tooDeep, _ => tooDeep

def finished (limits : Limits) : Reading → Bool
  | outside place stack => stack = [] ∧ place.ends limits
  | _ => false

end Reading

inductive Loaded where
  | object
  | other
  | malformed
  | tooDeep
  deriving DecidableEq

def read (limits : Limits) (text : List Char) : Reading :=
  text.foldl (Reading.step limits) (.outside (.value false) [])

/-- What kind of value `json.loads` gives for a text, or the error it raises. -/
def loads (limits : Limits) (text : List Char) : Loaded :=
  match read limits text with
  | .tooDeep => .tooDeep
  | reading =>
    if reading.finished limits then
      if (text.dropWhile isSpace).head? = some '\x7b' then .object else .other
    else .malformed

variable {limits : Limits}

theorem loads_eq_object_iff {text : List Char} :
    loads limits text = .object ↔ (read limits text).finished limits = true ∧
      (text.dropWhile isSpace).head? = some '\x7b' := by
  unfold loads
  cases read limits text with
  | tooDeep => simp [Reading.finished]
  | _ =>
    dsimp only
    split_ifs with done brace <;> simp_all

theorem finished_step_of_space {c : Char} (space : isSpace c = true) (reading : Reading) :
    (reading.step limits c).finished limits = reading.finished limits := by
  have known : c = ' ' ∨ c = '\t' ∨ c = '\n' ∨ c = '\r' := by
    simpa [isSpace] using space
  cases reading with
  | outside place stack =>
    have plainly : Reading.step limits (.outside place stack) c =
        ((place.plain limits stack c).map (Reading.outside · stack)).getD .malformed := by
      rcases known with rfl | rfl | rfl | rfl <;> simp [Reading.step, Reading.stepOutside]
    rw [plainly]
    cases place with
    | atom read =>
      by_cases whole : isAtom limits read = true <;>
        simp [Place.plain, space, whole, Reading.finished, Place.ends]
    | _ => simp [Place.plain, space, Reading.finished, Place.ends]
  | inString isKey mode stack =>
    rcases known with rfl | rfl | rfl | rfl <;> cases mode <;>
      simp [Reading.step, Reading.stepInString, Reading.finished, isHexDigit, isDigit]
  | malformed => rfl
  | tooDeep => rfl

theorem loads_append_space {c : Char} (space : isSpace c = true) {text : List Char} :
    loads limits (text ++ [c]) = .object ↔ loads limits text = .object := by
  have start : ((text ++ [c]).dropWhile isSpace).head? = some '\x7b' ↔
      (text.dropWhile isSpace).head? = some '\x7b' := by
    rw [List.dropWhile_append]
    split_ifs with blank
    · rw [List.isEmpty_iff.mp blank, List.dropWhile_cons_of_pos space]
      rfl
    · rw [List.head?_append_of_ne_nil _ (by simpa using blank)]
  rw [loads_eq_object_iff, loads_eq_object_iff, start, read, List.foldl_append]
  exact and_congr_left fun _ => by
    rw [List.foldl_cons, List.foldl_nil, finished_step_of_space space, read]

end HybridInference.Library.JsonText
