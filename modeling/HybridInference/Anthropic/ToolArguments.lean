import HybridInference.Anthropic.StreamTranslator
import HybridInference.Library.JsonText

/-!
# Complete tool arguments

`_ToolArguments` follows strings and brackets across fragments and parses once, when the bracket
of the object closes. It tells a complete object exactly when `json.loads` reads one from all
that was received.
-/

namespace HybridInference.Anthropic

open Library JsonText

namespace ToolArguments

/-- `complete`, or nothing where the `RecursionError` of `json.loads` leaves it. -/
def ask (limits : Limits) (arguments : ToolArguments) : Option Bool × ToolArguments :=
  if arguments.state = .closed ∧ arguments.valid = none ∧
      loads limits arguments.text.toList = .tooDeep then (none, arguments)
  else
    let asked := arguments.complete fun text => loads limits text.toList = .object
    (some asked.1, asked.2)

inductive Event where
  | append (fragment : String)
  | ask

def handle (limits : Limits) (arguments : ToolArguments) : Event → ToolArguments
  | .append fragment => arguments.append fragment
  | .ask => (arguments.ask limits).2

def run (limits : Limits) (events : List Event) : ToolArguments :=
  events.foldl (handle limits) {}

def Event.received : Event → List Char
  | .append fragment => fragment.toList
  | .ask => []

section Simulation

variable {limits : Limits} {arguments : ToolArguments} {c : Char} {place next : Place}
  {stack : List Container}

/-- The scanner outside of strings, within the brackets `stack`. -/
structure Outside (stack : List Container) (arguments : ToolArguments) : Prop where
  nonempty : stack ≠ []
  state : arguments.state = .object
  depth : arguments.depth = stack.length
  inString : arguments.inString = false
  escaped : arguments.escaped = false

structure Inside (mode : StringMode) (stack : List Container) (arguments : ToolArguments) :
    Prop where
  nonempty : stack ≠ []
  state : arguments.state = .object
  depth : arguments.depth = stack.length
  inString : arguments.inString = true
  escaped : arguments.escaped = decide (mode = .escape)

/-- Inside the object the scanner has its depth and its place in a string; it is closed when the
reader has the whole object. -/
def Follows : Reading → ToolArguments → Prop
  | .outside place stack, arguments =>
    Outside stack arguments ∨ stack = [] ∧ place = .after ∧ arguments.state = .closed
  | .inString _ mode stack, arguments => Inside mode stack arguments
  | _, _ => True

theorem follows_stepOutside (outside : Outside stack arguments) (place : Place) (c : Char) :
    Follows (Reading.stepOutside limits place stack c) (arguments.scanChar c) := by
  have opens (brace : c = '\x7b' ∨ c = '[') (container : Container) (empty : Place) :
      Follows (Reading.opened limits container empty place stack) (arguments.scanChar c) := by
    have scanned : arguments.scanChar c = { arguments with depth := arguments.depth + 1 } := by
      rcases brace with rfl | rfl <;> simp [scanChar, outside.state, outside.inString]
    unfold Reading.opened
    cases place with
    | value mayClose =>
      dsimp only
      split_ifs
      · trivial
      · rw [scanned]
        exact Or.inl ⟨List.cons_ne_nil _ _, outside.state, congrArg Nat.succ outside.depth,
          outside.inString, outside.escaped⟩
    | _ => trivial
  have closes (brace : c = '\x7d' ∨ c = ']') (container : Container) (empty : Place) :
      Follows (Reading.closed limits container empty place stack) (arguments.scanChar c) := by
    have scanned : arguments.scanChar c = { arguments with
        depth := arguments.depth - 1
        state := if arguments.depth = 1 then .closed else .object } := by
      rcases brace with rfl | rfl <;> simp [scanChar, outside.state, outside.inString]
    obtain ⟨inner, outer, rfl⟩ := List.exists_cons_of_ne_nil outside.nonempty
    have depth : arguments.depth = outer.length + 1 := outside.depth
    unfold Reading.closed
    dsimp only
    split_ifs
    · rw [scanned]
      cases outer with
      | nil => exact Or.inr ⟨rfl, rfl, by simp [depth]⟩
      | cons next more =>
        refine Or.inl ⟨List.cons_ne_nil _ _, ?_, ?_, outside.inString, outside.escaped⟩ <;>
          simp [depth]
    · trivial
  unfold Reading.stepOutside
  split_ifs with brace bracket closingBrace closingBracket quote
  · exact opens (Or.inl brace) _ _
  · exact opens (Or.inr bracket) _ _
  · exact closes (Or.inl closingBrace) _ _
  · exact closes (Or.inr closingBracket) _ _
  · have opened (isKey : Bool) : Follows (.inString isKey .plain stack) (arguments.scanChar c) := by
      have scanned : arguments.scanChar c = { arguments with inString := true } := by
        simp [scanChar, outside.state, outside.inString, quote]
      rw [scanned]
      exact ⟨outside.nonempty, outside.state, outside.depth, rfl, outside.escaped⟩
    cases place with
    | value mayClose => exact opened false
    | key mayClose => exact opened true
    | _ => trivial
  · have kept : arguments.scanChar c = arguments := by
      simp [scanChar, outside.state, outside.inString, brace, bracket, closingBrace,
        closingBracket, quote]
    rw [kept]
    cases place.plain limits stack c with
    | some next => exact Or.inl outside
    | none => trivial

theorem follows_stepInString {mode : StringMode} (inside : Inside mode stack arguments)
    (isKey : Bool) (c : Char) :
    Follows (Reading.stepInString isKey mode stack c) (arguments.scanChar c) := by
  obtain ⟨nonempty, state, depth, inString, escaped⟩ := inside
  cases mode with
  | plain =>
    unfold Reading.stepInString
    dsimp only
    by_cases quote : c = '"'
    · rw [if_pos quote]
      refine Or.inl ⟨nonempty, ?_, ?_, ?_, ?_⟩ <;>
        simp [scanChar, state, inString, escaped, depth, quote]
    · rw [if_neg quote]
      split_ifs with backslash control
      · refine ⟨nonempty, ?_, ?_, ?_, ?_⟩ <;>
          simp [scanChar, state, inString, escaped, depth, backslash]
      · trivial
      · refine ⟨nonempty, ?_, ?_, ?_, ?_⟩ <;>
          simp [scanChar, state, inString, escaped, depth, quote, backslash]
  | escape =>
    unfold Reading.stepInString
    dsimp only
    split_ifs
    · refine ⟨nonempty, ?_, ?_, ?_, ?_⟩ <;> simp [scanChar, state, inString, escaped, depth]
    · refine ⟨nonempty, ?_, ?_, ?_, ?_⟩ <;> simp [scanChar, state, inString, escaped, depth]
    · trivial
  | hex left =>
    have inner : ∀ d ∈ ['"', '\\'], isHexDigit d = false := by simp [isHexDigit, isDigit]
    unfold Reading.stepInString
    by_cases digit : isHexDigit c = true
    · have noQuote : c ≠ '"' := fun same => by simp [same, inner] at digit
      have noEscape : c ≠ '\\' := fun same => by simp [same, inner] at digit
      have unescaped : (if left = 0 then StringMode.plain else .hex (left - 1)) ≠ .escape := by
        split_ifs <;> exact StringMode.noConfusion
      simp only [digit, if_true]
      refine ⟨nonempty, ?_, ?_, ?_, ?_⟩ <;>
        simp [scanChar, state, inString, escaped, depth, noQuote, noEscape, unescaped]
    · simp only [digit]
      trivial

/-- The scanner follows the reader over one character. -/
theorem follows_step {reading : Reading} (follows : Follows reading arguments) (c : Char) :
    Follows (reading.step limits c) (arguments.scanChar c) := by
  cases reading with
  | outside place stack =>
    rcases follows with outside | ⟨rfl, rfl, closed⟩
    · exact follows_stepOutside outside place c
    · by_cases space : isSpace c = true
      · have known : c = ' ' ∨ c = '\t' ∨ c = '\n' ∨ c = '\r' := by
          simpa [isSpace] using space
        have kept : arguments.scanChar c = arguments := by
          simp [scanChar, closed, show isJsonSpace c = true from space]
        rw [kept]
        rcases known with rfl | rfl | rfl | rfl <;> exact Or.inr ⟨rfl, rfl, closed⟩
      · have stuck : Reading.step limits (.outside .after []) c = .malformed := by
          simp only [Reading.step, Reading.stepOutside, Reading.opened, Reading.closed,
            Place.plain, space]
          split_ifs <;> first | rfl | contradiction
        rw [stuck]
        trivial
  | inString isKey mode stack => exact follows_stepInString follows isKey c
  | malformed => trivial
  | tooDeep => trivial

theorem follows_foldl {reading : Reading} (follows : Follows reading arguments) (text : List Char) :
    Follows (text.foldl (Reading.step limits) reading) (text.foldl scanChar arguments) := by
  induction text generalizing reading arguments with
  | nil => exact follows
  | cons c rest ih => exact ih (follows_step follows c)

theorem foldl_dropWhile {State : Type} {step : State → Char → State} {state : State}
    (waits : ∀ c, isSpace c = true → step state c = state) (text : List Char) :
    (text.dropWhile isSpace).foldl step state = text.foldl step state := by
  induction text with
  | nil => rfl
  | cons c rest ih =>
    by_cases space : isSpace c = true
    · rw [List.dropWhile_cons_of_pos space, ih, List.foldl_cons, waits c space]
    · rw [List.dropWhile_cons_of_neg space]

theorem closed_of_object {text : List Char} (object : loads limits text = .object) :
    (text.foldl scanChar {}).state = .closed := by
  obtain ⟨finished, brace⟩ := loads_eq_object_iff.mp object
  have readerWaits : ∀ c, isSpace c = true → Reading.step limits (.outside (.value false) []) c =
      .outside (.value false) [] := by
    intro c space
    have known : c = ' ' ∨ c = '\t' ∨ c = '\n' ∨ c = '\r' := by
      simpa [isSpace] using space
    rcases known with rfl | rfl | rfl | rfl <;> rfl
  have scannerWaits : ∀ c, isSpace c = true → scanChar {} c = {} := by
    intro c space
    simp [scanChar, show isJsonSpace c = true from space]
  obtain ⟨first, rest, found⟩ : ∃ first rest, text.dropWhile isSpace = first :: rest := by
    cases found : text.dropWhile isSpace with
    | nil => simp [found] at brace
    | cons first rest => exact ⟨first, rest, rfl⟩
  rw [found, List.head?_cons, Option.some.injEq] at brace
  subst brace
  unfold JsonText.read at finished
  rw [← foldl_dropWhile readerWaits, found, List.foldl_cons] at finished
  rw [← foldl_dropWhile scannerWaits, found, List.foldl_cons]
  have opening : Follows (Reading.step limits (.outside (.value false) []) '\x7b')
      (scanChar {} '\x7b') := by
    change Follows (if limits.maxDepth ≤ 0 then .tooDeep else .outside (.key true) [.object]) _
    split_ifs
    · trivial
    · exact Or.inl ⟨List.cons_ne_nil _ _, rfl, rfl, rfl, rfl⟩
  have final := @follows_foldl limits _ _ opening rest
  generalize rest.foldl (Reading.step limits) _ = reading at finished final
  cases reading with
  | outside place stack =>
    simp only [Reading.finished, Bool.decide_and, Bool.and_eq_true, decide_eq_true_eq] at finished
    rcases final with outside | ⟨-, -, closed⟩
    · exact absurd finished.1 outside.nonempty
    · exact closed
  | _ => simp [Reading.finished] at finished

end Simulation

section Runs

variable {limits : Limits} {arguments : ToolArguments} {received : List Char}

/-- The part of the arguments that `scanChar` reads and writes. -/
def lexical (arguments : ToolArguments) : ToolArguments :=
  { arguments with text := "", valid := none }

theorem foldl_scanChar_fields (arguments : ToolArguments) (fragment : List Char) :
    (fragment.foldl scanChar arguments).text = arguments.text ∧
      (fragment.foldl scanChar arguments).valid = arguments.valid ∧
      (fragment.foldl scanChar arguments).lexical = fragment.foldl scanChar arguments.lexical := by
  induction fragment generalizing arguments with
  | nil => exact ⟨rfl, rfl, rfl⟩
  | cons c rest ih =>
    have step : (arguments.scanChar c).text = arguments.text ∧
        (arguments.scanChar c).valid = arguments.valid ∧
        (arguments.scanChar c).lexical = arguments.lexical.scanChar c := by
      obtain ⟨text, state, depth, inString, escaped, valid⟩ := arguments
      cases state with
      | invalid => exact ⟨rfl, rfl, rfl⟩
      | _ => simp only [scanChar, lexical]; split_ifs <;> simp_all
    rw [List.foldl_cons, List.foldl_cons, ← step.2.2, ← step.1, ← step.2.1]
    exact ih (arguments.scanChar c)

theorem foldl_invalid (invalid : arguments.state = .invalid) (fragment : List Char) :
    fragment.foldl scanChar arguments = arguments := by
  induction fragment with
  | nil => rfl
  | cons c rest ih => simpa [scanChar, invalid] using ih

theorem ended_foldl (ended : arguments.state = .closed ∨ arguments.state = .invalid)
    (fragment : List Char) :
    (fragment.foldl scanChar arguments).state = .closed ∨
      (fragment.foldl scanChar arguments).state = .invalid := by
  induction fragment generalizing arguments with
  | nil => exact ended
  | cons c rest ih =>
    apply ih
    rcases ended with closed | invalid
    · by_cases space : isJsonSpace c = true <;> simp [scanChar, closed, space]
    · simp [scanChar, invalid]

theorem spaces_of_closed (closed : arguments.state = .closed) {fragment : List Char}
    (still : (fragment.foldl scanChar arguments).state = .closed) :
    ∀ c ∈ fragment, isSpace c = true := by
  induction fragment with
  | nil => simp
  | cons c rest ih =>
    rw [List.foldl_cons] at still
    by_cases space : isSpace c = true
    · have same : arguments.scanChar c = arguments := by
        simp [scanChar, closed, show isJsonSpace c = true from space]
      rw [same] at still
      exact List.forall_mem_cons.mpr ⟨space, ih still⟩
    · have broken : (arguments.scanChar c).state = .invalid := by
        simp [scanChar, closed, show ¬isJsonSpace c = true from space]
      rw [foldl_invalid broken, broken] at still
      contradiction

theorem object_append_spaces {text fragment : List Char}
    (spaces : ∀ c ∈ fragment, isSpace c = true) :
    loads limits (text ++ fragment) = .object ↔ loads limits text = .object := by
  induction fragment generalizing text with
  | nil => rw [List.append_nil]
  | cons c rest ih =>
    obtain ⟨space, others⟩ := List.forall_mem_cons.mp spaces
    rw [List.append_cons, ih others, loads_append_space space]

/-- What the arguments are after `received`, whatever was asked on the way. -/
structure Kept (limits : Limits) (received : List Char) (arguments : ToolArguments) : Prop where
  text : arguments.text.toList = received
  scanned : arguments.lexical = received.foldl scanChar {}
  ends : arguments.valid ≠ none → arguments.state = .closed ∨ arguments.state = .invalid
  valid : ∀ answer, arguments.valid = some answer → arguments.state = .closed →
    (answer = true ↔ loads limits received = .object)

theorem Kept.append (kept : Kept limits received arguments) (fragment : String) :
    Kept limits (received ++ fragment.toList) (arguments.append fragment) := by
  unfold ToolArguments.append
  set longer : ToolArguments := { arguments with text := arguments.text ++ fragment }
  obtain ⟨text, valid, scanned⟩ := foldl_scanChar_fields longer fragment.toList
  have ends (answered : arguments.valid ≠ none) :
      longer.state = .closed ∨ longer.state = .invalid := kept.ends answered
  refine ⟨?_, ?_, fun answered => ?_, fun answer answered closed => ?_⟩
  · rw [text, String.toList_append, kept.text]
  · rw [scanned, List.foldl_append, ← kept.scanned]
    rfl
  · rw [valid] at answered
    exact ended_foldl (ends answered) fragment.toList
  · rw [valid] at answered
    have before : longer.state = .closed := by
      rcases ends (fun none_ => by simp [longer, none_] at answered) with before | before
      · exact before
      · rw [foldl_invalid before, before] at closed
        contradiction
    rw [object_append_spaces (spaces_of_closed before closed)]
    exact kept.valid answer answered before

theorem Kept.ask (kept : Kept limits received arguments) :
    Kept limits received (arguments.ask limits).2 := by
  unfold ToolArguments.ask complete
  split_ifs with deep closed
  · exact kept
  · cases known : arguments.valid with
    | some answer => simpa [known] using kept
    | none =>
      refine ⟨kept.text, kept.scanned, fun _ => Or.inl closed, ?_⟩
      rintro answer ⟨⟩ -
      rw [← kept.text]
      exact decide_eq_true_iff
  · exact kept

/-- The arguments kept after any events are what the events brought. -/
theorem kept_run (limits : Limits) (events : List Event) :
    Kept limits (events.flatMap Event.received) (run limits events) := by
  have later : ∀ events : List Event, ∀ {received arguments}, Kept limits received arguments →
      Kept limits (received ++ events.flatMap Event.received)
        (events.foldl (handle limits) arguments) := by
    intro events
    induction events with
    | nil => intro received arguments kept; simpa using kept
    | cons event rest ih =>
      intro received arguments kept
      rw [List.flatMap_cons, ← List.append_assoc]
      cases event with
      | append fragment => exact ih (kept.append fragment)
      | ask =>
        rw [show received ++ Event.received .ask = received from List.append_nil _]
        exact ih kept.ask
  have start : Kept limits [] {} := by
    refine ⟨rfl, rfl, fun answered => absurd rfl answered, ?_⟩
    rintro answer ⟨⟩
  exact later events start

/-- Whatever fragments came and whenever it was asked before, `complete` answers true exactly when
`json.loads` reads an object from all that was received. -/
theorem complete_iff_loads_object (limits : Limits) (events : List Event) :
    ((run limits events).ask limits).1 = some true ↔
      loads limits (events.flatMap Event.received) = .object := by
  have kept := kept_run limits events
  have closes : loads limits (events.flatMap Event.received) = .object →
      (run limits events).state = .closed := by
    intro object
    have closed := closed_of_object object
    rwa [← kept.scanned] at closed
  unfold ask complete
  split_ifs with deep closed
  · rw [kept.text] at deep
    simp [deep.2.2]
  · cases known : (run limits events).valid with
    | some answer => simpa using kept.valid answer known closed
    | none => simp [kept.text]
  · simpa using fun object => closed (closes object)

end Runs

end ToolArguments

end HybridInference.Anthropic
