import HybridInference.Library.Framing
import HybridInference.Library.Json
import HybridInference.Library.Transducer
import Mathlib.Data.List.DropRight

/-!
# Framing of an upstream's stream

An event stream is cut into messages at its blank lines, and an NDJSON stream into lines. Both
readers hold the text whose end has not come, and only look at what is new in a read.
-/

namespace HybridInference.Upstream

open Library Library.Framing Transducer

universe u

/-- The incremental UTF-8 decoder, with what it holds between two reads. -/
structure Decoder (Held : Type u) where
  initial : Held
  decode : Held → List Byte → Held × List Char

structure SSEMessage where
  data : List Char
  event : Option (List Char)
  id : Option (List Char)
  deriving DecidableEq

inductive TooLarge where
  | sseFrameTooLarge (message : String)
  | upstreamPayloadTooLarge (message : String)

section Cuts

/-- The pieces that the search for a line feed ends one after another, and the rest. -/
def lineCuts : List Char → List (List Char) × List Char
  | [] => ([], [])
  | c :: text =>
    let later := lineCuts text
    if c = '\n' then ([] :: later.1, later.2)
    else
      match later.1 with
      | [] => ([], c :: later.2)
      | piece :: others => ((c :: piece) :: others, later.2)

/-- The pieces that the search for a blank line ends one after another, and the rest. -/
def blankCuts : List Char → List (List Char) × List Char
  | '\n' :: '\n' :: text => ([] :: (blankCuts text).1, (blankCuts text).2)
  | c :: text =>
    match (blankCuts text).1 with
    | [] => ([], c :: (blankCuts text).2)
    | piece :: others => ((c :: piece) :: others, (blankCuts text).2)
  | [] => ([], [])

def replaceCrLf : List Char → List Char
  | '\r' :: '\n' :: text => '\n' :: replaceCrLf text
  | c :: text => c :: replaceCrLf text
  | [] => []

def lineFeeds (text : List Char) : List Char :=
  (replaceCrLf text).map fun c => if c = '\r' then '\n' else c

def splitLines (text : List Char) : List (List Char) :=
  (lineCuts text).1 ++ [(lineCuts text).2]

/-- What is held after the cuts, and the pieces that ended, with what was held before in front of
the first. -/
def joined (held : List Char) (cuts : List (List Char) × List Char) :
    List Char × List (List Char) :=
  match cuts.1 with
  | [] => (held ++ cuts.2, [])
  | piece :: others => (cuts.2, (held ++ piece) :: others)

def advance (limit : ℕ) (error : TooLarge) (held : List Char)
    (cuts : List (List Char) × List Char) : Except TooLarge (List Char × List (List Char)) :=
  if cuts.2 ≠ [] ∧ (joined held cuts).1.length > limit then .error error
  else .ok (joined held cuts)

end Cuts

section Frames

structure ParsedLines where
  dataLines : List (List Char)
  event : Option (List Char)
  id : Option (List Char)

def lstrip (text : List Char) : List Char := text.dropWhile Text.isSpace

def parseLine (parsed : ParsedLines) (rawLine : List Char) : ParsedLines :=
  let line := rawLine.rdropWhile (· = '\r')
  if ":".toList.isPrefixOf line then parsed
  else if "data:".toList.isPrefixOf line then
    { parsed with dataLines := parsed.dataLines ++ [lstrip (line.drop 5)] }
  else if "event:".toList.isPrefixOf line then { parsed with event := some (lstrip (line.drop 6)) }
  else if "id:".toList.isPrefixOf line then { parsed with id := some (lstrip (line.drop 3)) }
  else parsed

def parseFrame (frame : List Char) : SSEMessage :=
  let parsed := (splitLines frame).foldl parseLine ⟨[], none, none⟩
  ⟨['\n'].intercalate parsed.dataLines, parsed.event, parsed.id⟩

def addFrame (frame : List Char) : List SSEMessage :=
  if Text.strip frame = [] then [] else [parseFrame frame]

end Frames

/-- A parser between two reads; of the pieces of the frame that has not ended it has the text they
join to. -/
structure SSEParser (Held : Type u) where
  decoder : Held
  pending : List Char
  pendingCr : List Char

namespace SSEParser

variable {Held : Type u} (decoder : Decoder Held) (maxFrameChars : ℕ)

def new : SSEParser Held := ⟨decoder.initial, [], []⟩

def frameTooLarge : TooLarge :=
  .sseFrameTooLarge s!"upstream SSE frame exceeded {maxFrameChars} characters without ending"

/-- What is held after the normalised text of a read, and the frames that end in it. -/
def frames (pending data : List Char) : Except TooLarge (List Char × List (List Char)) :=
  if data.head? = some '\n' ∧ pending.getLast? = some '\n' then
    (advance maxFrameChars (frameTooLarge maxFrameChars) [] (blankCuts (data.drop 1))).map
      fun held => (held.1, pending.dropLast :: held.2)
  else advance maxFrameChars (frameTooLarge maxFrameChars) pending (blankCuts data)

def feed (parser : SSEParser Held) (chunk : List Byte) :
    Except TooLarge (SSEParser Held × List SSEMessage) :=
  let decoded := decoder.decode parser.decoder chunk
  let data := parser.pendingCr ++ decoded.2
  let endsCr := data.getLast? = some '\r'
  let pendingCr := if endsCr then ['\r'] else []
  let data := lineFeeds (if endsCr then data.dropLast else data)
  (frames maxFrameChars parser.pending data).map fun held =>
    (⟨decoded.1, held.1, pendingCr⟩, held.2.flatMap addFrame)

def flush (parser : SSEParser Held) : List SSEMessage × SSEParser Held :=
  let residue := parser.pending ++ if parser.pendingCr = [] then [] else ['\n']
  let flushed := { parser with pending := [], pendingCr := [] }
  if Text.strip residue = [] then ([], flushed)
  else if (parseFrame residue).data = [] then ([], flushed)
  else ([parseFrame residue], flushed)

def feedAll : SSEParser Held → List (List Byte) → Except TooLarge (SSEParser Held × List SSEMessage)
  | parser, [] => .ok (parser, [])
  | parser, chunk :: rest =>
    match feed decoder maxFrameChars parser chunk with
    | .error error => .error error
    | .ok (next, messages) =>
      (feedAll next rest).map fun later => (later.1, messages ++ later.2)

end SSEParser

namespace LineSplitter

variable (maxChars : ℕ)

def lineTooLarge : TooLarge :=
  .upstreamPayloadTooLarge
    s!"upstream NDJSON line exceeded {maxChars} characters without ending"

def feed (pending text : List Char) : Except TooLarge (List Char × List (List Char)) :=
  advance maxChars (lineTooLarge maxChars) pending (lineCuts text)

/-- The lines that are not blank, without the whitespace around them. -/
def solidLines (lines : List (List Char)) : List (List Char) :=
  (lines.map Text.strip).filter fun line => line ≠ []

/-- What the NDJSON branch yields, and the error it ends with if it does. -/
def ndjsonLines {Held : Type u} (decoder : Decoder Held) :
    Held → List Char → List (List Byte) → List (List Char) × Option TooLarge
  | _, pending, [] => (solidLines [pending], none)
  | held, pending, raw :: reads =>
    let decoded := decoder.decode held raw
    if decoded.2 = [] then ndjsonLines decoder decoded.1 pending reads
    else
      match feed maxChars pending decoded.2 with
      | .error error => ([], some error)
      | .ok (next, lines) =>
        let later := ndjsonLines decoder decoded.1 next reads
        (solidLines lines ++ later.1, later.2)

end LineSplitter

section Reference

/-- The values that lines give the field `name`. -/
def fieldValues (name : List Char) (lines : List (List Char)) : List (List Char) :=
  (lines.filter fun line => name.isPrefixOf line).map fun line => lstrip (line.drop name.length)

def frameMessage (frame : List Char) : SSEMessage :=
  let lines := (splitLines frame).map fun line => line.rdropWhile (· = '\r')
  let values (name : String) := fieldValues name.toList lines
  ⟨['\n'].intercalate (values "data:"), (values "event:").getLast?, (values "id:").getLast?⟩

def frameMessages (frame : List Char) : List SSEMessage :=
  if Text.strip frame = [] then [] else [frameMessage frame]

def lastMessages (frame : List Char) : List SSEMessage :=
  (frameMessages frame).filter fun message => message.data ≠ []

/-- The messages of a whole text: those of the frames that a blank line ends, and that of the last
frame if it has data. -/
def wholeMessages (text : List Char) : List SSEMessage :=
  (blankCuts (lineFeeds text)).1.flatMap frameMessages ++
    lastMessages (blankCuts (lineFeeds text)).2

def beforeCr (text : List Char) : List Char :=
  if text.getLast? = some '\r' then text.dropLast else text

def crLine (text : List Char) : List Char := if text.getLast? = some '\r' then ['\n'] else []

/-- `wholeMessages`, but a frame that only a CR at the very end of the text closes counts as the
unterminated last one. -/
def wholeMessagesHoldingCr (text : List Char) : List SSEMessage :=
  (blankCuts (lineFeeds (beforeCr text))).1.flatMap frameMessages ++
    lastMessages ((blankCuts (lineFeeds (beforeCr text))).2 ++ crLine text)

/-- Every frame has at most `limit` characters with the ends of its lines, a CR at the very end of
the text apart. -/
def FramesFit (limit : ℕ) (text : List Char) : Prop :=
  let cuts := blankCuts (lineFeeds (beforeCr text))
  (∀ frame ∈ cuts.1, frame.length + 1 ≤ limit) ∧ cuts.2.length ≤ limit

def LinesFit (limit : ℕ) (text : List Char) : Prop :=
  ∀ line ∈ splitLines text, line.length ≤ limit

end Reference

namespace Decoder

variable {Held : Type u} (decoder : Decoder Held)

def text : Held → List (List Byte) → List Char
  | _, [] => []
  | held, chunk :: rest =>
    (decoder.decode held chunk).2 ++ text (decoder.decode held chunk).1 rest

/-- The concatenated output does not depend on the cutting. -/
def CutFree : Prop :=
  ∀ reads, decoder.text decoder.initial reads = (decoder.decode decoder.initial reads.flatten).2

def whole (bytes : List Byte) : List Char := (decoder.decode decoder.initial bytes).2

end Decoder

section Holding

variable {ends : List Char → Char → Option (List Char)} {held first second text : List Char}
  {slack limit : ℕ}

/-- One character: it ends a piece, or it is held. -/
def holdStep (ends : List Char → Char → Option (List Char)) (held : List Char) (c : Char) :
    List Char × List (List Char) :=
  match ends held c with
  | some piece => ([], [piece])
  | none => (held ++ [c], [])

def lineEnds (held : List Char) (c : Char) : Option (List Char) :=
  if c = '\n' then some held else none

def blankEnds (held : List Char) (c : Char) : Option (List Char) :=
  if c = '\n' ∧ held.getLast? = some '\n' then some held.dropLast else none

theorem joined_nil (cuts : List (List Char) × List Char) : joined [] cuts = (cuts.2, cuts.1) := by
  unfold joined
  cases same : cuts.1 with
  | nil => rfl
  | cons piece others => rfl

theorem run_lineEnds (held text : List Char) :
    run (holdStep lineEnds) held text = joined held (lineCuts text) := by
  induction text generalizing held with
  | nil => simp [run, joined, lineCuts]
  | cons c text ih =>
    by_cases ended : c = '\n'
    · have step : holdStep lineEnds held c = ([], [held]) := by simp [holdStep, lineEnds, ended]
      simp only [run, step, ih, joined_nil]
      simp [lineCuts, ended, joined]
    · have step : holdStep lineEnds held c = (held ++ [c], []) := by
        simp [holdStep, lineEnds, ended]
      simp only [run, step, ih]
      cases later : (lineCuts text).1 with
      | nil | cons piece others =>
        simp [lineCuts, ended, joined, later]

theorem holdStep_blankEnds_of_not {c : Char} (apart : ¬(c = '\n' ∧ held.getLast? = some '\n')) :
    holdStep blankEnds held c = (held ++ [c], []) := by
  simp [holdStep, blankEnds, apart]

theorem apart_next {c : Char} {text : List Char}
    (notBlank : ∀ rest, c = '\n' → text = '\n' :: rest → False) (held : List Char) :
    ¬(text.head? = some '\n' ∧ (held ++ [c]).getLast? = some '\n') := by
  rintro ⟨starts, last⟩
  cases text with
  | nil => simp at starts
  | cons d text =>
    simp only [List.head?_cons, Option.some.injEq] at starts
    simp only [List.getLast?_append_cons, List.getLast?_singleton, Option.some.injEq] at last
    exact notBlank text last (by rw [starts])

theorem run_blankEnds (text held : List Char)
    (apart : ¬(text.head? = some '\n' ∧ held.getLast? = some '\n')) :
    run (holdStep blankEnds) held text = joined held (blankCuts text) := by
  fun_induction blankCuts text generalizing held with
  | case1 text ih =>
    have open_ : ¬held.getLast? = some '\n' := fun last => apart ⟨rfl, last⟩
    have firstStep : holdStep blankEnds held '\n' = (held ++ ['\n'], []) :=
      holdStep_blankEnds_of_not fun both => open_ both.2
    have secondStep : holdStep blankEnds (held ++ ['\n']) '\n' = ([], [held]) := by
      simp [holdStep, blankEnds]
    simp only [run, firstStep, secondStep, ih [] (by simp), joined_nil]
    simp [joined]
  | case2 c text notBlank none_ ih =>
    have step : holdStep blankEnds held c = (held ++ [c], []) :=
      holdStep_blankEnds_of_not fun both => apart ⟨by simp [both.1], both.2⟩
    simp only [run, step, ih (held ++ [c]) (apart_next notBlank held)]
    simp [joined, none_]
  | case3 c text notBlank piece others some_ ih =>
    have step : holdStep blankEnds held c = (held ++ [c], []) :=
      holdStep_blankEnds_of_not fun both => apart ⟨by simp [both.1], both.2⟩
    simp only [run, step, ih (held ++ [c]) (apart_next notBlank held)]
    simp [joined, some_]
  | case4 => simp [run, joined]

def Fits (slack limit : ℕ) (held : List Char × List (List Char)) : Prop :=
  (∀ piece ∈ held.2, piece.length + slack ≤ limit) ∧ held.1.length ≤ limit

def Bounded (slack : ℕ) (ends : List Char → Char → Option (List Char)) : Prop :=
  ∀ held c piece, ends held c = some piece → held.length ≤ piece.length + slack

theorem lineEnds_bounded : Bounded 0 lineEnds := by
  intro held c piece ended
  simp only [lineEnds, Option.ite_none_right_eq_some, Option.some.injEq] at ended
  rw [ended.2, Nat.add_zero]

theorem blankEnds_bounded : Bounded 1 blankEnds := by
  intro held c piece ended
  simp only [blankEnds, Option.ite_none_right_eq_some, Option.some.injEq] at ended
  rw [← ended.2, List.length_dropLast]
  omega

theorem length_le_of_fits (bounded : Bounded slack ends) {text held : List Char}
    (fits : Fits slack limit (run (holdStep ends) held text)) : held.length ≤ limit := by
  induction text generalizing held with
  | nil => exact fits.2
  | cons c text ih =>
    simp only [run] at fits
    cases ended : ends held c with
    | some piece =>
      have step : holdStep ends held c = ([], [piece]) := by simp [holdStep, ended]
      rw [step] at fits
      exact (bounded held c piece ended).trans (fits.1 piece (by simp))
    | none =>
      have step : holdStep ends held c = (held ++ [c], []) := by simp [holdStep, ended]
      rw [step] at fits
      have longer : (held ++ [c]).length ≤ limit := ih fits
      rw [List.length_append] at longer
      omega

theorem fits_of_append (bounded : Bounded slack ends)
    (fits : Fits slack limit (run (holdStep ends) held (first ++ second))) :
    Fits slack limit (run (holdStep ends) held first) ∧
      Fits slack limit (run (holdStep ends) (run (holdStep ends) held first).1 second) := by
  rw [run_append] at fits
  have later : Fits slack limit (run (holdStep ends) (run (holdStep ends) held first).1 second) :=
    ⟨fun piece inside => fits.1 piece (List.mem_append_right _ inside), fits.2⟩
  exact ⟨⟨fun piece inside => fits.1 piece (List.mem_append_left _ inside),
    length_le_of_fits bounded later⟩, later⟩

theorem advance_eq_ok {error : TooLarge} {cuts : List (List Char) × List Char}
    (fits : (joined held cuts).1.length ≤ limit) :
    advance limit error held cuts = .ok (joined held cuts) :=
  if_neg fun both => absurd both.2 (by omega)

theorem advance_eq {error : TooLarge} {cuts : List (List Char) × List Char}
    (short : held.length ≤ limit) :
    advance limit error held cuts =
      if (joined held cuts).1.length ≤ limit then .ok (joined held cuts) else .error error := by
  split_ifs with fits
  · exact advance_eq_ok fits
  · refine if_pos ⟨fun empty => fits ?_, by omega⟩
    unfold joined
    split <;> simp [empty, short]

end Holding

section CarriageReturns

/-- One character: a CR is held until the next shows whether it is half of a CRLF. -/
def crStep (cr : Bool) (c : Char) : Bool × List Char :=
  if c = '\r' then (true, if cr then ['\n'] else [])
  else if c = '\n' then (false, ['\n'])
  else (false, if cr then ['\n', c] else [c])

def crText (cr : Bool) : List Char := if cr then ['\r'] else []

theorem crText_decide (ends : Prop) [Decidable ends] :
    crText (decide ends) = if ends then ['\r'] else [] := by
  simp [crText]

theorem run_crStep_crText (cr : Bool) (text : List Char) :
    run crStep cr text = run crStep false (crText cr ++ text) := by
  cases cr with
  | false => rfl
  | true => rfl

theorem lineFeeds_cons {c : Char} {text : List Char}
    (notCrLf : ¬(c = '\r' ∧ text.head? = some '\n')) :
    lineFeeds (c :: text) = (if c = '\r' then '\n' else c) :: lineFeeds text := by
  have same : replaceCrLf (c :: text) = c :: replaceCrLf text := by
    rw [replaceCrLf]
    rintro others rfl rfl
    exact notCrLf ⟨rfl, rfl⟩
  rw [lineFeeds, same]
  rfl

theorem beforeCr_cons {c : Char} {text : List Char} (some_ : text ≠ []) :
    beforeCr (c :: text) = c :: beforeCr text := by
  unfold beforeCr
  rw [List.getLast?_cons_of_ne_nil some_, List.dropLast_cons_of_ne_nil some_]
  split_ifs <;> rfl

theorem head?_beforeCr_ne {text : List Char} (open_ : text.head? ≠ some '\n') :
    (beforeCr text).head? ≠ some '\n' := by
  cases text with
  | nil => exact open_
  | cons c text =>
    by_cases some_ : text = []
    · rw [some_] at open_ ⊢
      unfold beforeCr
      split_ifs
      · simp
      · exact open_
    · rw [beforeCr_cons some_]
      exact open_

theorem run_crStep_true {c : Char} (notLineFeed : c ≠ '\n') (text : List Char) :
    run crStep true (c :: text) =
      ((run crStep false (c :: text)).1, '\n' :: (run crStep false (c :: text)).2) := by
  by_cases isCr : c = '\r'
  · simp [run, crStep, isCr]
  · simp [run, crStep, isCr, notLineFeed]

theorem run_crStep (text : List Char) : run crStep false text =
      (decide (text.getLast? = some '\r'), lineFeeds (beforeCr text)) := by
  fun_induction replaceCrLf text with
  | case1 text ih =>
    have step : run crStep false ('\r' :: '\n' :: text) =
        ((run crStep false text).1, '\n' :: (run crStep false text).2) := by
      simp [run, crStep]
    rw [step, ih]
    by_cases some_ : text = []
    · rw [some_]
      decide
    · rw [beforeCr_cons (List.cons_ne_nil _ _), beforeCr_cons some_,
        List.getLast?_cons_of_ne_nil (List.cons_ne_nil _ _), List.getLast?_cons_of_ne_nil some_]
      simp [lineFeeds, replaceCrLf]
  | case2 c text notCrLf ih =>
    by_cases isCr : c = '\r'
    · subst isCr
      cases text with
      | nil => decide
      | cons d text =>
        have notLineFeed : d ≠ '\n' := fun same => notCrLf text rfl (by rw [same])
        have step : run crStep false ('\r' :: d :: text) = run crStep true (d :: text) := by
          simp [run, crStep]
        have open_ : (d :: text).head? ≠ some '\n' := by simpa using notLineFeed
        rw [step, run_crStep_true notLineFeed, ih, beforeCr_cons (List.cons_ne_nil d text),
          List.getLast?_cons_of_ne_nil (List.cons_ne_nil d text),
          lineFeeds_cons fun both => head?_beforeCr_ne open_ both.2, if_pos rfl]
    · have step : crStep false c = (false, [c]) := by
        by_cases isLineFeed : c = '\n'
        · simp [crStep, isLineFeed]
        · simp [crStep, isCr, isLineFeed]
      by_cases some_ : text = []
      · rw [some_]
        simp [run, step, beforeCr, isCr, lineFeeds, replaceCrLf]
      · simp only [run, step, ih]
        rw [beforeCr_cons some_, List.getLast?_cons_of_ne_nil some_,
          lineFeeds_cons fun both => isCr both.1, if_neg isCr]
        rfl
  | case3 => rfl

end CarriageReturns

section Messages

theorem fieldValues_append (name : List Char) (first second : List (List Char)) :
    fieldValues name (first ++ second) = fieldValues name first ++ fieldValues name second := by
  simp [fieldValues]

theorem parseLine_eq (parsed : ParsedLines) (rawLine : List Char) :
    let line := rawLine.rdropWhile (· = '\r')
    parseLine parsed rawLine = ⟨parsed.dataLines ++ fieldValues "data:".toList [line],
        (fieldValues "event:".toList [line]).getLast?.or parsed.event,
        (fieldValues "id:".toList [line]).getLast?.or parsed.id⟩ := by
  unfold parseLine
  cases rawLine.rdropWhile (· = '\r') with
  | nil => simp [fieldValues]
  | cons c rest =>
    by_cases comment : c = ':'
    · simp [fieldValues, comment]
    · by_cases isData : c = 'd'
      · simp [fieldValues, isData, List.filter_cons]
        split_ifs <;> simp
      · by_cases isEvent : c = 'e'
        · simp [fieldValues, isEvent, List.filter_cons]
          split_ifs <;> simp
        · by_cases isId : c = 'i'
          · simp [fieldValues, isId, List.filter_cons]
            split_ifs <;> simp
          · simp [fieldValues, Ne.symm comment, Ne.symm isData, Ne.symm isEvent, Ne.symm isId]

theorem foldl_parseLine (rawLines : List (List Char)) (parsed : ParsedLines) :
    let lines := rawLines.map fun line => line.rdropWhile (· = '\r')
    rawLines.foldl parseLine parsed = ⟨parsed.dataLines ++ fieldValues "data:".toList lines,
        (fieldValues "event:".toList lines).getLast?.or parsed.event,
        (fieldValues "id:".toList lines).getLast?.or parsed.id⟩ := by
  induction rawLines generalizing parsed with
  | nil => simp [fieldValues]
  | cons line rest ih =>
    have split (name line : List Char) (others : List (List Char)) :
        fieldValues name (line :: others) = fieldValues name [line] ++ fieldValues name others :=
      fieldValues_append name [line] others
    simp only [List.foldl_cons, List.map_cons, parseLine_eq, ih]
    rw [split _ _ (rest.map _), split _ _ (rest.map _), split _ _ (rest.map _),
      List.getLast?_append, List.getLast?_append, Option.or_assoc, Option.or_assoc,
      List.append_assoc]

theorem parseFrame_eq (frame : List Char) : parseFrame frame = frameMessage frame := by
  unfold parseFrame frameMessage
  simp only [foldl_parseLine, List.nil_append, Option.or_none]

theorem addFrame_eq : addFrame = frameMessages := by
  funext frame
  rw [addFrame, frameMessages, parseFrame_eq]

end Messages

section Cutting

variable {Held : Type u} {decoder : Decoder Held} {limit : ℕ}

namespace SSEParser

theorem frames_eq_ok {pending data : List Char}
    (fits : Fits 1 limit (run (holdStep blankEnds) pending data)) :
    frames limit pending data = .ok (run (holdStep blankEnds) pending data) := by
  unfold frames
  by_cases straddles : data.head? = some '\n' ∧ pending.getLast? = some '\n'
  · rw [if_pos straddles]
    cases data with
    | nil => simp at straddles
    | cons c rest =>
      obtain rfl : c = '\n' := by simpa using straddles.1
      have step : holdStep blankEnds pending '\n' = ([], [pending.dropLast]) := by
        simp [holdStep, blankEnds, straddles.2]
      simp only [run, step, run_blankEnds rest [] (by simp)] at fits ⊢
      rw [List.drop_one, List.tail_cons, advance_eq_ok fits.2]
      rfl
  · rw [run_blankEnds data pending straddles] at fits ⊢
    rw [if_neg straddles, advance_eq_ok fits.2]

theorem feed_eq_ok {held : Held} {cr : Bool} {pending : List Char} {chunk : List Byte}
    (fits : Fits 1 limit (run (holdStep blankEnds) pending
      (run crStep cr (decoder.decode held chunk).2).2)) :
    let normal := run crStep cr (decoder.decode held chunk).2
    let ended := run (holdStep blankEnds) pending normal.2
    feed decoder limit ⟨held, pending, crText cr⟩ chunk = .ok
        (⟨(decoder.decode held chunk).1, ended.1, crText normal.1⟩, ended.2.flatMap addFrame) := by
  rw [run_crStep_crText, run_crStep] at fits ⊢
  have done := frames_eq_ok fits
  unfold beforeCr at done ⊢
  simp only [feed, done, crText_decide]
  rfl

/-- Reading piece by piece is running on the text of all pieces. -/
theorem feedAll_eq_ok {held : Held} {cr : Bool} {pending : List Char} {reads : List (List Byte)}
    (fits : Fits 1 limit (run (holdStep blankEnds) pending
      (run crStep cr (decoder.text held reads)).2)) :
    let normal := run crStep cr (decoder.text held reads)
    let ended := run (holdStep blankEnds) pending normal.2
    ∃ last, feedAll decoder limit ⟨held, pending, crText cr⟩ reads =
      .ok (⟨last, ended.1, crText normal.1⟩, ended.2.flatMap addFrame) := by
  induction reads generalizing held cr pending with
  | nil => exact ⟨held, rfl⟩
  | cons chunk reads ih =>
    rw [Decoder.text, run_append] at fits ⊢
    rcases fits_of_append blankEnds_bounded fits with ⟨now, later⟩
    rcases ih later with ⟨last, done⟩
    refine ⟨last, ?_⟩
    simp only [feedAll, feed_eq_ok now, done, run_append, List.flatMap_append]
    rfl

theorem flush_flush (parser : SSEParser Held) : parser.flush.2.flush.1 = [] := by
  have flushed : parser.flush.2 = { parser with pending := [], pendingCr := [] } := by
    unfold flush
    dsimp only
    split_ifs <;> rfl
  rw [flushed]
  rfl

theorem flush_eq_lastMessages (held : Held) (pending text : List Char) :
    (flush ⟨held, pending, crText (decide (text.getLast? = some '\r'))⟩).1 =
      lastMessages (pending ++ crLine text) := by
  have line : (if crText (decide (text.getLast? = some '\r')) = [] then [] else ['\n']) =
      crLine text := by
    rw [crText_decide, crLine]
    split_ifs <;> simp_all
  unfold flush lastMessages frameMessages
  simp only [line, parseFrame_eq]
  split_ifs with blank nothing
  · rfl
  · simp [nothing]
  · simp [nothing]

theorem frames_eq {pending : List Char} (data : List Char) (short : pending.length ≤ limit) :
    let ended := run (holdStep blankEnds) pending data
    frames limit pending data =
      if ended.1.length ≤ limit then .ok ended else .error (frameTooLarge limit) := by
  unfold frames
  by_cases straddles : data.head? = some '\n' ∧ pending.getLast? = some '\n'
  · cases data with
    | nil => simp at straddles
    | cons c rest =>
      obtain rfl : c = '\n' := by simpa using straddles.1
      have step : holdStep blankEnds pending '\n' = ([], [pending.dropLast]) := by
        simp [holdStep, blankEnds, straddles.2]
      rw [if_pos straddles, List.drop_one, List.tail_cons, advance_eq (Nat.zero_le limit)]
      simp only [run, step, run_blankEnds rest [] (by simp)]
      split_ifs <;> rfl
  · rw [run_blankEnds data pending straddles, if_neg straddles, advance_eq short]

theorem feed_eq (decoder : Decoder Held) (held : Held) (cr : Bool) {pending : List Char}
    (chunk : List Byte) (short : pending.length ≤ limit) :
    let normal := run crStep cr (decoder.decode held chunk).2
    let ended := run (holdStep blankEnds) pending normal.2
    feed decoder limit ⟨held, pending, crText cr⟩ chunk = if ended.1.length ≤ limit then
        .ok (⟨(decoder.decode held chunk).1, ended.1, crText normal.1⟩, ended.2.flatMap addFrame)
      else .error (frameTooLarge limit) := by
  rw [run_crStep_crText, run_crStep]
  have done := frames_eq (lineFeeds (beforeCr (crText cr ++ (decoder.decode held chunk).2))) short
  unfold beforeCr at done ⊢
  simp only [feed, done, crText_decide]
  split_ifs <;> rfl

/-- How much is held of a frame that has not ended after `reads`. -/
def unended (decoder : Decoder Held) (held : Held) (cr : Bool) (pending : List Char)
    (reads : List (List Byte)) : ℕ :=
  (run (holdStep blankEnds) pending (run crStep cr (decoder.text held reads)).2).1.length

theorem unended_cons (held : Held) (cr : Bool) (pending : List Char) (chunk : List Byte)
    (reads : List (List Byte)) :
    unended decoder held cr pending (chunk :: reads) =
      unended decoder (decoder.decode held chunk).1 (run crStep cr (decoder.decode held chunk).2).1
        (run (holdStep blankEnds) pending (run crStep cr (decoder.decode held chunk).2).2).1
        reads := by
  simp only [unended, Decoder.text, run_append]

theorem feedAll_cases {held : Held} {cr : Bool} {pending : List Char} {reads : List (List Byte)}
    (short : pending.length ≤ limit) :
    (∃ parser messages, feedAll decoder limit ⟨held, pending, crText cr⟩ reads =
        .ok (parser, messages) ∧ parser.pending.length ≤ limit ∧
        ∀ count, unended decoder held cr pending (reads.take count) ≤ limit) ∨
      feedAll decoder limit ⟨held, pending, crText cr⟩ reads = .error (frameTooLarge limit) ∧
        ∃ count, limit < unended decoder held cr pending (reads.take count) := by
  induction reads generalizing held cr pending with
  | nil => exact Or.inl ⟨_, _, rfl, short, by simpa [unended, Decoder.text, run] using short⟩
  | cons chunk reads ih =>
    have fed := feed_eq decoder held cr chunk short
    dsimp only at fed
    split_ifs at fed with fits
    · simp only [feedAll, fed]
      rcases ih fits with ⟨parser, messages, done, bounded, all⟩ | ⟨done, count, long⟩
      · refine Or.inl ⟨parser, _, by rw [done]; rfl, bounded, fun count => ?_⟩
        cases count with
        | zero => exact short
        | succ count => simpa only [List.take_succ_cons, unended_cons] using all count
      · refine Or.inr ⟨by rw [done]; rfl, count + 1, ?_⟩
        simpa only [List.take_succ_cons, unended_cons] using long
    · refine Or.inr ⟨by simp only [feedAll, fed], 1, ?_⟩
      simpa [unended, Decoder.text] using fits

end SSEParser

theorem LineSplitter.solidLines_append (first second : List (List Char)) :
    solidLines (first ++ second) = solidLines first ++ solidLines second := by
  simp [solidLines]

theorem LineSplitter.ndjsonLines_eq {held : Held} {pending : List Char} {reads : List (List Byte)}
    (fits : Fits 0 limit (run (holdStep lineEnds) pending (decoder.text held reads))) :
    let ended := run (holdStep lineEnds) pending (decoder.text held reads)
    ndjsonLines limit decoder held pending reads = (solidLines (ended.2 ++ [ended.1]), none) := by
  induction reads generalizing held pending with
  | nil => rfl
  | cons raw reads ih =>
    rw [Decoder.text] at fits ⊢
    by_cases nothing : (decoder.decode held raw).2 = []
    · rw [nothing, List.nil_append] at fits ⊢
      simp only [ndjsonLines, if_pos nothing]
      exact ih fits
    · rcases fits_of_append lineEnds_bounded fits with ⟨now, later⟩
      rw [run_lineEnds] at now
      simp only [ndjsonLines, if_neg nothing, feed, advance_eq_ok now.2]
      rw [run_append, ← run_lineEnds, ih later, List.append_assoc, solidLines_append _ (_ ++ _)]

theorem fits_of_framesFit {text : List Char} (fits : FramesFit limit text) :
    Fits 1 limit (run (holdStep blankEnds) [] (run crStep false text).2) := by
  rw [run_crStep, run_blankEnds _ [] (by simp), joined_nil]
  exact fits

/-- The messages, and the lines, that come of a body do not depend on how it is cut into reads. -/
theorem framing_independent_of_cuts (cutFree : decoder.CutFree) (reads : List (List Byte)) :
    (∀ maxFrameChars, FramesFit maxFrameChars (decoder.whole reads.flatten) → ∃ parser messages,
        SSEParser.feedAll decoder maxFrameChars (.new decoder) reads = .ok (parser, messages) ∧
          messages ++ parser.flush.1 = wholeMessagesHoldingCr (decoder.whole reads.flatten) ∧
          parser.flush.2.flush.1 = []) ∧
      ∀ maxChars, LinesFit maxChars (decoder.whole reads.flatten) →
        LineSplitter.ndjsonLines maxChars decoder decoder.initial [] reads =
          (LineSplitter.solidLines (splitLines (decoder.whole reads.flatten)), none) := by
  rw [← show _ = decoder.whole reads.flatten from cutFree reads]
  constructor
  · intro maxFrameChars fits
    rcases SSEParser.feedAll_eq_ok (fits_of_framesFit fits) with ⟨last, done⟩
    refine ⟨_, _, done, ?_, SSEParser.flush_flush _⟩
    rw [run_crStep, run_blankEnds _ [] (by simp), joined_nil, SSEParser.flush_eq_lastMessages,
      addFrame_eq]
    rfl
  · intro maxChars fits
    have whole := run_lineEnds [] (decoder.text decoder.initial reads)
    rw [joined_nil] at whole
    rw [LineSplitter.ndjsonLines_eq, whole]
    · rfl
    · rw [whole]
      exact ⟨fun line inside => fits line (List.mem_append_left _ inside),
        fits _ (List.mem_append_right _ List.mem_cons_self)⟩

/-- However a body is cut, the parser fails exactly when a read leaves more than `maxFrameChars`
characters of a frame that has not ended, and it never holds more than these. -/
theorem parser_refuses_overlong_frames (maxFrameChars : ℕ) (reads : List (List Byte)) :
    let unended count :=
      (blankCuts (lineFeeds (beforeCr (decoder.text decoder.initial (reads.take count))))).2.length
    (∃ parser messages,
        SSEParser.feedAll decoder maxFrameChars (.new decoder) reads = .ok (parser, messages) ∧
          parser.pending.length ≤ maxFrameChars ∧ ∀ count, unended count ≤ maxFrameChars) ∨
      SSEParser.feedAll decoder maxFrameChars (.new decoder) reads =
          .error (SSEParser.frameTooLarge maxFrameChars) ∧
        ∃ count, maxFrameChars < unended count := by
  have normal (reads : List (List Byte)) :
      SSEParser.unended decoder decoder.initial false [] reads =
        (blankCuts (lineFeeds (beforeCr (decoder.text decoder.initial reads)))).2.length := by
    rw [SSEParser.unended, run_crStep, run_blankEnds _ [] (by simp), joined_nil]
  have short : ([] : List Char).length ≤ maxFrameChars := Nat.zero_le _
  simp only [← normal]
  exact @SSEParser.feedAll_cases _ decoder _ _ false _ _ short

end Cutting

section Ascii

/-- The decoder as far as ASCII goes, of which it never holds a byte. -/
def asciiDecoder : Decoder Unit where
  initial := ()
  decode _ bytes :=
    ((), bytes.map fun byte => if byte < 128 then Char.ofNat byte.toNat else '\ufffd')

def asciiBytes (text : String) : List Byte := text.toList.map fun c => UInt8.ofNat c.toNat

theorem asciiDecoder_cutFree : asciiDecoder.CutFree := by
  intro reads
  induction reads with
  | nil => rfl
  | cons chunk rest ih =>
    rw [Decoder.text, show (asciiDecoder.decode asciiDecoder.initial chunk).1 =
      asciiDecoder.initial from rfl, ih]
    exact List.map_append.symm

theorem framing_independent_of_cuts_ascii : asciiDecoder.CutFree ∧ ∃ parser messages,
        SSEParser.feedAll asciiDecoder 20 (.new asciiDecoder)
            [asciiBytes "data: a\r", asciiBytes "\n\r\nda", [], asciiBytes "ta: b\r"] =
          .ok (parser, messages) ∧
          messages ++ parser.flush.1 = [⟨['a'], none, none⟩, ⟨['b'], none, none⟩] := by
  have fits : FramesFit 20 (asciiDecoder.whole
      [asciiBytes "data: a\r", asciiBytes "\n\r\nda", [], asciiBytes "ta: b\r"].flatten) := by
    have cuts : blankCuts (lineFeeds (beforeCr (asciiDecoder.whole
        [asciiBytes "data: a\r", asciiBytes "\n\r\nda", [], asciiBytes "ta: b\r"].flatten))) =
        (["data: a".toList], "data: b".toList) := by
      decide
    rw [FramesFit, cuts]
    simp
  rcases (framing_independent_of_cuts asciiDecoder_cutFree _).1 20 fits with
    ⟨parser, messages, done, all, -⟩
  refine ⟨asciiDecoder_cutFree, parser, messages, done, all.trans ?_⟩
  decide

/-- A frame without data that two CRs at the end of the body close is lost. -/
theorem final_cr_drops_frame : asciiDecoder.CutFree ∧
      FramesFit 20 (asciiDecoder.whole (asciiBytes "event: x\r\r")) ∧
      wholeMessages (asciiDecoder.whole (asciiBytes "event: x\r\r")) = [⟨[], some ['x'], none⟩] ∧
      ((SSEParser.feedAll asciiDecoder 20 (.new asciiDecoder)
        [asciiBytes "event: x\r\r"]).toOption.map fun final =>
          final.2 ++ final.1.flush.1) = some [] := by
  refine ⟨asciiDecoder_cutFree, ?_, ?_, ?_⟩
  · have cuts : blankCuts (lineFeeds (beforeCr (asciiDecoder.whole
        (asciiBytes "event: x\r\r")))) = ([], "event: x\n".toList) := by
      decide
    rw [FramesFit, cuts]
    simp
  · decide
  · decide

end Ascii

end HybridInference.Upstream
