import HybridInference.Library.Delimiters
import HybridInference.Library.Framing
import HybridInference.Library.Json

/-!
# Reading a multipart upload

`serving.batch.multipart`. The reader works on what has arrived and not been handed on, in four
states; in three of them it holds back as much as a delimiter is long. The limit
on header blocks is tested only where a blank line has not arrived yet.
-/

namespace HybridInference.Batch.Multipart

open Library Delimiters

abbrev Byte := Framing.Byte

def maxFieldBytes : ℕ := 4096

def maxHeaderBytes : ℕ := 16 * 1024

def maxParts : ℕ := 8

def lineBreak : List Byte := [13, 10]

def blankLine : List Byte := [13, 10, 13, 10]

def dashes : List Byte := [45, 45]

/-- `line.decode("latin-1")`. -/
def latin1 (bytes : List Byte) : List Char := bytes.map fun byte => Char.ofNat byte.toNat

/-- `str.lower` of a Latin-1 character. -/
def lowerChar (c : Char) : Char :=
  if ('A' ≤ c ∧ c ≤ 'Z') ∨ ('\u00c0' ≤ c ∧ c ≤ '\u00de' ∧ c ≠ '\u00d7') then
    Char.ofNat (c.toNat + 32)
  else c

def lower (text : List Char) : List Char := text.map lowerChar

/-- What is before and after the first `mark`, as of `str.partition`. -/
def partition (mark : Char) (text : List Char) : List Char × List Char :=
  (text.takeWhile (· ≠ mark), (text.dropWhile (· ≠ mark)).drop 1)

/-- `split(b"\r\n")`; a line break takes two bytes, so as many rounds as there are bytes are
enough. -/
def splitLines : ℕ → List Byte → List (List Byte)
  | 0, block => [block]
  | rounds + 1, block =>
    match cut lineBreak block with
    | none => [block]
    | some (line, rest) => line :: splitLines rounds rest

def headersOf (block : List Byte) : List (List Char × List Char) :=
  ((splitLines block.length block).map fun line =>
    let parts := partition ':' (latin1 line)
    (lower (Text.strip parts.1), Text.strip parts.2)).reverse

/-- The loop of `_split_params`, after the characters `current` in reverse. -/
def splitParamsFrom (current : List Char) (quoted : Bool) : List Char → List (List Char)
  | [] => if current.isEmpty then [] else [current.reverse]
  | c :: rest =>
    let quoted := if c = '"' then !quoted else quoted
    if c = ';' ∧ quoted = false then current.reverse :: splitParamsFrom [] quoted rest
    else splitParamsFrom (c :: current) quoted rest

def splitParams (text : List Char) : List (List Char) :=
  ((splitParamsFrom [] false text).map Text.strip).filter fun part => !part.isEmpty

/-- `replace('\\"', '"')`. -/
def unescape : List Char → List Char
  | '\\' :: '"' :: rest => '"' :: unescape rest
  | c :: rest => c :: unescape rest
  | [] => []

def unquote (value : List Char) : List Char :=
  if 2 ≤ value.length ∧ value.head? = some '"' ∧ value.getLast? = some '"' then
    unescape (value.drop 1).dropLast
  else value

def takeParam (found : Option (List Char) × Option (List Char)) (param : List Char) :
    Option (List Char) × Option (List Char) :=
  let parts := partition '=' param
  let key := lower (Text.strip parts.1)
  let value := unquote (Text.strip parts.2)
  if key = "name".toList then (some value, found.2)
  else if key = "filename".toList then (found.1, some value)
  else found

/-- `_disposition`: the name and the file name of a part. -/
def disposition (headers : List (List Char × List Char)) :
    Except String (List Char × Option (List Char)) :=
  let parts := partition ';' ((headers.lookup "content-disposition".toList).getD [])
  if lower (Text.strip parts.1) ≠ "form-data".toList then
    .error "each part needs Content-Disposition: form-data"
  else
    match (splitParams parts.2).foldl takeParam (none, none) with
    | (none, _) | (some [], _) => .error "a part has no name"
    | (some name, filename) => .ok (name, filename)

inductive Callback where
  | field (name : List Char) (value : String)
  | fileStart (name filename : List Char)
  | fileData (data : List Byte)
  | fileEnd

inductive Phase where
  | preamble
  | afterDelimiter
  | headers
  | body
  deriving DecidableEq

/-- The variables of `read_multipart`. -/
structure Reader where
  buffer : List Byte := []
  state : Phase := .preamble
  fieldName : Option (List Char) := none
  fieldValue : List Byte := []
  inFile : Bool := false
  finished : Bool := false
  parts : ℕ := 0

inductive Advance where
  | more (reader : Reader) (calls : List Callback)
  | wait (reader : Reader) (calls : List Callback)
  | fail (message : String)

/-- `buffer[-count:]`, of a positive count. -/
def lastBytes (count : ℕ) (buffer : List Byte) : List Byte := buffer.drop (buffer.length - count)

/-- `buffer[:-count]`. -/
def frontBytes (count : ℕ) (buffer : List Byte) : List Byte := buffer.take (buffer.length - count)

def Reader.emit (reader : Reader) (data : List Byte) : Except String (Reader × List Callback) :=
  if data.isEmpty then .ok (reader, [])
  else if reader.inFile then .ok (reader, [.fileData data])
  else if maxFieldBytes < (reader.fieldValue ++ data).length then
    .error "a form field is too large"
  else .ok ({ reader with fieldValue := reader.fieldValue ++ data }, [])

/-- `value.decode("utf-8")`. -/
def decodeUtf8 (bytes : List Byte) : Option String := String.fromUTF8? ⟨bytes.toArray⟩

variable (boundary : List Byte)

def delimiter : List Byte := dashes ++ boundary

def separator : List Byte := lineBreak ++ delimiter boundary

namespace Reader

variable (reader : Reader)

def preambleStep : Advance :=
  match cut (delimiter boundary) reader.buffer with
  | none => .wait { reader with buffer := lastBytes (delimiter boundary).length reader.buffer } []
  | some (_, rest) => .more { reader with buffer := rest, state := .afterDelimiter } []

def delimiterStep : Advance :=
  if reader.buffer.length < 2 then .wait reader []
  else if reader.buffer.take 2 = dashes then .wait { reader with finished := true } []
  else if reader.buffer.take 2 ≠ lineBreak then .fail "malformed boundary line"
  else .more { reader with buffer := reader.buffer.drop 2, state := .headers } []

def startPart (block rest : List Byte) : Advance :=
  if maxParts < reader.parts + 1 then .fail "too many parts"
  else
    match disposition (headersOf block) with
    | .error message => .fail message
    | .ok (name, some filename) =>
      .more
        { reader with buffer := rest, parts := reader.parts + 1, inFile := true, state := .body }
        [.fileStart name filename]
    | .ok (name, none) =>
      .more
        { reader with
          buffer := rest
          parts := reader.parts + 1
          inFile := false
          fieldName := some name
          fieldValue := []
          state := .body } []

def headersStep : Advance :=
  match cut blankLine reader.buffer with
  | none =>
    if maxHeaderBytes < reader.buffer.length then .fail "part headers are too large"
    else .wait reader []
  | some (block, rest) => reader.startPart block rest

def endPart (rest : List Byte) (calls : List Callback) : Advance :=
  if reader.inFile then
    .more { reader with buffer := rest, inFile := false, state := .afterDelimiter }
      (calls ++ [.fileEnd])
  else
    match reader.fieldName with
    | none => .more { reader with buffer := rest, state := .afterDelimiter } calls
    | some name =>
      match decodeUtf8 reader.fieldValue with
      | none => .fail "a form field is not UTF-8"
      | some value =>
        .more { reader with buffer := rest, fieldName := none, state := .afterDelimiter }
          (calls ++ [.field name value])

def bodyStep : Advance :=
  match cut (separator boundary) reader.buffer with
  | none =>
    let keep := (separator boundary).length
    if keep < reader.buffer.length then
      match reader.emit (frontBytes keep reader.buffer) with
      | .error message => .fail message
      | .ok (emitted, calls) =>
        .wait { emitted with buffer := lastBytes keep reader.buffer } calls
    else .wait reader []
  | some (data, rest) =>
    match reader.emit data with
    | .error message => .fail message
    | .ok (emitted, calls) => emitted.endPart rest calls

def advance : Advance :=
  match reader.state with
  | .preamble => reader.preambleStep boundary
  | .afterDelimiter => reader.delimiterStep
  | .headers => reader.headersStep
  | .body => reader.bodyStep boundary

end Reader

structure Fed where
  reader : Reader
  calls : List Callback
  error : Option String

def drain : ℕ → Reader → Fed
  | 0, reader => ⟨reader, [], none⟩
  | rounds + 1, reader =>
    match reader.advance boundary with
    | .wait waiting calls => ⟨waiting, calls, none⟩
    | .fail message => ⟨reader, [], some message⟩
    | .more next calls =>
      let later := drain rounds next
      ⟨later.reader, calls ++ later.calls, later.error⟩

def feed (reader : Reader) (chunk : List Byte) : Fed :=
  if reader.finished then ⟨reader, [], none⟩
  else
    let buffer := reader.buffer ++ chunk
    drain boundary (buffer.length + 1) { reader with buffer := buffer }

def readFrom (reader : Reader) : List (List Byte) → List Callback × Option String
  | [] =>
    ([], if reader.finished then none
      else some "the multipart body ended before its closing boundary")
  | chunk :: rest =>
    let fed := feed boundary reader chunk
    match fed.error with
    | some message => (fed.calls, some message)
    | none =>
      let later := readFrom fed.reader rest
      (fed.calls ++ later.1, later.2)

def readMultipart (chunks : List (List Byte)) : List Callback × Option String :=
  readFrom boundary {} chunks

end HybridInference.Batch.Multipart
