import HybridInference.Batch.MultipartChunks
import HybridInference.Batch.MultipartHeaders

/-!
# The parts of an upload

An upload encodes a list of parts: header block, blank line, content, and the boundary after each.
Read as a whole it comes to the callbacks of its parts, so every way of cutting it does.
-/

namespace HybridInference.Batch.Multipart

open Library Delimiters

theorem blankLine_free {block : List Byte} (inside : ¬blankLine <:+: block)
    (ending : ¬lineBreak <:+ block) : ¬blankLine <:+: block ++ blankLine.dropLast := by
  rintro ⟨front, back, whole⟩
  have lengths := congrArg List.length whole
  rw [List.append_assoc, List.append_eq_append_iff] at whole
  rcases whole with ⟨tail, split, rest⟩ | ⟨tail, -, rest⟩
  · rw [List.append_eq_append_iff] at rest
    rcases rest with ⟨later, inFront, -⟩ | ⟨later, straddles, last⟩
    · apply inside
      rw [split, inFront]
      exact ⟨front, later, by rw [List.append_assoc]⟩
    · rcases tail with _ | ⟨a, _ | ⟨b, _ | ⟨c, _ | ⟨d, tail⟩⟩⟩⟩
      · rw [split, List.append_nil] at lengths
        simp only [List.length_append, List.length_dropLast] at lengths
        have size : blankLine.length = 4 := rfl
        omega
      · simp only [blankLine, List.cons_append, List.nil_append, List.cons.injEq] at straddles
        rw [← straddles.2] at last
        simp [blankLine] at last
      · apply ending
        simp only [blankLine, List.cons_append, List.nil_append, List.cons.injEq] at straddles
        rw [split, ← straddles.1, ← straddles.2.1]
        exact List.suffix_append front lineBreak
      · simp only [blankLine, List.cons_append, List.nil_append, List.cons.injEq] at straddles
        rw [← straddles.2.2.2] at last
        simp [blankLine] at last
      · simp only [blankLine, List.cons_append, List.cons.injEq] at straddles
        have same := List.append_eq_nil_iff.mp straddles.2.2.2.2.symm
        apply inside
        rw [split, ← straddles.1, ← straddles.2.1, ← straddles.2.2.1, ← straddles.2.2.2.1, same.1]
        exact (List.suffix_append front blankLine).isInfix
  · have tooLong := congrArg List.length rest
    simp only [List.length_append, List.length_dropLast] at tooLong
    have size : blankLine.length = 4 := rfl
    omega

inductive Content where
  | file (filename : List Char) (data : List Byte)
  | field (value : String)

/-- `value.encode("utf-8")`. -/
def encodeUtf8 (value : String) : List Byte := value.toByteArray.data.toList

def Content.filename : Content → Option (List Char)
  | .file filename _ => some filename
  | .field _ => none

def Content.bytes : Content → List Byte
  | .file _ data => data
  | .field value => encodeUtf8 value

structure FormPart where
  header : List Byte
  name : List Char
  content : Content

def FormPart.calls (part : FormPart) : List Callback :=
  match part.content with
  | .file filename data => [.fileStart part.name filename, .fileData data, .fileEnd]
  | .field value => [.field part.name value]

/-- A part whose content holds no separator and whose headers fit. -/
structure FormPart.Sound (boundary : List Byte) (part : FormPart) : Prop where
  reads : disposition (headersOf part.header) = .ok (part.name, part.content.filename)
  noBlankLine : ¬blankLine <:+: part.header
  noBlankEnd : ¬lineBreak <:+ part.header
  fieldFits : part.content.filename = none → part.content.bytes.length ≤ maxFieldBytes
  free : ¬separator boundary <:+: part.content.bytes

def FormPart.encode (boundary : List Byte) (part : FormPart) : List Byte :=
  lineBreak ++ (part.header ++ (blankLine ++ (part.content.bytes ++ separator boundary)))

def encodeForm (boundary : List Byte) (preamble : Option (List Byte)) (parts : List FormPart)
    (epilogue : List Byte) : List Byte :=
  (preamble.map (· ++ lineBreak)).getD [] ++
    (delimiter boundary ++ (parts.flatMap (FormPart.encode boundary) ++ (dashes ++ epilogue)))

theorem decodeUtf8_encodeUtf8 (value : String) : decodeUtf8 (encodeUtf8 value) = some value := by
  unfold decodeUtf8 encodeUtf8 String.fromUTF8?
  rw [Array.toArray_toList, dif_pos value.isValidUTF8]
  rfl

section Whole

variable {boundary : List Byte} {part : FormPart} {reader : Reader}

def FormPart.opening (part : FormPart) : List Callback :=
  match part.content with
  | .file filename _ => [.fileStart part.name filename]
  | .field _ => []

def Reader.opened (reader : Reader) (part : FormPart) (buffer : List Byte) : Reader :=
  match part.content with
  | .file _ _ =>
    { reader with
      buffer := buffer, parts := reader.parts + 1, inFile := true, state := .body }
  | .field _ =>
    { reader with
      buffer := buffer
      parts := reader.parts + 1
      inFile := false
      fieldName := some part.name
      fieldValue := []
      state := .body }

theorem startPart_of_sound (sound : part.Sound boundary) (room : reader.parts + 1 ≤ maxParts)
    (rest : List Byte) :
    reader.startPart part.header rest = .more (reader.opened part rest) part.opening := by
  have reads := sound.reads
  unfold Reader.startPart
  rw [if_neg (by omega)]
  rcases part with ⟨header, name, ⟨filename, data⟩ | value⟩ <;>
    simp only at reads <;> rw [reads] <;>
    rfl

theorem opened_keeps (part : FormPart) (buffer : List Byte) :
    (reader.opened part buffer).state = .body ∧ (reader.opened part buffer).buffer = buffer ∧
      (reader.opened part buffer).parts = reader.parts + 1 ∧
      (reader.opened part buffer).finished = reader.finished := by
  rcases part with ⟨header, name, ⟨filename, data⟩ | value⟩ <;> exact ⟨rfl, rfl, rfl, rfl⟩

section

variable (sound : part.Sound boundary) (plain : (13 : Byte) ∉ boundary) (rest : List Byte)

include sound plain rest

theorem cut_separator :
    cut (separator boundary) (part.content.bytes ++ (separator boundary ++ rest)) =
      some (part.content.bytes, rest) := by
  have distinct : (13 : Byte) ∉ (10 : Byte) :: (dashes ++ boundary) := by
    simp [dashes, plain]
  have free : ¬separator boundary <:+: part.content.bytes ++ (separator boundary).dropLast :=
    not_infix_append_dropLast distinct sound.free
  exact cut_of_free (by simp [separator, lineBreak]) free rest

/-- A sound part is read to its end. -/
theorem bodyStep_of_sound : ∃ next calls,
      (reader.opened part (part.content.bytes ++ (separator boundary ++ rest))).bodyStep boundary =
          .more next calls ∧
        observe part.opening ++ observe calls = observe part.calls ∧
        next.state = .afterDelimiter ∧ next.buffer = rest ∧ next.parts = reader.parts + 1 ∧
        next.finished = reader.finished := by
  have found : cut (separator boundary)
      (reader.opened part (part.content.bytes ++ (separator boundary ++ rest))).buffer =
        some (part.content.bytes, rest) := by
    rw [(opened_keeps part _).2.1]
    exact cut_separator sound plain rest
  rw [bodyStep_of_some found]
  have fits := sound.fieldFits
  rcases part with ⟨header, name, ⟨filename, data⟩ | value⟩
  · by_cases empty : data = []
    · subst empty
      refine ⟨_, _, rfl, rfl, rfl, rfl, rfl, rfl⟩
    · have said : Reader.emit (reader.opened ⟨header, name, .file filename data⟩
          (data ++ (separator boundary ++ rest))) data =
            .ok (reader.opened ⟨header, name, .file filename data⟩
              (data ++ (separator boundary ++ rest)), [.fileData data]) := by
        unfold Reader.emit
        rw [if_neg (by simpa using empty)]
        exact if_pos rfl
      simp only [Content.bytes]
      rw [said]
      exact ⟨_, _, rfl, rfl, rfl, rfl, rfl, rfl⟩
  · have small : (encodeUtf8 value).length ≤ maxFieldBytes := fits rfl
    have said : Reader.emit (reader.opened ⟨header, name, .field value⟩
        (encodeUtf8 value ++ (separator boundary ++ rest))) (encodeUtf8 value) =
          .ok ({ reader.opened ⟨header, name, .field value⟩
            (encodeUtf8 value ++ (separator boundary ++ rest)) with
              fieldValue := encodeUtf8 value }, []) := by
      unfold Reader.emit
      by_cases empty : encodeUtf8 value = []
      · rw [if_pos (by simpa using empty)]
        rw [empty]
        rfl
      · rw [if_neg (by simpa using empty)]
        change (if maxFieldBytes < ([] ++ encodeUtf8 value).length then _ else _) = _
        rw [List.nil_append, if_neg (by omega)]
        rfl
    simp only [Content.bytes]
    rw [said]
    refine ⟨{ reader.opened ⟨header, name, .field value⟩
        (encodeUtf8 value ++ (separator boundary ++ rest)) with
          buffer := rest, fieldName := none, fieldValue := encodeUtf8 value,
          state := .afterDelimiter }, [.field name value], ?_, rfl, rfl, rfl, rfl, rfl⟩
    simp only [Reader.endPart, Reader.opened, Bool.false_eq_true, if_false, decodeUtf8_encodeUtf8]
    rfl

theorem outcome_of_part (state : reader.state = .afterDelimiter)
    (buffer : reader.buffer = part.encode boundary ++ rest) (room : reader.parts + 1 ≤ maxParts) :
    ∃ next : Reader, next.state = .afterDelimiter ∧ next.buffer = rest ∧
      next.parts = reader.parts + 1 ∧ next.finished = reader.finished ∧
      outcome boundary reader =
        (observe part.calls ++ (outcome boundary next).1, (outcome boundary next).2) ∧
      (part.header.length + 3 ≤ maxHeaderBytes → HeadersFit boundary next →
        HeadersFit boundary reader) := by
  let content := part.content.bytes ++ (separator boundary ++ rest)
  have body : part.encode boundary ++ rest =
      lineBreak ++ (part.header ++ (blankLine ++ content)) := by
    simp [FormPart.encode, content]
  rw [body] at buffer
  let atHeader : Reader :=
    { reader with buffer := part.header ++ (blankLine ++ content), state := .headers }
  have toHeader : reader.advance boundary = .more atHeader [] := by
    have step : reader.advance boundary = reader.delimiterStep := by
      unfold Reader.advance
      rw [state]
    rw [step, Reader.delimiterStep, buffer]
    rfl
  have headerFound : cut blankLine atHeader.buffer = some (part.header, content) :=
    cut_of_free (by decide) (blankLine_free sound.noBlankLine sound.noBlankEnd) _
  have toContent : atHeader.advance boundary =
      .more (atHeader.opened part content) part.opening := by
    change atHeader.headersStep = _
    unfold Reader.headersStep
    rw [headerFound]
    exact startPart_of_sound sound room content
  have nextState := (@opened_keeps atHeader part content).1
  rcases @bodyStep_of_sound boundary part atHeader sound plain rest with
    ⟨next, calls, went, seen, isAfter, left, parts, finished⟩
  have toNext : (atHeader.opened part content).advance boundary = .more next calls := by
    unfold Reader.advance
    rw [nextState]
    exact went
  refine ⟨next, isAfter, left, parts, finished, ?_, ?_⟩
  · rw [outcome_of_more toHeader, outcome_of_more toContent, outcome_of_more toNext, ← seen]
    simp
  · intro short fit
    apply HeadersFit.of_more toHeader
    · intro headers
      rw [state] at headers
      cases headers
    · apply HeadersFit.of_more toContent
      · intro _ block rest_ found
        rw [headerFound] at found
        cases found
        exact short
      · apply HeadersFit.of_more toNext _ fit
        intro headers
        rw [nextState] at headers
        cases headers

end

theorem outcome_of_parts {parts : List FormPart} (sound : ∀ part ∈ parts, part.Sound boundary)
    (plain : (13 : Byte) ∉ boundary) (epilogue : List Byte) (state : reader.state = .afterDelimiter)
    (buffer : reader.buffer = parts.flatMap (FormPart.encode boundary) ++ (dashes ++ epilogue))
    (room : reader.parts + parts.length ≤ maxParts) :
    outcome boundary reader = (observe (parts.flatMap FormPart.calls), true) ∧
      ((∀ part ∈ parts, part.header.length + 3 ≤ maxHeaderBytes) → HeadersFit boundary reader) := by
  induction parts generalizing reader with
  | nil =>
    have waits : reader.advance boundary = .wait { reader with finished := true } [] := by
      have step : reader.advance boundary = reader.delimiterStep := by
        unfold Reader.advance
        rw [state]
      rw [step, Reader.delimiterStep, buffer]
      rw [if_neg (by simp [dashes]), if_pos (by simp [dashes])]
    refine ⟨outcome_of_wait waits, fun _ => HeadersFit.of_next ?_ ?_⟩
    · intro headers
      rw [state] at headers
      cases headers
    · intro next calls went
      rw [waits] at went
      cases went
  | cons part rest ih =>
    rw [List.flatMap_cons, List.append_assoc] at buffer
    rw [List.length_cons] at room
    rcases outcome_of_part (sound part List.mem_cons_self) plain _ state buffer (by omega) with
      ⟨next, nextState, nextBuffer, parts, -, seen, fit⟩
    have later := ih (fun other inside => sound other (List.mem_cons_of_mem part inside))
      nextState nextBuffer (by omega)
    refine ⟨?_, ?_⟩
    · rw [seen, later.1, List.flatMap_cons, observe_append]
    · intro short
      exact fit (short part List.mem_cons_self)
        (later.2 fun other inside => short other (List.mem_cons_of_mem part inside))

theorem outcome_of_form {parts : List FormPart} {preamble : Option (List Byte)}
    (sound : ∀ part ∈ parts, part.Sound boundary) (plain : (13 : Byte) ∉ boundary)
    (free : ∀ text ∈ preamble, ¬delimiter boundary <:+: text) (epilogue : List Byte)
    (room : parts.length ≤ maxParts) :
    outcome boundary { buffer := encodeForm boundary preamble parts epilogue } =
        (observe (parts.flatMap FormPart.calls), true) ∧
      ((∀ part ∈ parts, part.header.length + 3 ≤ maxHeaderBytes) →
        HeadersFit boundary { buffer := encodeForm boundary preamble parts epilogue }) := by
  let front : List Byte := (preamble.map (· ++ lineBreak)).getD []
  let rest := parts.flatMap (FormPart.encode boundary) ++ (dashes ++ epilogue)
  let body : Reader := { buffer := encodeForm boundary preamble parts epilogue }
  let next : Reader := { buffer := rest, state := .afterDelimiter }
  have found : cut (delimiter boundary) body.buffer = some (front, rest) := by
    have some_ : delimiter boundary ≠ [] := by simp [delimiter, dashes]
    have shorter : ¬delimiter boundary <:+: (delimiter boundary).dropLast :=
      not_infix_dropLast some_
    apply cut_of_free some_
    cases preamble with
    | none => exact shorter
    | some text =>
      have whole : front ++ (delimiter boundary).dropLast =
          text ++ 13 :: 10 :: (delimiter boundary).dropLast := by
        simp [front, lineBreak]
      rw [whole]
      apply not_infix_append_cons some_ (by simp [delimiter, dashes, plain]) (free text rfl)
      rw [List.infix_cons_iff, not_or]
      exact ⟨by simp [delimiter, dashes], shorter⟩
  have went : body.advance boundary = .more next [] := by
    change body.preambleStep boundary = _
    unfold Reader.preambleStep
    rw [found]
  have later := @outcome_of_parts boundary next parts sound plain epilogue rfl rfl (by simpa [next])
  refine ⟨?_, fun short => HeadersFit.of_more went ?_ (later.2 short)⟩
  · rw [outcome_of_more went, later.1]
    rfl
  · intro headers
    cases headers

end Whole

theorem readMultipart_of_long_header (boundary : List Byte) {header : List Byte}
    (unended : ¬blankLine <:+: header) (long : maxHeaderBytes < header.length)
    (rest : List (List Byte)) :
    seenOf (readMultipart boundary ((delimiter boundary ++ (lineBreak ++ header)) :: rest)) =
      ([], false) := by
  let first : Reader := { buffer := delimiter boundary ++ (lineBreak ++ header) }
  let second : Reader := { buffer := lineBreak ++ header, state := .afterDelimiter }
  let third : Reader := { buffer := header, state := .headers }
  have toSecond : first.advance boundary = .more second [] := by
    have some_ : delimiter boundary ≠ [] := by simp [delimiter, dashes]
    have found : cut (delimiter boundary) first.buffer = some ([], lineBreak ++ header) :=
      @cut_of_free _ _ (delimiter boundary) [] some_ (not_infix_dropLast some_) _
    change first.preambleStep boundary = _
    unfold Reader.preambleStep
    rw [found]
  have toThird : second.advance boundary = .more third [] := by
    change second.delimiterStep = _
    unfold Reader.delimiterStep
    rfl
  have failed : third.advance boundary = .fail "part headers are too large" := by
    change third.headersStep = _
    unfold Reader.headersStep
    rw [show cut blankLine third.buffer = none from cut_eq_none_iff.mpr unended]
    exact if_pos long
  have error : drain boundary (first.buffer.length + 1) first =
      ⟨third, [], some "part headers are too large"⟩ := by
    rw [drain_of_enough (Nat.lt_add_one _) (by omega : first.buffer.length <
      first.buffer.length + 3)]
    rw [drain, toSecond]
    simp only
    rw [drain, toThird]
    simp only
    rw [drain, failed]
    rfl
  have fedBy : feed boundary {} (delimiter boundary ++ (lineBreak ++ header)) =
      drain boundary (first.buffer.length + 1) first := rfl
  unfold readMultipart readFrom
  rw [fedBy, error]
  rfl

/-- An upload is read as its parts, the line that names a part says its name and file name, and
what is read does not depend on how the bytes are cut. -/
theorem upload_read_exactly_however_cut (boundary : List Byte) :
    (∀ (preamble : Option (List Byte)) (parts : List FormPart) (epilogue : List Byte)
        (chunks : List (List Byte)),
      (13 : Byte) ∉ boundary →
      parts.length ≤ maxParts →
      (∀ part ∈ parts, part.Sound boundary ∧ part.header.length + 3 ≤ maxHeaderBytes) →
      (∀ text ∈ preamble, ¬delimiter boundary <:+: text) →
      chunks.flatten = encodeForm boundary preamble parts epilogue →
      seenOf (readMultipart boundary chunks) = (observe (parts.flatMap FormPart.calls), true)) ∧
    (∀ (name : List Byte) (filename : Option (List Byte)) (before after : List (List Byte)),
      name ≠ [] →
      (34 : Byte) ∉ name →
      (∀ bytes ∈ filename, (34 : Byte) ∉ bytes) →
      (∀ line ∈ before ++ dispositionLine name filename :: after, ¬lineBreak <:+: line) →
      (∀ line ∈ after, lower (Text.strip (partition ':' (latin1 line)).1) ≠
        "content-disposition".toList) →
      disposition (headersOf (joinLines (before ++ dispositionLine name filename :: after))) =
        .ok (latin1 name, filename.map latin1)) ∧
    ∀ chunks others : List (List Byte), chunks.flatten = others.flatten →
      HeadersFit boundary { buffer := chunks.flatten } →
      seenOf (readMultipart boundary chunks) = seenOf (readMultipart boundary others) := by
  refine ⟨?_, ?_, ?_⟩
  · intro preamble parts epilogue chunks plain room sound free same
    have told := outcome_of_form (fun part inside => (sound part inside).1) plain free epilogue room
    have fit := told.2 fun part inside => (sound part inside).2
    rw [← same] at told fit
    rw [readMultipart_eq_outcome fit, told.1]
  · intro name filename before after some_ nameFree filenameFree whole others
    exact disposition_headersOf some_ nameFree filenameFree whole others
  · intro chunks others same fit
    have fitOthers : HeadersFit boundary { buffer := others.flatten } := same ▸ fit
    rw [readMultipart_eq_outcome fit, readMultipart_eq_outcome fitOthers, same]

/-- A field and a file, in chunks that part every delimiter. -/
theorem upload_read_exactly_however_cut_in_bytes :
    let field : FormPart :=
      ⟨dispositionLine [112] none, ['p'], .field "batch"⟩
    let file : FormPart :=
      ⟨dispositionLine [102] (some [97]), ['f'], .file ['a'] [123, 13, 10, 45, 125]⟩
    seenOf (readMultipart [120, 121]
        ((encodeForm [120, 121] (some [45, 45, 120]) [field, file] [13, 10]).map
          fun byte => [byte])) =
      (observe (field.calls ++ file.calls), true) := by
  intro field file
  have fieldSound : field.Sound [120, 121] :=
    ⟨by rfl, by decide +kernel, by decide +kernel, fun _ => by decide +kernel, by decide +kernel⟩
  have fileSound : file.Sound [120, 121] :=
    ⟨by rfl, by decide +kernel, by decide +kernel, fun _ => by decide +kernel, by decide +kernel⟩
  apply (upload_read_exactly_however_cut [120, 121]).1 (some [45, 45, 120]) [field, file] [13, 10]
  · decide
  · decide
  · intro part inside
    rcases List.mem_cons.mp inside with rfl | inside
    · exact ⟨fieldSound, by decide +kernel⟩
    · rw [List.mem_singleton.mp inside]
      exact ⟨fileSound, by decide +kernel⟩
  · intro text same
    cases same
    decide +kernel
  · exact List.flatMap_singleton' _

/-- A part with a header block longer than the limit is read or refused as it is cut, and a
boundary with a line break in it may end a content early. -/
theorem long_header_is_read_as_it_is_cut : (∃ (part : FormPart) (chunks : List (List Byte)),
      part.Sound [120] ∧
      chunks.flatten = encodeForm [120] none [part] [] ∧
      seenOf (readMultipart [120] chunks) = ([], false) ∧
      seenOf (readMultipart [120] [chunks.flatten]) = (observe part.calls, true)) ∧
    ∃ part : FormPart, part.Sound [120, 13, 10, 45, 45, 120] ∧
      seenOf (readMultipart [120, 13, 10, 45, 45, 120]
        [encodeForm [120, 13, 10, 45, 45, 120] none [part] []]) ≠ (observe part.calls, true) := by
  refine ⟨?_, ?_⟩
  · let name : List Byte := List.replicate 16384 97
    let header : List Byte := dispositionLine name none
    have nameBytes (byte : Byte) (inside : byte ∈ name) : byte = 97 :=
      List.eq_of_mem_replicate inside
    have unbroken : (13 : Byte) ∉ header := by
      intro inside
      rcases List.mem_append.mp inside with start | inside
      · exact absurd start (by decide +kernel)
      · rcases List.mem_append.mp inside with inName | ending
        · exact absurd (nameBytes 13 inName) (by decide)
        · exact absurd ending (by decide)
    have lineless : ¬lineBreak <:+: header := fun inside =>
      unbroken (inside.subset (by decide))
    have blankless : ¬blankLine <:+: header := fun inside =>
      unbroken (inside.subset (by decide))
    have long : maxHeaderBytes < header.length := by
      have size : name.length = 16384 := List.length_replicate
      simp only [header, dispositionLine, List.length_append, size]
      have start : (asciiBytes "Content-Disposition: form-data; name=\"").length = 38 := by decide
      have limit : maxHeaderBytes = 16384 := rfl
      omega
    have reads : disposition (headersOf (joinLines ([] ++ header :: []))) =
        .ok (latin1 name, none) := by
      apply disposition_headersOf
      · exact List.ne_nil_of_mem (List.mem_replicate.mpr ⟨by decide, rfl⟩)
      · intro inside
        exact absurd (nameBytes 34 inside) (by decide)
      · intro bytes inside
        cases inside
      · intro line inside
        rw [List.mem_singleton.mp inside]
        exact lineless
      · intro line inside
        cases inside
    let part : FormPart := ⟨header, latin1 name, .field ""⟩
    have sound : part.Sound [120] :=
      ⟨reads, blankless, fun inside => lineless inside.isInfix, fun _ => by decide, by decide⟩
    let chunks : List (List Byte) :=
      [delimiter [120] ++ (lineBreak ++ header),
        blankLine ++ (part.content.bytes ++ (separator [120] ++ dashes))]
    have whole : chunks.flatten = encodeForm [120] none [part] [] := by
      simp [chunks, part, encodeForm, FormPart.encode]
    refine ⟨part, chunks, sound, whole, readMultipart_of_long_header [120] blankless long _, ?_⟩
    have told := outcome_of_form (List.forall_mem_singleton.mpr sound) (by decide)
      (fun text inside => (Option.not_mem_none text inside).elim) []
        (by decide : [part].length ≤ maxParts)
    rw [readMultipart_single, whole, told.1, List.flatMap_singleton]
  · refine ⟨⟨dispositionLine [102] (some [97]), ['f'], .file ['a'] [13, 10, 45, 45, 120]⟩, ?_, ?_⟩
    · exact ⟨by rfl, by decide +kernel, by decide +kernel, fun _ => by decide, by decide +kernel⟩
    · decide +kernel

end HybridInference.Batch.Multipart
