import HybridInference.Batch.Multipart

/-!
# The same upload however it is cut

What reading comes to, when the bytes at hand are all there is, is compared with what it comes to
when more bytes follow.
-/

namespace HybridInference.Batch.Multipart

open Library Delimiters

inductive Seen where
  | field (name : List Char) (value : String)
  | fileStart (name filename : List Char)
  | byte (value : Byte)
  | fileEnd
  deriving DecidableEq

def Callback.seen : Callback → List Seen
  | .field name value => [.field name value]
  | .fileStart name filename => [.fileStart name filename]
  | .fileData data => data.map .byte
  | .fileEnd => [.fileEnd]

def observe (calls : List Callback) : List Seen := calls.flatMap Callback.seen

@[simp]
theorem observe_nil : observe [] = [] := rfl

@[simp]
theorem observe_append (first later : List Callback) :
    observe (first ++ later) = observe first ++ observe later := by
  simp [observe]

def Reader.extend (reader : Reader) (more : List Byte) : Reader :=
  { reader with buffer := reader.buffer ++ more }

def Advance.extend (more : List Byte) : Advance → Advance
  | .more next calls => .more (next.extend more) calls
  | .wait next calls => .wait (next.extend more) calls
  | .fail message => .fail message

def Advance.After (calls : List Callback) : Advance → Advance → Prop
  | .more next later, .more other all =>
    other = next ∧ observe all = observe calls ++ observe later
  | .wait next later, .wait other all =>
    other = next ∧ observe all = observe calls ++ observe later
  | .fail _, .fail _ => observe calls = []
  | _, _ => False

theorem Advance.after_nil (round : Advance) : round.After [] round := by
  cases round with
  | more next calls => exact ⟨rfl, rfl⟩
  | wait next calls => exact ⟨rfl, rfl⟩
  | fail message => rfl

section Bytes

variable {pattern : List Byte}

theorem frontBytes_append_lastBytes (count : ℕ) (buffer : List Byte) :
    frontBytes count buffer ++ lastBytes count buffer = buffer :=
  List.take_append_drop _ _

theorem cut_append_of_none {buffer : List Byte} (none_ : cut pattern buffer = none)
    (more : List Byte) :
    cut pattern (buffer ++ more) =
      (cut pattern (lastBytes pattern.length buffer ++ more)).map fun parts =>
        (frontBytes pattern.length buffer ++ parts.1, parts.2) := by
  by_cases long : pattern.length ≤ buffer.length
  · have whole := frontBytes_append_lastBytes pattern.length buffer
    have enough : pattern.length ≤ (lastBytes pattern.length buffer).length + 1 := by
      rw [lastBytes, List.length_drop]
      omega
    rw [← whole] at none_
    have searched := cut_of_kept none_ enough more
    rwa [whole] at searched
  · have noFront : frontBytes pattern.length buffer = [] := by
      rw [frontBytes, Nat.sub_eq_zero_of_le (by omega), List.take_zero]
    have allKept : lastBytes pattern.length buffer = buffer := by
      rw [lastBytes, Nat.sub_eq_zero_of_le (by omega), List.drop_zero]
    rw [noFront, allKept]
    cases cut pattern (buffer ++ more) <;> rfl

theorem lastBytes_append (count : ℕ) (buffer more : List Byte) :
    lastBytes count (buffer ++ more) = lastBytes count (lastBytes count buffer ++ more) := by
  unfold lastBytes
  by_cases long : count ≤ buffer.length
  · rw [List.length_append, List.length_append, List.length_drop]
    have front : (buffer.drop (buffer.length - count) ++ more) =
        (buffer ++ more).drop (buffer.length - count) := by
      rw [List.drop_append_of_le_length (by omega)]
    rw [front, List.drop_drop]
    congr 1
    omega
  · rw [Nat.sub_eq_zero_of_le (by omega : buffer.length ≤ count), List.drop_zero]

theorem frontBytes_append (count : ℕ) (buffer more : List Byte) :
    frontBytes count (buffer ++ more) =
      frontBytes count buffer ++ frontBytes count (lastBytes count buffer ++ more) := by
  have whole := frontBytes_append_lastBytes count (buffer ++ more)
  have later := frontBytes_append_lastBytes count (lastBytes count buffer ++ more)
  have early := frontBytes_append_lastBytes count buffer
  rw [lastBytes_append] at whole
  apply List.append_cancel_right
  rw [whole, List.append_assoc, later, ← List.append_assoc, early]

end Bytes

section Emit

variable {reader emitted : Reader} {front back : List Byte} {calls : List Callback}
  {message : String}

theorem emit_keeps (said : reader.emit front = .ok (emitted, calls)) :
    emitted.buffer = reader.buffer ∧ emitted.state = reader.state ∧
      emitted.fieldName = reader.fieldName ∧ emitted.inFile = reader.inFile ∧
      emitted.finished = reader.finished ∧ emitted.parts = reader.parts := by
  unfold Reader.emit at said
  split_ifs at said <;> cases said <;> simp

theorem emit_of_buffer (reader : Reader) (buffer data : List Byte) :
    ({ reader with buffer := buffer } : Reader).emit data =
      (reader.emit data).map fun result => ({ result.1 with buffer := buffer }, result.2) := by
  unfold Reader.emit
  split_ifs <;> rfl

theorem emit_append_of_error (said : reader.emit front = .error message) :
    ∃ later, reader.emit (front ++ back) = .error later := by
  unfold Reader.emit at said ⊢
  split_ifs at said with empty inFile large
  have nonempty : ¬(front ++ back).isEmpty = true := by
    intro both
    rw [List.isEmpty_iff, List.append_eq_nil_iff] at both
    exact empty (List.isEmpty_iff.mpr both.1)
  have larger : maxFieldBytes < (reader.fieldValue ++ (front ++ back)).length := by
    rw [List.length_append] at large
    rw [List.length_append, List.length_append]
    omega
  rw [if_neg nonempty, if_neg inFile, if_pos larger]
  exact ⟨_, rfl⟩

theorem emit_append (said : reader.emit front = .ok (emitted, calls)) :
    (∃ message other, emitted.emit back = .error message ∧
        reader.emit (front ++ back) = .error other ∧ observe calls = []) ∨
      ∃ last later all, emitted.emit back = .ok (last, later) ∧
        reader.emit (front ++ back) = .ok (last, all) ∧
          observe all = observe calls ++ observe later := by
  by_cases noFront : front = []
  · subst noFront
    unfold Reader.emit at said
    cases said
    rw [List.nil_append]
    cases result : reader.emit back with
    | error message => exact Or.inl ⟨message, message, rfl, rfl, rfl⟩
    | ok pair => exact Or.inr ⟨pair.1, pair.2, pair.2, rfl, rfl, rfl⟩
  · by_cases noBack : back = []
    · subst noBack
      refine Or.inr ⟨emitted, [], calls, by simp [Reader.emit], ?_, by simp⟩
      rw [List.append_nil, said]
    · cases inFile : reader.inFile with
      | true =>
        unfold Reader.emit at said
        rw [if_neg (by simpa using noFront), inFile, if_pos rfl] at said
        cases said
        refine Or.inr ⟨reader, [.fileData back], [.fileData (front ++ back)], ?_, ?_, ?_⟩
        · simp [Reader.emit, noBack, inFile]
        · simp [Reader.emit, noFront, inFile]
        · simp [observe, Callback.seen]
      | false =>
        unfold Reader.emit at said
        rw [if_neg (by simpa using noFront), inFile, if_neg Bool.false_ne_true] at said
        split_ifs at said with large
        cases said
        have noBoth : ¬(front ++ back).isEmpty = true := by simp [noFront]
        have noBack' : ¬back.isEmpty = true := by simp [noBack]
        unfold Reader.emit
        rw [if_neg noBoth, if_neg noBack', inFile, List.append_assoc]
        by_cases larger : maxFieldBytes < (reader.fieldValue ++ (front ++ back)).length
        · exact Or.inl ⟨_, _, if_pos larger, if_pos larger, rfl⟩
        · exact Or.inr ⟨_, _, _, if_neg larger, if_neg larger, rfl⟩

end Emit

theorem emit_quiet {reader emitted : Reader} {data : List Byte} {calls : List Callback}
    (said : reader.emit data = .ok (emitted, calls)) (noFile : reader.inFile = false) :
    observe calls = [] := by
  unfold Reader.emit at said
  rw [noFile, if_neg Bool.false_ne_true] at said
  split_ifs at said <;> cases said <;> rfl

section Rounds

variable {boundary : List Byte} {reader next : Reader} {calls : List Callback} {message : String}

theorem startPart_extend (block rest more : List Byte) :
    (reader.extend more).startPart block (rest ++ more) =
      (reader.startPart block rest).extend more := by
  unfold Reader.startPart
  change (if maxParts < reader.parts + 1 then _ else _) = _
  by_cases many : maxParts < reader.parts + 1
  · rw [if_pos many, if_pos many]
    rfl
  · rw [if_neg many, if_neg many]
    cases disposition (headersOf block) with
    | error message => rfl
    | ok found => rcases found with ⟨name, _ | filename⟩ <;> rfl

theorem endPart_extend (rest more : List Byte) (calls : List Callback) :
    (reader.extend more).endPart (rest ++ more) calls =
      (reader.endPart rest calls).extend more := by
  rcases reader with ⟨buffer, state, fieldName, fieldValue, inFile, finished, parts⟩
  cases inFile with
  | true => rfl
  | false =>
    cases fieldName with
    | none => rfl
    | some name =>
      simp only [Reader.endPart, Reader.extend, Bool.false_eq_true, if_false]
      cases decodeUtf8 fieldValue with
      | none => rfl
      | some text => rfl

theorem endPart_after (rest : List Byte) (earlier later all : List Callback)
    (same : observe all = observe earlier ++ observe later)
    (quiet : reader.inFile = false → observe earlier = []) :
    (reader.endPart rest later).After earlier (reader.endPart rest all) := by
  unfold Reader.endPart
  cases inFile : reader.inFile with
  | true => exact ⟨rfl, by simp [same]⟩
  | false =>
    cases reader.fieldName with
    | none => exact ⟨rfl, same⟩
    | some name =>
      cases decodeUtf8 reader.fieldValue with
      | none => exact quiet inFile
      | some value => exact ⟨rfl, by simp [same]⟩

def Reader.HeaderFits (reader : Reader) : Prop :=
  reader.state = .headers → ∀ block rest, cut blankLine reader.buffer = some (block, rest) →
    block.length + 3 ≤ maxHeaderBytes

theorem bodyStep_of_none (none_ : cut (separator boundary) reader.buffer = none) :
    reader.bodyStep boundary =
      match reader.emit (frontBytes (separator boundary).length reader.buffer) with
      | .error message => .fail message
      | .ok (emitted, calls) =>
        .wait
          { emitted with buffer := lastBytes (separator boundary).length reader.buffer } calls := by
  unfold Reader.bodyStep
  rw [none_]
  by_cases long : (separator boundary).length < reader.buffer.length
  · exact if_pos long
  · have noFront : frontBytes (separator boundary).length reader.buffer = [] := by
      rw [frontBytes, Nat.sub_eq_zero_of_le (by omega), List.take_zero]
    have allKept : lastBytes (separator boundary).length reader.buffer = reader.buffer := by
      rw [lastBytes, Nat.sub_eq_zero_of_le (by omega), List.drop_zero]
    rw [noFront, allKept]
    exact if_neg long

theorem bodyStep_of_some {data rest : List Byte}
    (found : cut (separator boundary) reader.buffer = some (data, rest)) :
    reader.bodyStep boundary = match reader.emit data with
      | .error message => .fail message
      | .ok (emitted, calls) => emitted.endPart rest calls := by
  unfold Reader.bodyStep
  cases said : reader.emit data with
  | error message => simp only [found, said]
  | ok pair => simp only [found, said]

theorem bodyStep_after {emitted : Reader}
    (said : reader.emit (frontBytes (separator boundary).length reader.buffer) =
      .ok (emitted, calls))
    (none_ : cut (separator boundary) reader.buffer = none) (more : List Byte) :
    (Reader.bodyStep boundary { emitted with
        buffer := lastBytes (separator boundary).length reader.buffer ++ more }).After calls
      (Reader.bodyStep boundary { reader with buffer := reader.buffer ++ more }) := by
  have searched := cut_append_of_none none_ more
  have quiet : emitted.inFile = false → observe calls = [] := by
    rw [(emit_keeps said).2.2.2.1]
    exact emit_quiet said
  cases found :
    cut (separator boundary) (lastBytes (separator boundary).length reader.buffer ++ more) with
  | none =>
    rw [found] at searched
    have nextNone : cut (separator boundary) ({ emitted with
        buffer := lastBytes (separator boundary).length reader.buffer ++ more } :
          Reader).buffer = none := found
    have wholeNone : cut (separator boundary)
        ({ reader with buffer := reader.buffer ++ more } : Reader).buffer = none := searched
    rw [bodyStep_of_none nextNone, bodyStep_of_none wholeNone]
    simp only
    rw [emit_of_buffer emitted, emit_of_buffer reader, frontBytes_append _ reader.buffer,
      lastBytes_append _ reader.buffer]
    rcases emit_append said with ⟨message, other, early, late, silent⟩ |
      ⟨last, later, all, early, late, same⟩
    · rw [early, late]
      exact silent
    · rw [early, late]
      exact ⟨rfl, same⟩
  | some parts =>
    rw [found] at searched
    have nextSome : cut (separator boundary) ({ emitted with
        buffer := lastBytes (separator boundary).length reader.buffer ++ more } :
          Reader).buffer = some (parts.1, parts.2) := found
    have wholeSome : cut (separator boundary)
        ({ reader with buffer := reader.buffer ++ more } : Reader).buffer =
          some (frontBytes (separator boundary).length reader.buffer ++ parts.1, parts.2) :=
      searched
    rw [bodyStep_of_some nextSome, bodyStep_of_some wholeSome]
    rw [emit_of_buffer emitted, emit_of_buffer reader]
    rcases emit_append said with ⟨message, other, early, late, silent⟩ |
      ⟨last, later, all, early, late, same⟩
    · rw [early, late]
      exact silent
    · rw [early, late]
      have lastQuiet : last.inFile = false → observe calls = [] := by
        rw [(emit_keeps early).2.2.2.1]
        exact quiet
      exact endPart_after parts.2 calls later all same lastQuiet

theorem startPart_not_wait (block rest : List Byte) :
    reader.startPart block rest ≠ .wait next calls := by
  unfold Reader.startPart
  split_ifs
  · exact Advance.noConfusion
  · rcases disposition (headersOf block) with message | ⟨name, _ | filename⟩ <;>
      exact Advance.noConfusion

theorem endPart_not_wait (rest : List Byte) (earlier : List Callback) :
    reader.endPart rest earlier ≠ .wait next calls := by
  unfold Reader.endPart
  split_ifs
  · exact Advance.noConfusion
  · cases reader.fieldName with
    | none => exact Advance.noConfusion
    | some name =>
      cases decodeUtf8 reader.fieldValue with
      | none => exact Advance.noConfusion
      | some value => exact Advance.noConfusion

theorem startPart_shortens {block rest : List Byte}
    (went : reader.startPart block rest = .more next calls) :
    next.buffer = rest ∧ next.finished = reader.finished := by
  unfold Reader.startPart at went
  split_ifs at went
  rcases found : disposition (headersOf block) with message | ⟨name, _ | filename⟩ <;>
    rw [found] at went <;> cases went <;> exact ⟨rfl, rfl⟩

theorem endPart_shortens {rest : List Byte} {earlier : List Callback}
    (went : reader.endPart rest earlier = .more next calls) :
    next.buffer = rest ∧ next.finished = reader.finished := by
  unfold Reader.endPart at went
  split_ifs at went
  · cases went
    exact ⟨rfl, rfl⟩
  · cases fieldName : reader.fieldName with
    | none =>
      rw [fieldName] at went
      cases went
      exact ⟨rfl, rfl⟩
    | some name =>
      rw [fieldName] at went
      cases value : decodeUtf8 reader.fieldValue with
      | none => rw [value] at went; cases went
      | some text =>
        rw [value] at went
        cases went
        exact ⟨rfl, rfl⟩

theorem advance_of_preamble (state : reader.state = .preamble) :
    reader.advance boundary = reader.preambleStep boundary := by
  rw [Reader.advance, state]

theorem advance_of_delimiter (state : reader.state = .afterDelimiter) :
    reader.advance boundary = reader.delimiterStep := by
  rw [Reader.advance, state]

theorem advance_of_headers (state : reader.state = .headers) :
    reader.advance boundary = reader.headersStep := by
  rw [Reader.advance, state]

theorem advance_of_body (state : reader.state = .body) :
    reader.advance boundary = reader.bodyStep boundary := by
  rw [Reader.advance, state]

def Extends (boundary : List Byte) (reader : Reader) (more : List Byte) : Advance → Prop
  | .more next calls =>
    (reader.extend more).advance boundary = .more (next.extend more) calls ∧
      next.buffer.length < reader.buffer.length ∧ next.finished = reader.finished
  | .fail _ => (reader.extend more).HeaderFits →
    ∃ message, (reader.extend more).advance boundary = .fail message
  | .wait next calls =>
    (next.finished = false →
      ((next.extend more).advance boundary).After calls ((reader.extend more).advance boundary) ∧
        ((reader.extend more).HeaderFits → (next.extend more).HeaderFits)) ∧
    (next.finished = true → reader.finished = false → calls = [] ∧
      (reader.extend more).advance boundary = .wait { reader.extend more with finished := true } [])

theorem extends_wait_self (reader : Reader) (more : List Byte) :
    Extends boundary reader more (.wait reader []) :=
  ⟨fun _ => ⟨Advance.after_nil _, id⟩,
    fun finished going => absurd (going.symm.trans finished) Bool.false_ne_true⟩

theorem preambleStep_extends (state : reader.state = .preamble) (more : List Byte) :
    Extends boundary reader more (reader.preambleStep boundary) := by
  have whole : (reader.extend more).advance boundary = _ := advance_of_preamble state
  unfold Reader.preambleStep at whole ⊢
  cases found : cut (delimiter boundary) reader.buffer with
  | some parts =>
    have length := length_of_cut found
    have foundNow : cut (delimiter boundary) (reader.extend more).buffer = _ :=
      cut_append found more
    rw [foundNow] at whole
    refine ⟨whole, ?_, rfl⟩
    simp only [delimiter, dashes, List.length_append, List.length_cons] at length ⊢
    omega
  | none =>
    have foundNow : cut (delimiter boundary) (reader.extend more).buffer = _ :=
      cut_append_of_none found more
    rw [foundNow] at whole
    refine ⟨fun _ => ⟨?_, fun _ headers => ?_⟩,
      fun finished going => absurd (going.symm.trans finished) Bool.false_ne_true⟩
    · have kept (buffer : List Byte) :
          Reader.advance boundary { reader with buffer := buffer } = _ :=
        advance_of_preamble state
      rw [whole, Reader.extend, kept]
      unfold Reader.preambleStep
      simp only
      cases cut (delimiter boundary)
          (lastBytes (delimiter boundary).length reader.buffer ++ more) with
      | none =>
        have same : lastBytes (delimiter boundary).length (reader.extend more).buffer = _ :=
          lastBytes_append _ reader.buffer more
        exact ⟨by rw [same]; rfl, rfl⟩
      | some parts => exact ⟨rfl, rfl⟩
    · cases state.symm.trans headers

theorem delimiterStep_extends (state : reader.state = .afterDelimiter) (more : List Byte) :
    Extends boundary reader more reader.delimiterStep := by
  have whole : (reader.extend more).advance boundary = (reader.extend more).delimiterStep :=
    advance_of_delimiter state
  have longer : (reader.extend more).buffer = reader.buffer ++ more := rfl
  unfold Reader.delimiterStep at whole ⊢
  by_cases short : reader.buffer.length < 2
  · rw [if_pos short]
    exact extends_wait_self reader more
  · have same : (reader.buffer ++ more).take 2 = reader.buffer.take 2 :=
      List.take_append_of_le_length (by omega)
    have rest : (reader.buffer ++ more).drop 2 = reader.buffer.drop 2 ++ more :=
      List.drop_append_of_le_length (by omega)
    rw [longer, same, rest, List.length_append, if_neg (by omega)] at whole
    rw [if_neg short]
    split_ifs at whole ⊢ with dashed broken
    · exact ⟨fun unfinished => (nomatch unfinished), fun _ _ => ⟨rfl, whole⟩⟩
    · exact fun _ => ⟨_, whole⟩
    · refine ⟨whole, ?_, rfl⟩
      rw [List.length_drop]
      omega

theorem headersStep_extends (state : reader.state = .headers) (more : List Byte) :
    Extends boundary reader more reader.headersStep := by
  have whole : (reader.extend more).advance boundary = (reader.extend more).headersStep :=
    advance_of_headers state
  unfold Reader.headersStep at whole ⊢
  have size : blankLine.length = 4 := rfl
  cases found : cut blankLine reader.buffer with
  | none =>
    dsimp only
    split_ifs with large
    · intro fits
      cases foundNow : cut blankLine (reader.extend more).buffer with
      | none =>
        have larger : maxHeaderBytes < (reader.extend more).buffer.length := by
          rw [Reader.extend, List.length_append]
          omega
        rw [foundNow] at whole
        exact ⟨_, whole.trans (if_pos larger)⟩
      | some parts =>
        have short := fits state parts.1 parts.2 foundNow
        have later := length_lt_of_cut_append found foundNow
        omega
    · exact extends_wait_self reader more
  | some parts =>
    have length := length_of_cut found
    have foundNow : cut blankLine (reader.extend more).buffer = some (parts.1, parts.2 ++ more) :=
      cut_append found more
    rw [foundNow] at whole
    have started := whole.trans (startPart_extend parts.1 parts.2 more)
    dsimp only
    cases went : reader.startPart parts.1 parts.2 with
    | wait next calls => exact absurd went (startPart_not_wait parts.1 parts.2)
    | fail message => exact fun _ => ⟨_, by rw [started, went]; rfl⟩
    | more next calls =>
      rcases startPart_shortens went with ⟨rest, finished⟩
      exact ⟨by rw [started, went]; rfl, by rw [rest]; omega, finished⟩

/-- A step in a body goes on alike whatever input follows. -/
theorem bodyStep_extends (state : reader.state = .body) (more : List Byte) :
    Extends boundary reader more (reader.bodyStep boundary) := by
  have whole : (reader.extend more).advance boundary = (reader.extend more).bodyStep boundary :=
    advance_of_body state
  cases found : cut (separator boundary) reader.buffer with
  | some parts =>
    have length := length_of_cut found
    have foundNow : cut (separator boundary) (reader.extend more).buffer =
        some (parts.1, parts.2 ++ more) := cut_append found more
    rw [bodyStep_of_some foundNow, Reader.extend, emit_of_buffer] at whole
    rw [bodyStep_of_some found]
    cases said : reader.emit parts.1 with
    | error message => exact fun _ => ⟨message, by rw [Reader.extend, whole, said]; rfl⟩
    | ok pair =>
      have sameBuffer : ({ pair.1 with buffer := reader.buffer ++ more } : Reader) =
          pair.1.extend more := by
        rw [Reader.extend, (emit_keeps said).1]
      have ended : (reader.extend more).advance boundary =
          (pair.1.endPart parts.2 pair.2).extend more := by
        rw [Reader.extend, whole, said, ← endPart_extend, ← sameBuffer]
        rfl
      dsimp only
      cases went : pair.1.endPart parts.2 pair.2 with
      | wait next calls => exact absurd went (endPart_not_wait parts.2 pair.2)
      | fail message => exact fun _ => ⟨_, by rw [ended, went]; rfl⟩
      | more next calls =>
        rcases endPart_shortens went with ⟨rest, finished⟩
        refine ⟨by rw [ended, went]; rfl, ?_, finished.trans (emit_keeps said).2.2.2.2.1⟩
        rw [rest]
        simp only [separator, lineBreak, List.length_append, List.length_cons] at length
        omega
  | none =>
    rw [bodyStep_of_none found]
    cases said : reader.emit (frontBytes (separator boundary).length reader.buffer) with
    | error message =>
      refine fun _ => ?_
      have searched : cut (separator boundary) (reader.extend more).buffer = _ :=
        cut_append_of_none found more
      rw [whole]
      cases foundNow :
        cut (separator boundary) (lastBytes (separator boundary).length reader.buffer ++ more) with
      | none =>
        rw [foundNow] at searched
        rw [bodyStep_of_none searched, Reader.extend, emit_of_buffer, frontBytes_append]
        rcases emit_append_of_error said with ⟨later, saidNow⟩
        rw [saidNow]
        exact ⟨_, rfl⟩
      | some parts =>
        rw [foundNow] at searched
        rw [bodyStep_of_some searched, Reader.extend, emit_of_buffer]
        rcases emit_append_of_error said with ⟨later, saidNow⟩
        rw [saidNow]
        exact ⟨_, rfl⟩
    | ok pair =>
      have keeps := emit_keeps said
      have emittedState : pair.1.state = .body := keeps.2.1.trans state
      refine ⟨fun _ => ⟨?_, fun _ headers => ?_⟩, fun finished going => ?_⟩
      · have kept (buffer : List Byte) :
            Reader.advance boundary { pair.1 with buffer := buffer } = _ :=
          advance_of_body emittedState
        rw [whole, Reader.extend, kept]
        exact bodyStep_after said found more
      · cases emittedState.symm.trans headers
      · rw [keeps.2.2.2.2.1, going] at finished
        cases finished

theorem advance_extends (boundary : List Byte) (reader : Reader) (more : List Byte) :
    Extends boundary reader more (reader.advance boundary) := by
  cases state : reader.state with
  | preamble => exact advance_of_preamble state ▸ preambleStep_extends state more
  | afterDelimiter => exact advance_of_delimiter state ▸ delimiterStep_extends state more
  | headers => exact advance_of_headers state ▸ headersStep_extends state more
  | body => exact advance_of_body state ▸ bodyStep_extends state more

theorem advance_extend_of_more (went : reader.advance boundary = .more next calls)
    (more : List Byte) :
    (reader.extend more).advance boundary = .more (next.extend more) calls := by
  have extended := advance_extends boundary reader more
  rw [went] at extended
  exact extended.1

theorem advance_shortens (went : reader.advance boundary = .more next calls) :
    next.buffer.length < reader.buffer.length ∧ next.finished = reader.finished := by
  have extended := advance_extends boundary reader []
  rw [went] at extended
  exact extended.2

theorem advance_extend_of_fail (failed : reader.advance boundary = .fail message)
    (more : List Byte) (fits : (reader.extend more).HeaderFits) :
    ∃ later, (reader.extend more).advance boundary = .fail later := by
  have extended := advance_extends boundary reader more
  rw [failed] at extended
  exact extended fits

theorem advance_extend_of_wait (waits : reader.advance boundary = .wait next calls)
    (unfinished : next.finished = false) (more : List Byte) :
    ((next.extend more).advance boundary).After calls ((reader.extend more).advance boundary) ∧
      ((reader.extend more).HeaderFits → (next.extend more).HeaderFits) := by
  have extended := advance_extends boundary reader more
  rw [waits] at extended
  exact extended.1 unfinished

theorem advance_extend_of_finished (waits : reader.advance boundary = .wait next calls)
    (going : reader.finished = false) (finished : next.finished = true) (more : List Byte) :
    calls = [] ∧ (reader.extend more).advance boundary =
      .wait { reader.extend more with finished := true } [] := by
  have extended := advance_extends boundary reader more
  rw [waits] at extended
  exact extended.2 finished going

end Rounds

section Runs

variable {boundary : List Byte} {reader next : Reader} {calls : List Callback} {message : String}

theorem drain_of_enough {rounds others : ℕ} (enough : reader.buffer.length < rounds)
    (othersEnough : reader.buffer.length < others) :
    drain boundary rounds reader = drain boundary others reader := by
  induction rounds generalizing reader others with
  | zero => omega
  | succ rounds ih =>
    cases others with
    | zero => omega
    | succ others =>
      unfold drain
      cases step : reader.advance boundary with
      | wait waiting calls => rfl
      | fail message => rfl
      | more next calls =>
        have shorter := (advance_shortens step).1
        have same : drain boundary rounds next = drain boundary others next :=
          ih (by omega) (by omega)
        simp only
        rw [same]

def outcome (boundary : List Byte) (reader : Reader) : List Seen × Bool :=
  let fed := drain boundary (reader.buffer.length + 1) reader
  (observe fed.calls, fed.error.isNone && fed.reader.finished)

theorem outcome_of_more (went : reader.advance boundary = .more next calls) :
    outcome boundary reader =
      (observe calls ++ (outcome boundary next).1, (outcome boundary next).2) := by
  have shorter := (advance_shortens went).1
  have same : drain boundary reader.buffer.length next =
      drain boundary (next.buffer.length + 1) next :=
    drain_of_enough shorter (by omega)
  unfold outcome
  rw [drain, went]
  simp only
  rw [same, observe_append]

theorem outcome_of_wait (waits : reader.advance boundary = .wait next calls) :
    outcome boundary reader = (observe calls, next.finished) := by
  unfold outcome
  rw [drain, waits]
  simp

theorem outcome_of_fail (failed : reader.advance boundary = .fail message) :
    outcome boundary reader = ([], false) := by
  unfold outcome
  rw [drain, failed]
  rfl

theorem outcome_after {other : Reader}
    (same : (next.advance boundary).After calls (other.advance boundary)) :
    outcome boundary other =
      (observe calls ++ (outcome boundary next).1, (outcome boundary next).2) := by
  cases step : next.advance boundary with
  | more last later =>
    cases otherStep : other.advance boundary with
    | more last' all =>
      rw [step, otherStep] at same
      rcases same with ⟨rfl, seen⟩
      rw [outcome_of_more step, outcome_of_more otherStep, seen, List.append_assoc]
    | wait last' all | fail message =>
      rw [step, otherStep] at same; exact same.elim
  | wait last later =>
    cases otherStep : other.advance boundary with
    | more last' all | fail message =>
      rw [step, otherStep] at same; exact same.elim
    | wait last' all =>
      rw [step, otherStep] at same
      rcases same with ⟨rfl, seen⟩
      rw [outcome_of_wait step, outcome_of_wait otherStep, seen]
  | fail message =>
    cases otherStep : other.advance boundary with
    | more last' all | wait last' all =>
      rw [step, otherStep] at same; exact same.elim
    | fail message' =>
      rw [step, otherStep] at same
      have quiet : observe calls = [] := same
      rw [outcome_of_fail step, outcome_of_fail otherStep, quiet]
      rfl

theorem stalled_of_wait (waits : reader.advance boundary = .wait next calls)
    (unfinished : next.finished = false) : outcome boundary next = ([], false) := by
  have same := (advance_extend_of_wait waits unfinished []).1
  have whole (any : Reader) : any.extend [] = any := by
    rw [Reader.extend, List.append_nil]
  rw [whole, whole, waits] at same
  cases step : next.advance boundary with
  | more last later => rw [step] at same; exact same.elim
  | fail message => rw [step] at same; exact same.elim
  | wait last later =>
    rw [step] at same
    rcases same with ⟨rfl, seen⟩
    have quiet : observe later = [] := List.self_eq_append_right.mp seen
    rw [outcome_of_wait step, quiet, unfinished]

def Goes (boundary : List Byte) (reader next : Reader) : Prop :=
  ∃ calls, reader.advance boundary = .more next calls

def HeadersFit (boundary : List Byte) (reader : Reader) : Prop :=
  ∀ next, Relation.ReflTransGen (Goes boundary) reader next → next.HeaderFits

theorem HeadersFit.later (fit : HeadersFit boundary reader)
    (went : reader.advance boundary = .more next calls) : HeadersFit boundary next :=
  fun last reached => fit last (reached.head ⟨calls, went⟩)

theorem HeadersFit.of_next (here : reader.HeaderFits)
    (later : ∀ next calls, reader.advance boundary = .more next calls →
      HeadersFit boundary next) : HeadersFit boundary reader := by
  intro last reached
  rcases reached.cases_head with same | ⟨next, ⟨calls, went⟩, rest⟩
  · exact same ▸ here
  · exact later next calls went last rest

theorem HeadersFit.of_more (went : reader.advance boundary = .more next calls)
    (here : reader.HeaderFits) (fit : HeadersFit boundary next) : HeadersFit boundary reader := by
  apply HeadersFit.of_next here
  intro last later same
  rw [went] at same
  cases same
  exact fit

theorem HeadersFit.of_wait {more : List Byte} (waits : reader.advance boundary = .wait next calls)
    (unfinished : next.finished = false) (fit : HeadersFit boundary (reader.extend more)) :
    HeadersFit boundary (next.extend more) := by
  have same := advance_extend_of_wait waits unfinished more
  apply HeadersFit.of_next
  · exact same.2 (fit _ .refl)
  · intro last later went
    have same := same.1
    rw [went] at same
    cases whole : (reader.extend more).advance boundary with
    | wait other all => rw [whole] at same; exact same.elim
    | fail message => rw [whole] at same; exact same.elim
    | more other all =>
      rw [whole] at same
      rcases same with ⟨rfl, -⟩
      exact fit.later whole

theorem outcome_extend {rounds : ℕ} {more : List Byte} (enough : reader.buffer.length < rounds)
    (going : reader.finished = false) (fit : HeadersFit boundary (reader.extend more)) :
    (∃ message, (drain boundary rounds reader).error = some message ∧
        outcome boundary (reader.extend more) =
          (observe (drain boundary rounds reader).calls, false)) ∨
      ((drain boundary rounds reader).error = none ∧
        (drain boundary rounds reader).reader.finished = true ∧
        outcome boundary (reader.extend more) =
          (observe (drain boundary rounds reader).calls, true)) ∨
      (drain boundary rounds reader).error = none ∧
        (drain boundary rounds reader).reader.finished = false ∧
        outcome boundary (drain boundary rounds reader).reader = ([], false) ∧
        HeadersFit boundary ((drain boundary rounds reader).reader.extend more) ∧
        outcome boundary (reader.extend more) = (observe (drain boundary rounds reader).calls ++
              (outcome boundary ((drain boundary rounds reader).reader.extend more)).1,
            (outcome boundary ((drain boundary rounds reader).reader.extend more)).2) := by
  induction rounds generalizing reader with
  | zero => omega
  | succ rounds ih =>
    rw [drain]
    cases step : reader.advance boundary with
    | fail message =>
      rcases advance_extend_of_fail step more (fit _ .refl) with ⟨later, failed⟩
      exact Or.inl ⟨message, rfl, outcome_of_fail failed⟩
    | wait waiting calls =>
      cases finished : waiting.finished with
      | true =>
        rcases advance_extend_of_finished step going finished more with ⟨rfl, whole⟩
        exact Or.inr (Or.inl ⟨rfl, rfl, outcome_of_wait whole⟩)
      | false =>
        exact Or.inr (Or.inr ⟨rfl, rfl, stalled_of_wait step finished,
          HeadersFit.of_wait step finished fit,
          outcome_after (advance_extend_of_wait step finished more).1⟩)
    | more next calls =>
      have whole := advance_extend_of_more step more
      rcases advance_shortens step with ⟨shorter, unfinished⟩
      rw [outcome_of_more whole, observe_append]
      rcases ih (by omega) (unfinished.trans going) (fit.later whole) with
        ⟨message, failed, same⟩ | ⟨quiet, finished, same⟩ |
          ⟨quiet, finished, stalled, later, same⟩
      · exact Or.inl ⟨message, failed, by rw [same]⟩
      · exact Or.inr (Or.inl ⟨quiet, finished, by rw [same]⟩)
      · exact Or.inr (Or.inr ⟨quiet, finished, stalled, later, by rw [same, List.append_assoc]⟩)

def seenOf (result : List Callback × Option String) : List Seen × Bool :=
  (observe result.1, result.2.isNone)

theorem readFrom_of_finished (finished : reader.finished = true) (chunks : List (List Byte)) :
    seenOf (readFrom boundary reader chunks) = ([], true) := by
  induction chunks with
  | nil => simp [readFrom, seenOf, finished]
  | cons chunk rest ih =>
    unfold readFrom feed
    rw [if_pos finished]
    simpa [seenOf] using ih

theorem readFrom_eq_outcome (going : reader.finished = false)
    (stalled : outcome boundary reader = ([], false)) (chunks : List (List Byte))
    (fit : HeadersFit boundary (reader.extend chunks.flatten)) :
    seenOf (readFrom boundary reader chunks) = outcome boundary (reader.extend chunks.flatten) := by
  induction chunks generalizing reader with
  | nil =>
    have same : reader.extend [].flatten = reader := by
      rw [Reader.extend, List.flatten_nil, List.append_nil]
    rw [same, stalled]
    simp [readFrom, seenOf, going]
  | cons chunk rest ih =>
    have whole : reader.extend (chunk :: rest).flatten =
        (reader.extend chunk).extend rest.flatten := by
      simp [Reader.extend]
    have fedBy : feed boundary reader chunk =
        drain boundary ((reader.extend chunk).buffer.length + 1) (reader.extend chunk) := by
      unfold feed
      rw [if_neg (by rw [going]; exact Bool.false_ne_true)]
      rfl
    rw [whole] at fit ⊢
    have goingNow : (reader.extend chunk).finished = false := going
    have told := outcome_extend (Nat.lt_add_one (reader.extend chunk).buffer.length) goingNow fit
    rw [← fedBy] at told
    unfold readFrom
    generalize feed boundary reader chunk = fed at told ⊢
    rcases told with
      ⟨message, failed, same⟩ | ⟨quiet, finished, same⟩ |
        ⟨quiet, finished, stalledNext, later, same⟩
    · simp only
      rw [same, failed]
      rfl
    · simp only
      rw [same, quiet]
      have ended : seenOf (readFrom boundary fed.reader rest) = ([], true) :=
        readFrom_of_finished finished rest
      rw [seenOf, Prod.mk.injEq] at ended
      simp only [seenOf, observe_append, ended.1, ended.2, List.append_nil]
    · simp only
      rw [same, quiet]
      have ended := ih finished stalledNext later
      rw [← ended]
      simp [seenOf]

theorem readMultipart_single (boundary body : List Byte) :
    seenOf (readMultipart boundary [body]) = outcome boundary { buffer := body } := by
  have fedBy : feed boundary {} body = drain boundary (body.length + 1) { buffer := body } := rfl
  unfold readMultipart readFrom outcome
  rw [fedBy]
  simp only
  cases failed : (drain boundary (body.length + 1) { buffer := body }).error with
  | some message => rfl
  | none =>
    cases finished : (drain boundary (body.length + 1) { buffer := body }).reader.finished with
    | true => simp [readFrom, seenOf, finished]
    | false => simp [readFrom, seenOf, finished]

theorem readMultipart_eq_outcome {chunks : List (List Byte)}
    (fit : HeadersFit boundary { buffer := chunks.flatten }) :
    seenOf (readMultipart boundary chunks) = outcome boundary { buffer := chunks.flatten } := by
  have waits : Reader.advance boundary {} = .wait {} [] := by
    change Reader.preambleStep boundary {} = _
    unfold Reader.preambleStep lastBytes
    rw [cut, if_neg (by simp [delimiter, dashes]), List.drop_nil]
  have stalled : outcome boundary {} = ([], false) := outcome_of_wait waits
  exact readFrom_eq_outcome rfl stalled chunks fit

end Runs

end HybridInference.Batch.Multipart
