import HybridInference.Batch.Multipart
import HybridInference.Library.Strip

/-!
# The header block of a form part

The line a client writes for a part, among any other lines, is read as the name and the file name
in it.
-/

namespace HybridInference.Batch.Multipart

open Library Delimiters

def asciiBytes (text : String) : List Byte := text.toList.map fun c => UInt8.ofNat c.toNat

def dispositionLine (name : List Byte) (filename : Option (List Byte)) : List Byte :=
  asciiBytes "Content-Disposition: form-data; name=\"" ++ (name ++ (asciiBytes "\"" ++
    match filename with
    | none => []
    | some filename => asciiBytes "; filename=\"" ++ (filename ++ asciiBytes "\"")))

def joinLines : List (List Byte) → List Byte
  | [] => []
  | [line] => line
  | line :: rest => line ++ (lineBreak ++ joinLines rest)

theorem splitLines_joinLines {lines : List (List Byte)} (some_ : lines ≠ [])
    (whole : ∀ line ∈ lines, ¬lineBreak <:+: line) {rounds : ℕ}
    (enough : lines.length ≤ rounds + 1) : splitLines rounds (joinLines lines) = lines := by
  induction lines generalizing rounds with
  | nil => exact absurd rfl some_
  | cons line rest ih =>
    have unbroken := whole line List.mem_cons_self
    cases rest with
    | nil =>
      cases rounds with
      | zero => rfl
      | succ rounds => rw [joinLines, splitLines, cut_eq_none_iff.mpr unbroken]
    | cons next rest =>
      cases rounds with
      | zero => simp at enough
      | succ rounds =>
        have free : ¬lineBreak <:+: line ++ lineBreak.dropLast :=
          not_infix_append_dropLast (by decide) unbroken
        have found : cut lineBreak (line ++ (lineBreak ++ joinLines (next :: rest))) =
            some (line, joinLines (next :: rest)) :=
          cut_of_free (by decide) free _
        have later := ih (List.cons_ne_nil next rest)
          (fun other inside => whole other (List.mem_cons_of_mem line inside))
          (by simpa using enough)
        rw [joinLines, splitLines, found]
        · simp only
          rw [later]
        · exact List.cons_ne_nil next rest

theorem length_le_joinLines (lines : List (List Byte)) :
    lines.length ≤ (joinLines lines).length + 1 := by
  induction lines with
  | nil => simp
  | cons line rest ih =>
    cases rest with
    | nil => simp
    | cons next rest =>
      rw [joinLines]
      · simp only [List.length_append, List.length_cons, lineBreak] at ih ⊢
        omega
      · exact List.cons_ne_nil next rest

section Texts

variable {mark : Char} {front : List Char}

theorem partition_append (free : mark ∉ front) (rest : List Char) :
    partition mark (front ++ mark :: rest) = (front, rest) := by
  have before : ∀ c ∈ front, (c ≠ mark : Bool) = true := by
    intro c inside
    rw [decide_eq_true_eq]
    rintro rfl
    exact free inside
  unfold partition
  rw [List.takeWhile_append_of_pos before, List.dropWhile_append_of_pos before]
  simp

variable {text : List Char}

theorem splitParamsFrom_plain (quote : '"' ∉ text) (mark : ';' ∉ text)
    (current : List Char) (quoted : Bool) (rest : List Char) :
    splitParamsFrom current quoted (text ++ rest) =
      splitParamsFrom (text.reverse ++ current) quoted rest := by
  induction text generalizing current with
  | nil => rfl
  | cons c text ih =>
    rw [List.mem_cons, not_or] at quote mark
    rw [List.cons_append, splitParamsFrom]
    simp only [if_neg (Ne.symm quote.1)]
    rw [if_neg (fun here => mark.1 here.1.symm), ih quote.2 mark.2]
    simp

theorem splitParamsFrom_quoted (quote : '"' ∉ text) (current rest : List Char) :
    splitParamsFrom current true (text ++ rest) =
      splitParamsFrom (text.reverse ++ current) true rest := by
  induction text generalizing current with
  | nil => rfl
  | cons c text ih =>
    rw [List.mem_cons, not_or] at quote
    rw [List.cons_append, splitParamsFrom]
    simp only [if_neg (Ne.symm quote.1)]
    rw [if_neg (fun here => Bool.false_ne_true here.2.symm), ih quote.2]
    simp

theorem splitParamsFrom_quote (current : List Char) (quoted : Bool) (rest : List Char) :
    splitParamsFrom current quoted ('"' :: rest) =
      splitParamsFrom ('"' :: current) (!quoted) rest := by
  rw [splitParamsFrom]
  exact if_neg fun here => absurd here.1 (by decide)

theorem unescape_of_free (quote : '"' ∉ text) : unescape text = text := by
  induction text with
  | nil => rfl
  | cons c text ih =>
    rw [List.mem_cons, not_or] at quote
    rw [unescape, ih quote.2]
    intro rest same
    rintro rfl
    apply quote.2
    simp

theorem unquote_strip (quote : '"' ∉ text) :
    unquote (Text.strip ('"' :: (text ++ ['"']))) = text := by
  have kept : Text.strip ('"' :: (text ++ ['"'])) = '"' :: (text ++ ['"']) := by
    apply Text.strip_eq_self
    · intro c rest same
      rw [← (List.cons.inj same).1]
      decide
    · intro others c same
      have last := congrArg List.getLast? same
      rw [List.getLast?_append, ← List.cons_append, List.getLast?_append] at last
      have isQuote : '"' = c := Option.some.inj last
      rw [← isQuote]
      decide
  rw [kept, unquote, if_pos]
  · rw [List.drop_succ_cons, List.drop_zero, List.dropLast_concat, unescape_of_free quote]
  · refine ⟨by simp, rfl, ?_⟩
    rw [← List.cons_append, List.getLast?_append]
    rfl

theorem param_cases {key : List Char} (solid : ∀ c ∈ key, ¬Text.isSpace c = true)
    (nonempty : key ≠ []) (value : List Char) :
    Text.strip (' ' :: (key ++ '=' :: '"' :: (value ++ ['"']))) =
      key ++ '=' :: '"' :: (value ++ ['"']) := by
  rw [Text.strip_cons_of_space (by decide)]
  apply Text.strip_eq_self
  · intro c rest same
    cases key with
    | nil => exact absurd rfl nonempty
    | cons first key =>
      rw [List.cons_append, List.cons.injEq] at same
      rw [← same.1]
      exact solid first List.mem_cons_self
  · intro others c same
    have shape : key ++ '=' :: '"' :: (value ++ ['"']) = (key ++ '=' :: '"' :: value) ++ ['"'] := by
      simp
    rw [shape] at same
    have isQuote := (List.append_inj' same rfl).2
    rw [← List.singleton_inj.mp isQuote]
    decide

end Texts

section Disposition

variable {name : List Byte} {filename : Option (List Byte)}

theorem latin1_append (first second : List Byte) :
    latin1 (first ++ second) = latin1 first ++ latin1 second :=
  List.map_append

theorem quote_not_mem_latin1 {bytes : List Byte} (free : (34 : Byte) ∉ bytes) :
    '"' ∉ latin1 bytes := by
  intro inside
  rcases List.mem_map.mp inside with ⟨byte, member, same⟩
  have small := byte.toNat_lt
  have valid : byte.toNat.isValidChar := Or.inl (by omega)
  have sameAux : Char.ofNatAux byte.toNat valid = '"' := by
    rw [← same, Char.ofNat, dif_pos valid]
  have value : byte.toNat = 34 := congrArg Char.toNat sameAux
  have isQuote : byte = 34 := UInt8.toNat_inj.mp value
  exact free (isQuote ▸ member)

def filenameText : Option (List Byte) → List Char
  | none => []
  | some filename => ';' :: ' ' :: ("filename".toList ++ '=' :: '"' :: (latin1 filename ++ ['"']))

def dispositionValue (name : List Byte) (filename : Option (List Byte)) : List Char :=
  "form-data".toList ++ ';' :: ' ' :: ("name".toList ++ '=' :: '"' ::
    (latin1 name ++ '"' :: filenameText filename))

theorem latin1_dispositionLine (name : List Byte) (filename : Option (List Byte)) :
    latin1 (dispositionLine name filename) =
      "Content-Disposition".toList ++ ':' :: ' ' :: dispositionValue name filename := by
  have start : latin1 (asciiBytes "Content-Disposition: form-data; name=\"") =
      "Content-Disposition: form-data; name=\"".toList := by decide
  have middle : latin1 (asciiBytes "; filename=\"") = "; filename=\"".toList := by decide
  have quote : latin1 (asciiBytes "\"") = ['"'] := by decide
  unfold dispositionLine dispositionValue
  rw [latin1_append, latin1_append, latin1_append, start, quote]
  cases filename with
  | none => rfl
  | some filename =>
    rw [latin1_append, latin1_append, middle, quote]
    rfl

theorem strip_dispositionValue (name : List Byte) (filename : Option (List Byte)) :
    Text.strip (' ' :: dispositionValue name filename) = dispositionValue name filename := by
  have ends : ∃ front, dispositionValue name filename = front ++ ['"'] := by
    unfold dispositionValue
    cases filename with
    | none =>
      rw [filenameText]
      exact ⟨"form-data".toList ++ ';' :: ' ' :: ("name".toList ++ '=' :: '"' :: latin1 name),
        by simp⟩
    | some filename =>
      rw [filenameText]
      exact ⟨"form-data".toList ++ ';' :: ' ' :: ("name".toList ++ '=' :: '"' ::
        (latin1 name ++ '"' :: ';' :: ' ' ::
          ("filename".toList ++ '=' :: '"' :: latin1 filename))), by simp⟩
  rw [Text.strip_cons_of_space (by decide)]
  apply Text.strip_eq_self
  · intro c rest same
    have first : 'f' = c := (List.cons.inj same).1
    rw [← first]
    decide
  · intro front c same
    rcases ends with ⟨others, whole⟩
    rw [whole] at same
    rw [← List.singleton_inj.mp (List.append_inj' same rfl).2]
    decide

theorem splitParams_line (nameFree : '"' ∉ latin1 name)
    (filenameFree : ∀ bytes ∈ filename, '"' ∉ latin1 bytes) :
    splitParams (' ' :: ("name".toList ++ '=' :: '"' ::
        (latin1 name ++ '"' :: filenameText filename))) =
      ("name".toList ++ '=' :: '"' :: (latin1 name ++ ['"'])) :: (filename.map fun bytes =>
          "filename".toList ++ '=' :: '"' :: (latin1 bytes ++ ['"'])).toList := by
  have nameFirst (rest : List Char) : splitParamsFrom [] false
        (' ' :: ("name".toList ++ '=' :: '"' :: (latin1 name ++ '"' :: rest))) =
        splitParamsFrom ('"' :: ((latin1 name).reverse ++ '"' :: " name=".toList.reverse))
          false rest := by
    have shape : ' ' :: ("name".toList ++ '=' :: '"' :: (latin1 name ++ '"' :: rest)) =
        " name=".toList ++ '"' :: (latin1 name ++ '"' :: rest) := rfl
    rw [shape, splitParamsFrom_plain (by decide) (by decide), splitParamsFrom_quote,
      Bool.not_false, splitParamsFrom_quoted nameFree, splitParamsFrom_quote, Bool.not_true,
      List.append_nil]
  have nameParam := param_cases
    (by simp [Text.isSpace] : ∀ c ∈ "name".toList, ¬Text.isSpace c = true) (by decide) (latin1 name)
  unfold splitParams
  rw [nameFirst]
  have nameShape : ('"' :: ((latin1 name).reverse ++ '"' :: " name=".toList.reverse)).reverse =
      ' ' :: ("name".toList ++ '=' :: '"' :: (latin1 name ++ ['"'])) := by
    simp
  cases filename with
  | none =>
    simp only [filenameText, splitParamsFrom, List.isEmpty_cons, Bool.false_eq_true, if_false]
    rw [nameShape, List.map_singleton, nameParam]
    rfl
  | some filename =>
    have free := filenameFree filename rfl
    have filenameParam := param_cases
      (by simp [Text.isSpace] : ∀ c ∈ "filename".toList, ¬Text.isSpace c = true) (by decide)
      (latin1 filename)
    have mark (current rest : List Char) : splitParamsFrom current false (';' :: rest) =
          current.reverse :: splitParamsFrom [] false rest := by
      rw [splitParamsFrom]
      exact if_pos ⟨rfl, rfl⟩
    have filenameLast : splitParamsFrom [] false
            (' ' :: ("filename".toList ++ '=' :: '"' :: (latin1 filename ++ ['"']))) =
          [' ' :: ("filename".toList ++ '=' :: '"' :: (latin1 filename ++ ['"']))] := by
      have shape : ' ' :: ("filename".toList ++ '=' :: '"' :: (latin1 filename ++ ['"'])) =
          " filename=".toList ++ '"' :: (latin1 filename ++ ['"']) := rfl
      rw [shape, splitParamsFrom_plain (by decide) (by decide), splitParamsFrom_quote,
        Bool.not_false, splitParamsFrom_quoted free, splitParamsFrom_quote, Bool.not_true,
        List.append_nil]
      simp [splitParamsFrom]
    rw [filenameText, mark, nameShape, filenameLast, List.map_cons, List.map_singleton, nameParam,
      filenameParam]
    rfl

theorem takeParam_of_parts {param key value : List Char}
    (parts : partition '=' param = (key, value)) (found : Option (List Char) × Option (List Char)) :
    takeParam found param =
      if lower (Text.strip key) = "name".toList then (some (unquote (Text.strip value)), found.2)
      else if lower (Text.strip key) = "filename".toList then
        (found.1, some (unquote (Text.strip value)))
      else found := by
  unfold takeParam
  rw [parts]

theorem disposition_of_parts {headers : List (List Char × List Char)} {value kind rest : List Char}
    (found : headers.lookup "content-disposition".toList = some value)
    (parts : partition ';' value = (kind, rest))
    (isForm : lower (Text.strip kind) = "form-data".toList) {name : List Char}
    {filename : Option (List Char)} (nonempty : name ≠ [])
    (taken : (splitParams rest).foldl takeParam (none, none) = (some name, filename)) :
    disposition headers = .ok (name, filename) := by
  unfold disposition
  rw [found, Option.getD_some, parts]
  refine (if_neg (not_not.mpr isForm)).trans ?_
  rw [taken]
  cases name with
  | nil => exact absurd rfl nonempty
  | cons first rest => rfl

theorem disposition_of_value (headers : List (List Char × List Char)) (some_ : name ≠ [])
    (nameFree : (34 : Byte) ∉ name) (filenameFree : ∀ bytes ∈ filename, (34 : Byte) ∉ bytes)
    (value : headers.lookup "content-disposition".toList = some (dispositionValue name filename)) :
    disposition headers = .ok (latin1 name, filename.map latin1) := by
  have nameQuote := quote_not_mem_latin1 nameFree
  have filenameQuote : ∀ bytes ∈ filename, '"' ∉ latin1 bytes :=
    fun bytes inside => quote_not_mem_latin1 (filenameFree bytes inside)
  have parts : partition ';' (dispositionValue name filename) = _ :=
    partition_append (by decide) _
  have nameParts (value : List Char) :
      partition '=' ("name".toList ++ '=' :: value) = ("name".toList, value) :=
    partition_append (by decide) value
  have filenameParts (value : List Char) :
      partition '=' ("filename".toList ++ '=' :: value) = ("filename".toList, value) :=
    partition_append (by decide) value
  have takeName (found : Option (List Char) × Option (List Char)) :
      takeParam found ("name".toList ++ '=' :: '"' :: (latin1 name ++ ['"'])) =
        (some (latin1 name), found.2) := by
    rw [takeParam_of_parts (nameParts _), unquote_strip nameQuote]
    exact if_pos (by decide)
  have takeFilename (found : Option (List Char) × Option (List Char)) (bytes : List Byte)
      (inside : bytes ∈ filename) :
      takeParam found ("filename".toList ++ '=' :: '"' :: (latin1 bytes ++ ['"'])) =
        (found.1, some (latin1 bytes)) := by
    rw [takeParam_of_parts (filenameParts _), unquote_strip (filenameQuote bytes inside),
      if_neg (by decide)]
    exact if_pos (by decide)
  have params := splitParams_line nameQuote filenameQuote
  have nonempty : latin1 name ≠ [] := fun same => some_ (List.map_eq_nil_iff.mp same)
  apply disposition_of_parts value parts (by decide) nonempty
  rw [params, List.foldl_cons, takeName]
  cases filename with
  | none => rfl
  | some filename =>
    rw [Option.map_some, Option.toList_some, List.foldl_cons, takeFilename _ filename rfl]
    rfl

theorem disposition_headersOf {before after : List (List Byte)} (some_ : name ≠ [])
    (nameFree : (34 : Byte) ∉ name) (filenameFree : ∀ bytes ∈ filename, (34 : Byte) ∉ bytes)
    (whole : ∀ line ∈ before ++ dispositionLine name filename :: after, ¬lineBreak <:+: line)
    (others : ∀ line ∈ after, lower (Text.strip (partition ':' (latin1 line)).1) ≠
      "content-disposition".toList) :
    disposition (headersOf (joinLines (before ++ dispositionLine name filename :: after))) =
      .ok (latin1 name, filename.map latin1) := by
  apply disposition_of_value _ some_ nameFree filenameFree
  unfold headersOf
  rw [splitLines_joinLines (by simp) whole (length_le_joinLines _), List.map_append, List.map_cons,
    List.reverse_append, List.reverse_cons, List.append_assoc, List.lookup_append]
  have notAfter : List.lookup "content-disposition".toList (after.map fun line =>
        (lower (Text.strip (partition ':' (latin1 line)).1),
          Text.strip (partition ':' (latin1 line)).2)).reverse = none := by
    rw [List.lookup_eq_none_iff]
    intro pair inside
    rcases List.mem_map.mp (List.mem_reverse.mp inside) with ⟨line, member, rfl⟩
    simpa using (others line member).symm
  have parts : partition ':' (latin1 (dispositionLine name filename)) =
      ("Content-Disposition".toList, ' ' :: dispositionValue name filename) := by
    rw [latin1_dispositionLine]
    exact partition_append (by decide) _
  rw [notAfter, Option.none_or, List.singleton_append, List.lookup_cons, parts]
  simp only
  rw [strip_dispositionValue]
  have key : lower (Text.strip "Content-Disposition".toList) = "content-disposition".toList := by
    decide
  rw [key, beq_self_eq_true]

end Disposition

end HybridInference.Batch.Multipart
