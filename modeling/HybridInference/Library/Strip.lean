import HybridInference.Library.Json
import Mathlib.Data.List.DropRight

/-!
# Text up to the whitespace around it

`strip` takes whitespace off both ends. It keeps every other character, so texts that strip to
the same have the same solid characters.
-/

namespace HybridInference.Library.Text

/-- The characters that `strip` never takes off. -/
def solid (text : List Char) : List Char := text.filter fun c => !isSpace c

theorem solid_dropWhile (text : List Char) : solid (text.dropWhile isSpace) = solid text := by
  induction text with
  | nil => rfl
  | cons c rest ih =>
    by_cases space : isSpace c = true
    · rw [List.dropWhile_cons_of_pos space, ih]
      simp [solid, space]
    · rw [List.dropWhile_cons_of_neg space]

theorem solid_strip (text : List Char) : solid (strip text) = solid text := by
  have reversed : ∀ text : List Char, solid text.reverse = (solid text).reverse :=
    fun _ => List.filter_reverse
  rw [strip, reversed, solid_dropWhile, reversed, solid_dropWhile, List.reverse_reverse]

theorem solid_append (first second : List Char) :
    solid (first ++ second) = solid first ++ solid second :=
  List.filter_append _ _

theorem length_solid_le {first second : List Char} (fewer : first.Sublist second) :
    (solid first).length ≤ (solid second).length :=
  (fewer.filter _).length_le

theorem strip_strip (text : List Char) : strip (strip text) = strip text := by
  have isStart : strip text <+: text.dropWhile isSpace :=
    List.rdropWhile_prefix isSpace _
  have stays : (strip text).dropWhile isSpace = strip text := by
    cases stripped : strip text with
    | nil => rfl
    | cons c rest =>
      rw [stripped] at isStart
      rcases isStart with ⟨more, whole⟩
      have again := @List.dropWhile_idempotent _ isSpace text
      rw [← whole] at again
      have solidFirst : ¬isSpace c = true := by
        intro space
        rw [List.cons_append, List.dropWhile_cons_of_pos space] at again
        have shorter := List.length_dropWhile_le isSpace (rest ++ more)
        rw [again, List.length_cons] at shorter
        omega
      exact List.dropWhile_cons_of_neg solidFirst
  have ends : List.rdropWhile isSpace (strip text) = strip text :=
    List.rdropWhile_idempotent isSpace _
  rw [strip, stays]
  exact ends

theorem strip_sublist (text : List Char) : (strip text).Sublist text := by
  have inFront : strip text <+: text.dropWhile isSpace := List.rdropWhile_prefix isSpace _
  exact inFront.sublist.trans (List.dropWhile_sublist isSpace)

theorem length_strip_le (text : List Char) : (strip text).length ≤ text.length :=
  (strip_sublist text).length_le

theorem strip_eq_self {text : List Char} (starts : ∀ c rest, text = c :: rest → ¬isSpace c = true)
    (ends : ∀ front c, text = front ++ [c] → ¬isSpace c = true) : strip text = text := by
  have front : text.dropWhile isSpace = text := by
    cases text with
    | nil => rfl
    | cons c rest => exact List.dropWhile_cons_of_neg (starts c rest rfl)
  have whole : strip text = text.rdropWhile isSpace := by
    rw [strip, front]
    rfl
  rw [whole]
  rcases List.eq_nil_or_concat text with rfl | ⟨others, c, rfl⟩
  · rfl
  · rw [List.concat_eq_append] at ends ⊢
    exact List.rdropWhile_concat_neg isSpace others c (ends others c rfl)

variable {c : Char}

theorem strip_cons_of_space (space : isSpace c = true) (text : List Char) :
    strip (c :: text) = strip text := by
  simp [strip, space]

theorem strip_append_of_space (space : isSpace c = true) (text : List Char) :
    strip (text ++ [c]) = strip text := by
  induction text with
  | nil => simp [strip, space]
  | cons head rest ih =>
    by_cases headSpace : isSpace head = true
    · rw [List.cons_append, strip_cons_of_space headSpace, strip_cons_of_space headSpace, ih]
    · simp [strip, headSpace, space]

theorem rdropWhile_append_rdropWhile (first second : List Char) :
    (first ++ second.rdropWhile isSpace).rdropWhile isSpace =
      (first ++ second).rdropWhile isSpace := by
  have reversed : ∀ front back : List Char, (front.dropWhile isSpace ++ back).dropWhile isSpace =
        (front ++ back).dropWhile isSpace := by
    intro front back
    induction front with
    | nil => rfl
    | cons c rest ih =>
      by_cases space : isSpace c = true
      · rw [List.dropWhile_cons_of_pos space, List.cons_append,
          List.dropWhile_cons_of_pos space, ih]
      · rw [List.dropWhile_cons_of_neg space]
  unfold List.rdropWhile
  rw [List.reverse_append, List.reverse_reverse, reversed, List.reverse_append]

theorem strip_append_strip {second : List Char} (first : List Char)
    (starts : second.dropWhile isSpace = second) :
    strip (first ++ strip second) = strip (first ++ second) := by
  have stripped : strip second = second.rdropWhile isSpace := by
    rw [strip, starts]
    rfl
  induction first with
  | nil => exact strip_strip second
  | cons c rest ih =>
    by_cases space : isSpace c = true
    · rw [List.cons_append, List.cons_append, strip_cons_of_space space,
        strip_cons_of_space space, ih]
    · have unstripped : ∀ text : List Char,
          strip (c :: rest ++ text) = (c :: rest ++ text).rdropWhile isSpace := by
        intro text
        rw [strip, List.cons_append, List.dropWhile_cons_of_neg space]
        rfl
      rw [unstripped, unstripped, stripped, rdropWhile_append_rdropWhile]

theorem strip_dropWhile_append (first second : List Char) :
    strip (first.dropWhile isSpace ++ second) = strip (first ++ second) := by
  induction first with
  | nil => rfl
  | cons c rest ih =>
    by_cases space : isSpace c = true
    · rw [List.dropWhile_cons_of_pos space, ih, List.cons_append, strip_cons_of_space space]
    · rw [List.dropWhile_cons_of_neg space]

theorem rdropWhile_append_solid (solid : ¬isSpace c = true) (first rest : List Char) :
    (first ++ c :: rest).rdropWhile isSpace = first ++ (c :: rest).rdropWhile isSpace := by
  have some_ : ((rest.reverse ++ [c]).dropWhile isSpace).isEmpty = false := by
    rw [List.dropWhile_append]
    split_ifs with blank
    · rw [List.dropWhile_cons_of_neg solid]
      rfl
    · simp
  unfold List.rdropWhile
  rw [List.reverse_append, List.reverse_cons, List.dropWhile_append, some_,
    if_neg Bool.false_ne_true, List.reverse_append, List.reverse_reverse]

theorem strip_of_solid (solid : ¬isSpace c = true) (rest : List Char) :
    strip (c :: rest) = (c :: rest).rdropWhile isSpace := by
  rw [strip, List.dropWhile_cons_of_neg solid]
  rfl

theorem ends_dropWhile_iff {text : List Char} (some_ : text.dropWhile isSpace ≠ []) :
    (∀ front d, text = front ++ [d] → ¬isSpace d = true) ↔
      (text.dropWhile isSpace).rdropWhile isSpace = text.dropWhile isSpace := by
  have whole := @List.takeWhile_append_dropWhile _ isSpace text
  rcases List.eq_nil_or_concat (text.dropWhile isSpace) with nothing | ⟨others, e, split⟩
  · exact absurd nothing some_
  · rw [List.concat_eq_append] at split
    rw [split] at whole ⊢
    rw [← List.append_assoc] at whole
    constructor
    · intro ends
      exact List.rdropWhile_concat_neg isSpace others e (ends _ e whole.symm)
    · intro same front d isText space
      rw [isText] at whole
      obtain rfl : e = d := by simpa using (List.append_inj' whole rfl).2
      rw [List.rdropWhile_concat_pos isSpace others e space] at same
      have shorter := (List.rdropWhile_prefix isSpace others).length_le
      rw [same, List.length_append, List.length_singleton] at shorter
      omega

theorem strip_strip_append_iff (solid : ¬isSpace c = true) (first rest : List Char) :
    strip (strip first ++ c :: rest) = strip (first ++ c :: rest) ↔
      strip first = [] ∨ ∀ front d, first = front ++ [d] → ¬isSpace d = true := by
  have stripped : strip first = (first.dropWhile isSpace).rdropWhile isSpace := rfl
  rw [← strip_dropWhile_append first]
  cases unled : first.dropWhile isSpace with
  | nil =>
    rw [unled] at stripped
    rw [stripped]
    exact ⟨fun _ => Or.inl rfl, fun _ => rfl⟩
  | cons e others =>
    have starts : ¬isSpace e = true := by
      have headSolid := List.head?_dropWhile_not isSpace first
      rw [unled] at headSolid
      simpa using headSolid
    have ends := @ends_dropWhile_iff first (by rw [unled]; exact List.cons_ne_nil e others)
    rw [unled] at stripped ends
    have someStripped : strip first ≠ [] := by
      intro nothing
      rw [stripped, List.rdropWhile_eq_nil_iff] at nothing
      exact starts (nothing e List.mem_cons_self)
    rcases List.rdropWhile_prefix isSpace (e :: others) with ⟨trail, isWhole⟩
    rw [← stripped] at isWhole
    cases core_eq : strip first with
    | nil => exact absurd core_eq someStripped
    | cons d core =>
      rw [core_eq, List.cons_append, List.cons.injEq] at isWhole
      rw [core_eq] at stripped
      obtain rfl := isWhole.1
      rw [List.cons_append, List.cons_append, strip_of_solid starts, strip_of_solid starts,
        ← List.cons_append, ← List.cons_append, rdropWhile_append_solid solid,
        rdropWhile_append_solid solid, List.append_left_inj, ends, ← stripped]
      exact ⟨Or.inr, fun either => either.resolve_left (List.cons_ne_nil d core)⟩

end HybridInference.Library.Text
