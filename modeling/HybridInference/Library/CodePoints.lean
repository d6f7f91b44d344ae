import Mathlib.Data.List.Basic

/-!
# Python strings and their UTF-8 bytes

A Python string is a list of code points, surrogates among them. Encoding with `errors="ignore"`
leaves the surrogates out and is injective on the strings without them.
-/

namespace HybridInference.Library

abbrev CodePoint := Fin 0x110000

abbrev PyText := List CodePoint

namespace CodePoint

def isSurrogate (c : CodePoint) : Bool := 0xd800 ≤ c.val ∧ c.val ≤ 0xdfff

def char? (c : CodePoint) : Option Char :=
  if valid : c.val.isValidChar then some (Char.ofNatAux c.val valid) else none

theorem char?_eq_none_iff {c : CodePoint} : c.char? = none ↔ c.isSurrogate = true := by
  have valid_iff : c.val.isValidChar ↔ ¬(0xd800 ≤ c.val ∧ c.val ≤ 0xdfff) := by
    omega
  unfold isSurrogate
  rw [decide_eq_true_eq]
  by_cases valid : c.val.isValidChar
  · have some_ : c.char? = some _ := dif_pos valid
    rw [some_]
    exact ⟨fun none_ => absurd none_ (Option.some_ne_none _),
      fun inside => absurd inside (valid_iff.mp valid)⟩
  · have none_ : c.char? = none := dif_neg valid
    rw [none_]
    exact ⟨fun _ => not_not.mp fun away => valid (valid_iff.mpr away), fun _ => rfl⟩

theorem toNat_char? {c : CodePoint} {character : Char} (found : c.char? = some character) :
    character.toNat = c.val := by
  by_cases valid : c.val.isValidChar
  · rw [show c.char? = some _ from dif_pos valid, Option.some.injEq] at found
    exact found ▸ rfl
  · rw [show c.char? = none from dif_neg valid] at found
    cases found

theorem char?_injective {first second : CodePoint} {character : Char}
    (one : first.char? = some character) (another : second.char? = some character) :
    first = second :=
  Fin.ext ((toNat_char? one).symm.trans (toNat_char? another))

end CodePoint

namespace PyText

def Scalar (text : PyText) : Prop := ∀ c ∈ text, CodePoint.isSurrogate c = false

/-- `text.encode("utf-8", "ignore")`. -/
def encodeIgnoring (text : PyText) : ByteArray :=
  (String.ofList (text.filterMap CodePoint.char?)).toByteArray

theorem encodeIgnoring_append (first second : PyText) :
    encodeIgnoring (first ++ second) = encodeIgnoring first ++ encodeIgnoring second := by
  unfold encodeIgnoring
  rw [List.filterMap_append, String.ofList_append, String.toByteArray_append]

@[simp]
theorem encodeIgnoring_nil : encodeIgnoring [] = ByteArray.empty := rfl

theorem encodeIgnoring_surrogate {c : CodePoint} (surrogate : c.isSurrogate = true)
    (text : PyText) : encodeIgnoring (c :: text) = encodeIgnoring text := by
  unfold encodeIgnoring
  rw [List.filterMap_cons_none (CodePoint.char?_eq_none_iff.mpr surrogate)]

theorem filterMap_char?_injective {first second : PyText} (firstScalar : Scalar first)
    (secondScalar : Scalar second)
    (same : first.filterMap CodePoint.char? = second.filterMap CodePoint.char?) :
    first = second := by
  have some_ : ∀ {text : PyText}, Scalar text →
      ∀ c ∈ text, ∃ character, c.char? = some character := by
    intro text scalar c inside
    apply Option.ne_none_iff_exists'.mp
    rw [Ne, CodePoint.char?_eq_none_iff, scalar c inside]
    exact Bool.false_ne_true
  induction first generalizing second with
  | nil =>
    cases second with
    | nil => rfl
    | cons c rest =>
      rcases some_ secondScalar c List.mem_cons_self with ⟨character, there⟩
      rw [List.filterMap_nil, List.filterMap_cons_some there] at same
      exact absurd same.symm (List.cons_ne_nil _ _)
  | cons c rest ih =>
    rcases some_ firstScalar c List.mem_cons_self with ⟨character, there⟩
    rw [List.filterMap_cons_some there] at same
    cases second with
    | nil => exact absurd same (List.cons_ne_nil _ _)
    | cons other others =>
      rcases some_ secondScalar other List.mem_cons_self with ⟨otherCharacter, otherThere⟩
      rw [List.filterMap_cons_some otherThere, List.cons.injEq] at same
      rw [← same.1] at otherThere
      rw [CodePoint.char?_injective there otherThere,
        ih (fun c inside => firstScalar c (List.mem_cons_of_mem _ inside))
          (fun c inside => secondScalar c (List.mem_cons_of_mem _ inside)) same.2]

theorem encodeIgnoring_injective {first second : PyText} (firstScalar : Scalar first)
    (secondScalar : Scalar second) (same : encodeIgnoring first = encodeIgnoring second) :
    first = second :=
  filterMap_char?_injective firstScalar secondScalar
    (String.ofList_injective (String.toByteArray_inj.mp same))

end PyText

end HybridInference.Library
