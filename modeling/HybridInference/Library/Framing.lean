import Mathlib.Data.List.Basic

/-!
# Frames of a byte stream

A reader keeps the bytes that do not yet make a frame in a buffer; a frame ends
at two line feeds. The frames that come out, and the bytes that are left, do not
depend on how the stream is cut into pieces.
-/

namespace HybridInference.Library.Framing

abbrev Byte := UInt8

def lineFeed : Byte := 10

def cutFrame : List Byte → Option (List Byte × List Byte)
  | first :: second :: rest =>
    if first = lineFeed ∧ second = lineFeed then some ([], rest)
    else (cutFrame (second :: rest)).map fun cut => (first :: cut.1, cut.2)
  | _ => none

def cutFrames : ℕ → List Byte → List (List Byte) × List Byte
  | 0, buffer => ([], buffer)
  | rounds + 1, buffer =>
    match cutFrame buffer with
    | none => ([], buffer)
    | some (frame, rest) =>
      let later := cutFrames rounds rest
      (frame :: later.1, later.2)

def frames (buffer : List Byte) : List (List Byte) × List Byte :=
  cutFrames buffer.length buffer

variable {buffer frame rest : List Byte}

theorem cutFrame_length
    (cut : cutFrame buffer = some (frame, rest)) : rest.length + 2 ≤ buffer.length := by
  induction buffer generalizing frame with
  | nil => simp [cutFrame] at cut
  | cons first tail ih =>
    cases tail with
    | nil => simp [cutFrame] at cut
    | cons second later =>
      simp only [cutFrame] at cut
      split_ifs at cut with ends
      · rcases cut with ⟨-, rfl⟩
        simp
      · rcases Option.map_eq_some_iff.mp cut with ⟨⟨inner, innerRest⟩, innerCut, same⟩
        rcases same with ⟨-, rfl⟩
        have shorter := ih innerCut
        simp only [List.length_cons] at shorter ⊢
        omega

theorem cutFrame_append (cut : cutFrame buffer = some (frame, rest)) (more : List Byte) :
    cutFrame (buffer ++ more) = some (frame, rest ++ more) := by
  induction buffer generalizing frame with
  | nil => simp [cutFrame] at cut
  | cons first tail ih =>
    cases tail with
    | nil => simp [cutFrame] at cut
    | cons second later =>
      simp only [cutFrame, List.cons_append] at cut ⊢
      split_ifs at cut ⊢ with ends
      · rcases cut with ⟨rfl, rfl⟩
        rfl
      · rcases Option.map_eq_some_iff.mp cut with ⟨⟨inner, innerRest⟩, innerCut, same⟩
        rcases same with ⟨rfl, rfl⟩
        have longer := ih innerCut
        rw [List.cons_append] at longer
        rw [longer]
        rfl

theorem cutFrames_congr {rounds others : ℕ}
    (enough : buffer.length ≤ rounds) (othersEnough : buffer.length ≤ others) :
    cutFrames rounds buffer = cutFrames others buffer := by
  induction rounds generalizing others buffer with
  | zero =>
    have empty : buffer = [] := List.eq_nil_of_length_eq_zero (by omega)
    subst empty
    cases others with
    | zero => rfl
    | succ others => simp [cutFrames, cutFrame]
  | succ rounds ih =>
    cases others with
    | zero =>
      have empty : buffer = [] := List.eq_nil_of_length_eq_zero (by omega)
      subst empty
      simp [cutFrames, cutFrame]
    | succ others =>
      simp only [cutFrames]
      cases cut : cutFrame buffer with
      | none => rfl
      | some cutOff =>
        have shorter := cutFrame_length cut
        have same := @ih cutOff.2 others (by omega) (by omega)
        simp only [same]

theorem frames_of_none (incomplete : cutFrame buffer = none) : frames buffer = ([], buffer) := by
  unfold frames
  cases buffer with
  | nil => rfl
  | cons first tail => simp [cutFrames, incomplete]

theorem frames_of_some (cut : cutFrame buffer = some (frame, rest)) :
    frames buffer = (frame :: (frames rest).1, (frames rest).2) := by
  have shorter := cutFrame_length cut
  unfold frames
  cases buffer with
  | nil => simp [cutFrame] at cut
  | cons first tail =>
    simp only [List.length_cons] at shorter ⊢
    have same : cutFrames tail.length rest = cutFrames rest.length rest :=
      cutFrames_congr (by omega) (Nat.le_refl _)
    simp only [cutFrames, cut, same]

theorem frames_append (buffer more : List Byte) : frames (buffer ++ more) =
      ((frames buffer).1 ++ (frames ((frames buffer).2 ++ more)).1,
        (frames ((frames buffer).2 ++ more)).2) := by
  induction length_eq : buffer.length using Nat.strongRecOn generalizing buffer with
  | ind length ih =>
    cases cut : cutFrame buffer with
    | none => simp [frames_of_none cut]
    | some cutOff =>
      have shorter := cutFrame_length cut
      have later := ih cutOff.2.length (by omega) cutOff.2 rfl
      rw [frames_of_some cut, frames_of_some (cutFrame_append cut more), later]
      rfl

theorem frames_rest (buffer : List Byte) : frames (frames buffer).2 = ([], (frames buffer).2) := by
  have again := frames_append buffer []
  rw [List.append_nil, List.append_nil] at again
  have first := congrArg Prod.fst again
  have second := congrArg Prod.snd again
  exact Prod.ext (List.append_cancel_left (first.symm.trans (List.append_nil _).symm)) second.symm

theorem cutFrame_of_body {body rest : List Byte} (oneLine : lineFeed ∉ body) :
    cutFrame (body ++ lineFeed :: lineFeed :: rest) = some (body, rest) := by
  induction body with
  | nil => simp [cutFrame]
  | cons first tail ih =>
    have notFirst : first ≠ lineFeed := fun same => oneLine (by simp [same])
    have inner := ih fun inTail => oneLine (List.mem_cons_of_mem _ inTail)
    cases tail with
    | nil => simp_all [cutFrame]
    | cons second later =>
      simp only [List.cons_append] at inner ⊢
      simp only [cutFrame, notFirst, false_and, if_false, inner, Option.map_some]

theorem frames_of_bodies {bodies : List (List Byte)} (oneLine : ∀ body ∈ bodies, lineFeed ∉ body) :
    frames (bodies.flatMap fun body => body ++ [lineFeed, lineFeed]) = (bodies, []) := by
  induction bodies with
  | nil => rfl
  | cons body rest ih =>
    have here := oneLine body List.mem_cons_self
    have later := ih fun other otherMem => oneLine other (List.mem_cons_of_mem _ otherMem)
    have shape : ((body :: rest).flatMap fun body => body ++ [lineFeed, lineFeed]) =
        body ++ lineFeed :: lineFeed ::
          rest.flatMap fun body => body ++ [lineFeed, lineFeed] := by simp
    rw [shape, frames_of_some (cutFrame_of_body here), later]

end HybridInference.Library.Framing
