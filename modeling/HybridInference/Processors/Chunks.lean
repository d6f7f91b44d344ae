import HybridInference.Library.Dict
import HybridInference.Library.Numerals
import HybridInference.Library.TagScanner

/-!
# Stream chunks and held-back tags

The chunks that the processors of `serving.adapters.processors` rewrite, and what they share: a
chunk of which only the finish reason and the usage are left, and the tail of a text that is
held back because it may be the start of a tag.
-/

namespace HybridInference.Processors

open Library
open Library.Tags

abbrev Delta := Dict String Value

structure Choice where
  delta : Delta
  finishReason : Value

structure Chunk where
  choices : List Choice
  usage : Value
  model : Option String

def Delta.get (delta : Delta) (field : String) : Value := (delta.find field).getD .null

theorem get_insert (delta : Delta) (field other : String) (value : Value) :
    Delta.get (AList.insert field value delta) other =
      if other = field then value else delta.get other := by
  unfold Delta.get
  rw [Dict.find_insert]
  split_ifs <;> rfl

def textDelta (field text : String) : Delta := (∅ : Delta).insert field (.str text)

theorem get_textDelta (field text other : String) :
    (textDelta field text).get other = if other = field then .str text else .null := by
  unfold textDelta Delta.get
  rw [Dict.find_insert]
  split_ifs <;> rfl

def Delta.text (delta : Delta) (field : String) : Option String :=
  match delta.get field with
  | .str text => some text
  | _ => none

def hasStreamSignals (chunk : Chunk) : Bool :=
  !chunk.usage.isNull || chunk.choices.any fun choice => choice.finishReason.isTruthy

def signalOnlyChunk (chunk : Chunk) : Chunk :=
  { chunk with choices := chunk.choices.map fun choice => { choice with delta := ∅ } }

def signalsOf (chunk : Chunk) : List Chunk :=
  if hasStreamSignals chunk then [signalOnlyChunk chunk] else []

def withFirst (chunk : Chunk) (change : Choice → Choice) : Chunk :=
  { chunk with choices := chunk.choices.modifyHead change }

def withContent (chunk : Chunk) (text : List Char) : Chunk :=
  withFirst chunk fun choice =>
    { choice with delta := choice.delta.insert "content" (.str (String.ofList text)) }

def standaloneChunk (model : String) (field text : String) : Chunk where
  choices := [⟨textDelta field text, .null⟩]
  usage := .null
  model := some model

def longestTail (tag text : List Char) (best : ℕ) : ℕ → ℕ
  | 0 => best
  | length + 1 =>
    if length + 1 ≤ best then best
    else if (text.drop (text.length - (length + 1))).isPrefixOf tag then length + 1
    else longestTail tag text best length

def pendingTagLen (text : List Char) (tags : List Tag) : ℕ :=
  tags.foldl (fun best tag =>
    longestTail tag.text text best (min text.length (tag.text.length - 1))) 0

def safeIndex (window : ℕ) (text : List Char) : ℕ :=
  match rfind '<' text with
  | some i => if text.length < i + window then i else text.length
  | none => text.length

structure TextChunk where
  text : String
  finishReason : Value
  usage : Value
  model : Option String

def TextChunk.toChunk (chunk : TextChunk) : Chunk where
  choices := [⟨textDelta "content" chunk.text, chunk.finishReason⟩]
  usage := chunk.usage
  model := chunk.model

def Chunk.letters (chunk : Chunk) : List Letter :=
  match chunk.choices with
  | [] => []
  | choice :: _ =>
    lettersAt .inside ((choice.delta.text "reasoning_content").getD "").toList ++
      lettersAt .outside ((choice.delta.text "content").getD "").toList

theorem letters_withContent (chunk : TextChunk) (text : List Char) :
    (withContent chunk.toChunk text).letters = lettersAt .outside text := by
  have delta : (withContent chunk.toChunk text).letters =
      lettersAt .inside ((Delta.text (AList.insert "content" (.str (String.ofList text))
        (textDelta "content" chunk.text)) "reasoning_content").getD "").toList ++
      lettersAt .outside ((Delta.text (AList.insert "content" (.str (String.ofList text))
        (textDelta "content" chunk.text)) "content").getD "").toList := rfl
  rw [delta, Delta.text, Delta.text, get_insert, get_insert, get_textDelta, if_neg (by decide),
    if_neg (by decide), if_pos rfl]
  simp [lettersAt]

theorem letters_toChunk (chunk : TextChunk) :
    chunk.toChunk.letters = lettersAt .outside chunk.text.toList := by
  simp [TextChunk.toChunk, Chunk.letters, Delta.text, get_textDelta, lettersAt]

section Pending

variable {tag text : List Char} {best limit : ℕ}

theorem le_longestTail : best ≤ longestTail tag text best limit := by
  induction limit with
  | zero => exact le_rfl
  | succ length ih =>
    rw [longestTail]
    split_ifs with short starts
    · exact le_rfl
    · omega
    · exact ih

theorem longestTail_eq_or : longestTail tag text best limit = best ∨
      longestTail tag text best limit ≤ limit ∧
        text.drop (text.length - longestTail tag text best limit) <+: tag := by
  induction limit with
  | zero => exact Or.inl rfl
  | succ length ih =>
    rw [longestTail]
    split_ifs with short starts
    · exact Or.inl rfl
    · exact Or.inr ⟨le_rfl, List.isPrefixOf_iff_prefix.mp starts⟩
    · rcases ih with same | ⟨bounded, isStart⟩
      · exact Or.inl same
      · exact Or.inr ⟨by omega, isStart⟩

theorem not_prefix_of_longestTail_lt {length : ℕ}
    (longer : longestTail tag text best limit < length)
    (bounded : length ≤ limit) : ¬text.drop (text.length - length) <+: tag := by
  induction limit with
  | zero =>
    omega
  | succ most ih =>
    rw [longestTail] at longer
    split_ifs at longer with short starts
    · omega
    · omega
    · rcases Nat.lt_or_ge most length with isMost | less
      · obtain rfl : length = most + 1 := by omega
        rw [← List.isPrefixOf_iff_prefix]
        exact starts
      · exact ih longer less

end Pending

section Held

variable {text : List Char}

/-- What `_pending_tag_len` finds, from the best tail of the tags before. -/
theorem foldl_longestTail (tags : List Tag) (best : ℕ) :
    let hold := tags.foldl (fun best tag =>
      longestTail tag.text text best (min text.length (tag.text.length - 1))) best
    best ≤ hold ∧ (hold = best ∨ hold ≤ text.length ∧
        ∃ tag ∈ tags, text.drop (text.length - hold) <+: tag.text ∧ hold < tag.text.length) ∧
      ∀ length, hold < length → length ≤ text.length → ∀ tag ∈ tags, length < tag.text.length →
        ¬text.drop (text.length - length) <+: tag.text := by
  induction tags generalizing best with
  | nil => exact ⟨le_rfl, Or.inl rfl, by simp⟩
  | cons tag rest ih =>
    rw [List.foldl_cons]
    generalize first_eq : longestTail tag.text text best
      (min text.length (tag.text.length - 1)) = first
    have above : best ≤ first := first_eq ▸ le_longestTail
    rcases ih first with ⟨later, which, longest⟩
    refine ⟨above.trans later, ?_, ?_⟩
    · rcases which with same | ⟨bounded, other, known, isStart, shorter⟩
      · rw [same, ← first_eq]
        rcases @longestTail_eq_or tag.text text best (min text.length (tag.text.length - 1)) with
          kept | ⟨bounded, isStart⟩
        · exact Or.inl kept
        · by_cases kept : longestTail tag.text text best
              (min text.length (tag.text.length - 1)) = best
          · exact Or.inl kept
          · right
            refine ⟨by omega, tag, by simp, isStart, by omega⟩
      · exact Or.inr ⟨bounded, other, List.mem_cons_of_mem _ known, isStart, shorter⟩
    · intro length longer bounded other known shorter
      rcases List.mem_cons.mp known with rfl | inRest
      · apply @not_prefix_of_longestTail_lt other.text text best
          (min text.length (other.text.length - 1))
        · omega
        · omega
      · exact longest length longer bounded other inRest shorter

def held (text : List Char) (tags : List Tag) : List Char :=
  text.drop (text.length - pendingTagLen text tags)

def shown (text : List Char) (tags : List Tag) : List Char :=
  text.take (text.length - pendingTagLen text tags)

section

variable (text : List Char) (tags : List Tag)

theorem shown_append_held : shown text tags ++ held text tags = text :=
  List.take_append_drop _ _

theorem pendingTagLen_le : pendingTagLen text tags ≤ text.length := by
  rcases (@foldl_longestTail text tags 0).2.1 with none | ⟨bounded, -⟩
  · exact none.trans_le (Nat.zero_le _)
  · exact bounded

theorem held_eq_nil_or : held text tags = [] ∨
      ∃ tag ∈ tags, held text tags <+: tag.text ∧ held text tags ≠ tag.text := by
  rcases (@foldl_longestTail text tags 0).2.1 with none | ⟨bounded, tag, known, isStart, shorter⟩
  · left
    have zero : pendingTagLen text tags = 0 := none
    rw [held, zero, Nat.sub_zero, List.drop_length]
  · right
    refine ⟨tag, known, isStart, fun whole => ?_⟩
    have length := congrArg List.length whole
    rw [held, List.length_drop] at length
    change pendingTagLen text tags < _ at shorter
    omega

theorem noPartial_held : NoPartial tags (shown text tags) (held text tags) := by
  intro skipped tail split nonempty tag known inFront
  by_contra differ
  have positive := List.length_pos_iff.mpr nonempty
  have shorter : (tail ++ held text tags).length < tag.text.length :=
    lt_of_le_of_ne inFront.length_le fun same => differ (inFront.eq_of_length same)
  have whole : text = skipped ++ (tail ++ held text tags) := by
    rw [← List.append_assoc, ← split, shown_append_held]
  have tailLength : pendingTagLen text tags < (tail ++ held text tags).length := by
    have bound := pendingTagLen_le text tags
    rw [List.length_append, held, List.length_drop]
    omega
  have bounded : (tail ++ held text tags).length ≤ text.length := by
    have lengths := congrArg List.length whole
    rw [List.length_append] at lengths
    omega
  have isTail : text.drop (text.length - (tail ++ held text tags).length) =
      tail ++ held text tags := by
    have lengths := congrArg List.length whole
    rw [List.length_append] at lengths
    have start : text.length - (tail ++ held text tags).length = skipped.length := by omega
    rw [start]
    nth_rewrite 1 [whole]
    exact List.drop_left
  apply (@foldl_longestTail text tags 0).2.2 _ tailLength bounded tag known shorter
  rw [isTail]
  exact inFront

end

end Held

section Window

variable {window : ℕ} {text : List Char} {tag : Tag}

theorem noneStarts_safeIndex (fits : tag.text.length ≤ window) (free : ¬tag.text <:+: text)
    (rest : List Char) :
    NoneStarts [tag] (text.take (safeIndex window text))
      (text.drop (safeIndex window text) ++ rest) := by
  intro skipped tail split nonempty other known inFront
  obtain rfl := List.mem_singleton.mp known
  have whole : text = skipped ++ (tail ++ text.drop (safeIndex window text)) := by
    rw [← List.append_assoc, ← split, List.take_append_drop]
  have notPrefix : ¬other.text <+: tail ++ text.drop (safeIndex window text) := by
    intro short
    rw [whole] at free
    exact free (short.isInfix.trans (List.suffix_append _ _).isInfix)
  rw [← List.append_assoc] at inFront
  rcases Tag.prefix_append_iff_of_not notPrefix inFront with ⟨isStart, differ⟩
  have shorter : (tail ++ text.drop (safeIndex window text)).length < other.text.length :=
    lt_of_le_of_ne isStart.length_le fun same => differ (isStart.eq_of_length same)
  cases tail with
  | nil => exact nonempty rfl
  | cons c more =>
    rcases List.cons_prefix_cons.mp isStart with ⟨rfl, inRest⟩
    have plain : '<' ∉ more ++ text.drop (safeIndex window text) :=
      fun inside => other.plain (inRest.subset inside)
    cases last : rfind '<' text with
    | none =>
      apply rfind_eq_none last
      rw [whole]
      simp
    | some i =>
      rcases rfind_eq_some last with ⟨atLast, noneLater⟩
      have later : skipped.length ≤ i := by
        by_contra before
        apply noneLater
        have split : text.drop (i + 1) =
            skipped.drop (i + 1) ++ ('<' :: more ++ text.drop (safeIndex window text)) := by
          nth_rewrite 1 [whole]
          rw [List.drop_append_of_le_length (by omega)]
        rw [split]
        simp
      have lengths := congrArg List.length whole
      simp only [List.length_append, List.length_cons] at lengths shorter
      by_cases near : text.length < i + window
      · have safe : safeIndex window text = i := by
          rw [safeIndex, last]
          exact if_pos near
        apply plain
        rw [safe, drop_rfind last]
        simp
      · omega

/-- The safe index stands before an open bracket or at the end of plain text. -/
theorem safeIndex_cases (window : ℕ) (text : List Char) :
    (∃ more, text.drop (safeIndex window text) = '<' :: more) ∨
      safeIndex window text = text.length ∧ ∃ far near, text = far ++ near ∧ '<' ∉ near ∧
        (window ≤ near.length + 1 ∨ far = []) := by
  unfold safeIndex
  cases last : rfind '<' text with
  | none =>
    right
    exact ⟨rfl, [], text, rfl, rfind_eq_none last, Or.inr rfl⟩
  | some i =>
    dsimp only
    split_ifs with near
    · left
      exact ⟨_, drop_rfind last⟩
    · right
      refine ⟨rfl, text.take (i + 1), text.drop (i + 1), (List.take_append_drop _ _).symm,
        (rfind_eq_some last).2, Or.inl ?_⟩
      rw [List.length_drop]
      omega

theorem safeIndex_of_bracket (wide : 1 < window) (before : List Char) :
    safeIndex window (before ++ ['<']) = before.length := by
  have last : rfind '<' (before ++ ['<']) = some before.length := by
    rw [rfind_append]
    rfl
  rw [safeIndex, last]
  dsimp only
  rw [if_pos]
  rw [List.length_append, List.length_singleton]
  omega

theorem dropWhile_drop_safeIndex (window : ℕ) (text : List Char) :
    (text.drop (safeIndex window text)).dropWhile Text.isSpace =
      text.drop (safeIndex window text) := by
  rcases safeIndex_cases window text with ⟨more, held⟩ | ⟨whole, -⟩
  · rw [held]
    exact List.dropWhile_cons_of_neg (by decide)
  · rw [whole, List.drop_length]
    rfl

theorem safeIndex_eq_length_iff (window : ℕ) (text : List Char) :
    safeIndex (window + 1) text = text.length ↔ '<' ∉ text.drop (text.length - window) := by
  unfold safeIndex
  cases last : rfind '<' text with
  | none =>
    have missing := rfind_eq_none last
    exact ⟨fun _ inside => missing (List.mem_of_mem_drop inside), fun _ => rfl⟩
  | some i =>
    rcases rfind_eq_some last with ⟨split, free⟩
    have lengths := congrArg List.length split
    simp only [List.length_append, List.length_take, List.length_cons, List.length_drop] at lengths
    dsimp only
    split_ifs with near
    · constructor
      · intro same
        omega
      · intro missing
        have inside : '<' ∈ text.drop i := by
          rw [drop_rfind last]
          exact List.mem_cons_self
        have later : text.drop i <:+ text.drop (text.length - window) := by
          have shift : i = text.length - window + (i - (text.length - window)) := by omega
          rw [shift, ← List.drop_drop]
          exact List.drop_suffix _ _
        exact absurd (later.subset inside) missing
    · constructor
      · intro _ inside
        have shift : text.length - window = i + 1 + (text.length - window - (i + 1)) := by omega
        rw [shift, ← List.drop_drop] at inside
        exact free (List.mem_of_mem_drop inside)
      · exact fun _ => rfl

theorem safeIndex_append (window : ℕ) (text more : List Char) : safeIndex window (text ++ more) =
      safeIndex window text + safeIndex window (text.drop (safeIndex window text) ++ more) := by
  have joined := rfind_append '<' text more
  cases last : rfind '<' text with
  | none =>
    have safe : safeIndex window text = text.length := by rw [safeIndex, last]
    rw [safe, List.drop_length, List.nil_append, safeIndex, safeIndex, joined, last,
      List.length_append]
    cases rfind '<' more with
    | none => rfl
    | some j =>
      dsimp only [Option.map_some, Option.some_or]
      split_ifs <;> omega
  | some i =>
    have lengths := congrArg List.length (rfind_eq_some last).1
    simp only [List.length_append, List.length_take, List.length_cons, List.length_drop] at lengths
    by_cases near : text.length < i + window
    · have safe : safeIndex window text = i := by
        rw [safeIndex, last]
        exact if_pos near
      have lastHeld : rfind '<' (text.drop i) = some 0 := by
        rw [drop_rfind last, rfind, rfind_of_not_mem (rfind_eq_some last).2]
        rfl
      rw [safe, safeIndex, safeIndex, joined, last, rfind_append, lastHeld, List.length_append,
        List.length_append, List.length_drop]
      cases rfind '<' more with
      | none =>
        dsimp only [Option.map_none, Option.none_or]
        split_ifs <;> omega
      | some j =>
        dsimp only [Option.map_some, Option.some_or]
        split_ifs <;> omega
    · have safe : safeIndex window text = text.length := by
        rw [safeIndex, last]
        exact if_neg near
      rw [safe, List.drop_length, List.nil_append, safeIndex, safeIndex, joined, last,
        List.length_append]
      cases rfind '<' more with
      | none =>
        dsimp only [Option.map_none, Option.none_or]
        split_ifs <;> omega
      | some j =>
        dsimp only [Option.map_some, Option.some_or]
        split_ifs <;> omega

theorem safeIndex_le (window : ℕ) (text : List Char) : safeIndex window text ≤ text.length := by
  rcases safeIndex_cases window text with ⟨more, held⟩ | ⟨whole, -⟩
  · have lengths := congrArg List.length held
    rw [List.length_drop, List.length_cons] at lengths
    omega
  · exact whole.le

theorem take_safeIndex_append (window : ℕ) (text more : List Char) :
    (text ++ more).take (safeIndex window (text ++ more)) =
      text.take (safeIndex window text) ++ (text.drop (safeIndex window text) ++ more).take
        (safeIndex window (text.drop (safeIndex window text) ++ more)) := by
  have split : text ++ more =
      text.take (safeIndex window text) ++ (text.drop (safeIndex window text) ++ more) := by
    rw [← List.append_assoc, List.take_append_drop]
  nth_rewrite 2 [split]
  rw [safeIndex_append, List.take_append, List.length_take, min_eq_left (safeIndex_le window text),
    Nat.add_sub_cancel_left, List.take_of_length_le]
  rw [List.length_take]
  omega

theorem drop_safeIndex_append (window : ℕ) (text more : List Char) :
    (text ++ more).drop (safeIndex window (text ++ more)) =
      (text.drop (safeIndex window text) ++ more).drop
        (safeIndex window (text.drop (safeIndex window text) ++ more)) := by
  have split : text ++ more =
      text.take (safeIndex window text) ++ (text.drop (safeIndex window text) ++ more) := by
    rw [← List.append_assoc, List.take_append_drop]
  nth_rewrite 2 [split]
  rw [safeIndex_append, List.drop_append, List.length_take, min_eq_left (safeIndex_le window text),
    Nat.add_sub_cancel_left, List.drop_eq_nil_of_le, List.nil_append]
  rw [List.length_take]
  omega

end Window

end HybridInference.Processors
