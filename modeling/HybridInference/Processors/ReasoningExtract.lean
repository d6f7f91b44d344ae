import HybridInference.Processors.Chunks

/-!
# Lifting inline reasoning into the reasoning channel

`ReasoningExtractProcessor` of `serving.adapters.processors`, on a stream of chunks. Its buffer
holds the tail of the text that may become a tag; what a client has read so far, and what the
scanner still reads of the buffer and of the rest of the text, is the text scanned at once.
-/

namespace HybridInference.Processors

open Library
open Library.Tags

structure Extraction where
  buffer : List Char
  closing : Option Tag
  modelId : String

def Extraction.fresh : Extraction := ⟨[], none, "unknown"⟩

def earlier (buffer : List Char) (best : Option (ℕ × TagPair)) (pair : TagPair) :
    Option (ℕ × TagPair) :=
  match find pair.openTag.text buffer, best with
  | none, _ => best
  | some i, none => some (i, pair)
  | some i, some (bestIdx, bestPair) =>
    if i < bestIdx ||
        (i = bestIdx && bestPair.openTag.text.length < pair.openTag.text.length) then
      some (i, pair)
    else best

def findOpen (pairs : List TagPair) (buffer : List Char) : Option (ℕ × TagPair) :=
  pairs.foldl (earlier buffer) none

def piece (place : Place) (text : List Char) : List (Place × List Char) :=
  if text.isEmpty then [] else [(place, text)]

structure Drained where
  pieces : List (Place × List Char)
  closing : Option Tag
  buffer : List Char

def drain (pairs : List TagPair) : ℕ → Option Tag → List Char → Drained
  | 0, closing, buffer => ⟨[], closing, buffer⟩
  | rounds + 1, some closing, buffer =>
    match find closing.text buffer with
    | some i =>
      let later := drain pairs rounds none (buffer.drop (i + closing.text.length))
      { later with pieces := piece .inside (buffer.take i) ++ later.pieces }
    | none =>
      ⟨piece .inside (shown buffer [closing]), some closing, held buffer [closing]⟩
  | rounds + 1, none, buffer =>
    match findOpen pairs buffer with
    | some (i, pair) =>
      let later :=
        drain pairs rounds (some pair.closeTag) (buffer.drop (i + pair.openTag.text.length))
      { later with pieces := piece .outside (buffer.take i) ++ later.pieces }
    | none =>
      let tags := pairs.map TagPair.openTag
      ⟨piece .outside (shown buffer tags), none, held buffer tags⟩

/-- `_content_chunk` and `_reasoning_chunk`. -/
def textChunk (chunk : Chunk) (place : Place) (text : List Char) : Chunk :=
  { withFirst chunk fun choice =>
      { finishReason := .null
        delta :=
          match place with
          | .outside =>
            (choice.delta.eraseAll ["reasoning_content", "reasoning", "thinking"]).insert
              "content" (.str (String.ofList text))
          | .inside =>
            (choice.delta.erase "content").insert "reasoning_content" (.str (String.ofList text)) }
    with usage := .null }

def processStreamChunk (pairs : List TagPair) (state : Extraction) (chunk : Chunk) :
    Extraction × List Chunk :=
  match chunk.choices with
  | [] => (state, [chunk])
  | choice :: _ =>
    if (choice.delta.get "tool_calls").isTruthy then (state, [chunk])
    else if (choice.delta.get "reasoning_content").isTruthy ||
        (choice.delta.get "reasoning").isTruthy || (choice.delta.get "thinking").isTruthy then
      (state, [chunk])
    else
      match choice.delta.text "content" with
      | none => (state, signalsOf chunk)
      | some content =>
        let buffer := state.buffer ++ content.toList
        let drained := drain pairs (buffer.length + 1) state.closing buffer
        (⟨drained.buffer, drained.closing, chunk.model.getD state.modelId⟩,
          (drained.pieces.map fun piece => textChunk chunk piece.1 piece.2) ++ signalsOf chunk)

def flush (state : Extraction) : List Chunk :=
  if state.buffer.isEmpty then []
  else
    match state.closing with
    | some closing =>
      let text := shown state.buffer [closing]
      if text.isEmpty then []
      else [standaloneChunk state.modelId "reasoning_content" (String.ofList text)]
    | none => [standaloneChunk state.modelId "content" (String.ofList state.buffer)]

def run (pairs : List TagPair) (state : Extraction) : List Chunk → Extraction × List Chunk
  | [] => (state, [])
  | chunk :: rest =>
    let (after, first) := processStreamChunk pairs state chunk
    let (last, later) := run pairs after rest
    (last, first ++ later)

def outputOf (pairs : List TagPair) (before : List Chunk) (chunk : Chunk) : List Chunk :=
  (processStreamChunk pairs (run pairs .fresh before).1 chunk).2

def streamed (pairs : List TagPair) (chunks : List Chunk) : List Chunk :=
  (run pairs .fresh chunks).2 ++ flush (run pairs .fresh chunks).1

section Finding

variable {pairs : List TagPair} {buffer : List Char} {best : Option (ℕ × TagPair)}

theorem find_take {pattern text : List Char} {i j : ℕ} (nonempty : pattern ≠ [])
    (found : find pattern text = some j) (later : i ≤ j) : ¬pattern <:+: text.take i := by
  intro inside
  have longer : text.take i <+: text.take j := List.take_prefix_take_left later
  exact (find_eq_some nonempty found).2 (inside.trans longer.isInfix)

theorem earlier_eq_none {pair : TagPair} (none_ : earlier buffer best pair = none) :
    best = none ∧ find pair.openTag.text buffer = none := by
  unfold earlier at none_
  cases found : find pair.openTag.text buffer with
  | none =>
    rw [found] at none_
    exact ⟨none_, rfl⟩
  | some i =>
    rw [found] at none_
    cases best with
    | none => contradiction
    | some bestPair =>
      dsimp only at none_
      split_ifs at none_

theorem earlier_eq_some {pair chosen : TagPair} {i : ℕ}
    (some_ : earlier buffer best pair = some (i, chosen)) :
    (best = some (i, chosen) ∨ chosen = pair ∧ find pair.openTag.text buffer = some i) ∧
      (∀ j other, best = some (j, other) → i ≤ j) ∧
      ∀ j, find pair.openTag.text buffer = some j → i ≤ j := by
  unfold earlier at some_
  cases found : find pair.openTag.text buffer with
  | none =>
    rw [found] at some_
    dsimp only at some_
    refine ⟨Or.inl some_, ?_, by simp⟩
    intro j other isBest
    rw [some_, Option.some.injEq, Prod.mk.injEq] at isBest
    exact isBest.1.le
  | some j =>
    rw [found] at some_
    cases best with
    | none =>
      dsimp only at some_
      rcases some_ with ⟨rfl, rfl⟩
      exact ⟨Or.inr ⟨rfl, rfl⟩, by simp, by simp⟩
    | some bestPair =>
      dsimp only at some_
      split_ifs at some_ with before
      · rcases some_ with ⟨rfl, rfl⟩
        refine ⟨Or.inr ⟨rfl, rfl⟩, ?_, by simp⟩
        intro k other isBest
        rw [Option.some.injEq] at isBest
        rw [isBest] at before
        simp only [Bool.or_eq_true, Bool.and_eq_true, decide_eq_true_eq] at before
        omega
      · rw [Option.some.injEq] at some_
        rw [some_] at before
        simp only [Bool.or_eq_true, Bool.and_eq_true, decide_eq_true_eq] at before
        refine ⟨Or.inl (congrArg some some_), ?_, ?_⟩
        · intro k other isBest
          rw [some_, Option.some.injEq, Prod.mk.injEq] at isBest
          exact isBest.1.le
        · intro k isFound
          rw [Option.some.injEq] at isFound
          omega

theorem foldl_earlier (pairs : List TagPair) (best : Option (ℕ × TagPair)) :
    (pairs.foldl (earlier buffer) best = none →
      best = none ∧ ∀ pair ∈ pairs, find pair.openTag.text buffer = none) ∧
    ∀ i chosen, pairs.foldl (earlier buffer) best = some (i, chosen) →
      (best = some (i, chosen) ∨ chosen ∈ pairs ∧ find chosen.openTag.text buffer = some i) ∧
      (∀ j other, best = some (j, other) → i ≤ j) ∧
      ∀ other ∈ pairs, ∀ j, find other.openTag.text buffer = some j → i ≤ j := by
  induction pairs generalizing best with
  | nil =>
    refine ⟨fun none_ => ⟨none_, by simp⟩, fun i chosen some_ => ⟨Or.inl some_, ?_, by simp⟩⟩
    intro j other isBest
    rw [List.foldl_nil, isBest, Option.some.injEq, Prod.mk.injEq] at some_
    exact some_.1.ge
  | cons pair rest ih =>
    rcases ih (earlier buffer best pair) with ⟨ofNone, ofSome⟩
    constructor
    · intro none_
      rcases ofNone none_ with ⟨first, others⟩
      rcases earlier_eq_none first with ⟨noBest, notFound⟩
      refine ⟨noBest, fun other known => ?_⟩
      rcases List.mem_cons.mp known with rfl | inRest
      · exact notFound
      · exact others other inRest
    · intro i chosen some_
      rcases ofSome i chosen some_ with ⟨which, notAfter, earliest⟩
      have ofFirst : ∀ j other, earlier buffer best pair = some (j, other) →
          (∀ k known, best = some (k, known) → i ≤ k) ∧
            ∀ k, find pair.openTag.text buffer = some k → i ≤ k := by
        intro j other first
        rcases earlier_eq_some first with ⟨-, ofBest, ofPair⟩
        have le := notAfter j other first
        exact ⟨fun k known isBest => le.trans (ofBest k known isBest),
          fun k isFound => le.trans (ofPair k isFound)⟩
      have both : (∀ k known, best = some (k, known) → i ≤ k) ∧
          ∀ k, find pair.openTag.text buffer = some k → i ≤ k := by
        cases first : earlier buffer best pair with
        | none =>
          rcases earlier_eq_none first with ⟨noBest, notFound⟩
          simp [noBest, notFound]
        | some tag => exact ofFirst tag.1 tag.2 first
      refine ⟨?_, both.1, ?_⟩
      · rcases which with first | ⟨inRest, found⟩
        · rcases (earlier_eq_some first).1 with isBest | ⟨rfl, found⟩
          · exact Or.inl isBest
          · exact Or.inr ⟨by simp, found⟩
        · exact Or.inr ⟨List.mem_cons_of_mem _ inRest, found⟩
      · intro other known j isFound
        rcases List.mem_cons.mp known with rfl | inRest
        · exact both.2 j isFound
        · exact earliest other inRest j isFound

theorem findOpen_eq_none (none_ : findOpen pairs buffer = none) :
    Free (pairs.map TagPair.openTag) buffer := by
  intro tag known
  rcases List.mem_map.mp known with ⟨pair, isPair, rfl⟩
  rw [← find_eq_none_iff pair.openTag.text_ne_nil]
  exact ((foldl_earlier pairs none).1 none_).2 pair isPair

theorem findOpen_eq_some {i : ℕ} {pair : TagPair} (some_ : findOpen pairs buffer = some (i, pair)) :
    pair ∈ pairs ∧
      buffer = buffer.take i ++ (pair.openTag.text ++ buffer.drop (i + pair.openTag.text.length)) ∧
      Free (pairs.map TagPair.openTag) (buffer.take i) := by
  rcases (foldl_earlier pairs none).2 i pair some_ with ⟨which, -, earliest⟩
  rcases which with isNone | ⟨known, found⟩
  · contradiction
  · refine ⟨known, (find_eq_some pair.openTag.text_ne_nil found).1, ?_⟩
    intro tag isTag
    rcases List.mem_map.mp isTag with ⟨other, isPair, rfl⟩
    cases isFound : find other.openTag.text buffer with
    | none =>
      intro inside
      exact (find_eq_none_iff other.openTag.text_ne_nil).mp isFound
        (inside.trans (List.take_prefix i buffer).isInfix)
    | some j => exact find_take other.openTag.text_ne_nil isFound (earliest other isPair j isFound)

end Finding

section Draining

variable {pairs : List TagPair} {closing : Option Tag} {buffer : List Char} {rounds : ℕ}

theorem letters_append (first second : List (Place × List Char)) :
    letters (first ++ second) = letters first ++ letters second :=
  List.flatMap_append

theorem letters_piece (place : Place) (text : List Char) :
    letters (piece place text) = lettersAt place text := by
  cases text <;> simp [piece, letters, lettersAt]

theorem free_singleton_iff {tag : Tag} {text : List Char} :
    Free [tag] text ↔ ¬tag.text <:+: text := by
  simp [Free]

theorem letters_drain (pairs : List TagPair) (rounds : ℕ) (closing : Option Tag)
    (buffer rest : List Char) :
    letters (drain pairs rounds closing buffer).pieces ++
        scan pairs (drain pairs rounds closing buffer).closing 0
          ((drain pairs rounds closing buffer).buffer ++ rest) =
      scan pairs closing 0 (buffer ++ rest) := by
  induction rounds generalizing closing buffer with
  | zero => rfl
  | succ rounds ih =>
    cases closing with
    | some tag =>
      rw [drain]
      cases found : find tag.text buffer with
      | some i =>
        rcases find_eq_some tag.text_ne_nil found with ⟨split, free⟩
        dsimp only
        rw [letters_append, letters_piece, List.append_assoc, ih]
        nth_rewrite 3 [split]
        rw [List.append_assoc, List.append_assoc, scan_inside_tag (free_singleton_iff.mpr free)]
      | none =>
        have free : Free [tag] (shown buffer [tag] ++ held buffer [tag]) := by
          rw [shown_append_held, free_singleton_iff]
          exact (find_eq_none_iff tag.text_ne_nil).mp found
        dsimp only
        nth_rewrite 3 [← shown_append_held buffer [tag]]
        rw [letters_piece, List.append_assoc, scan_inside_held free (noPartial_held buffer [tag])]
    | none =>
      rw [drain]
      cases found : findOpen pairs buffer with
      | some first =>
        rcases first with ⟨i, pair⟩
        rcases findOpen_eq_some found with ⟨known, split, free⟩
        dsimp only
        rw [letters_append, letters_piece, List.append_assoc, ih]
        nth_rewrite 3 [split]
        rw [List.append_assoc, List.append_assoc, scan_outside_tag free, scan_open known]
      | none =>
        have free : Free (pairs.map TagPair.openTag) (shown buffer (pairs.map TagPair.openTag) ++
              held buffer (pairs.map TagPair.openTag)) := by
          rw [shown_append_held]
          exact findOpen_eq_none found
        dsimp only
        nth_rewrite 3 [← shown_append_held buffer (pairs.map TagPair.openTag)]
        rw [letters_piece, List.append_assoc, scan_outside_held free (noPartial_held buffer _)]

def lookedFor (pairs : List TagPair) : Option Tag → List Tag
  | none => pairs.map TagPair.openTag
  | some closing => [closing]

/-- What is held back starts a tag that is looked for, and holds no whole one. -/
structure HeldBack (pairs : List TagPair) (closing : Option Tag) (buffer : List Char) : Prop where
  free : Free (lookedFor pairs closing) buffer
  isStart : buffer = [] ∨ ∃ tag ∈ lookedFor pairs closing, buffer <+: tag.text
  known : ∀ tag, closing = some tag → tag ∈ pairs.map TagPair.closeTag

theorem held_isStart (text : List Char) (tags : List Tag) :
    held text tags = [] ∨ ∃ tag ∈ tags, held text tags <+: tag.text := by
  rcases held_eq_nil_or text tags with nothing | ⟨tag, known, isStart, -⟩
  · exact Or.inl nothing
  · exact Or.inr ⟨tag, known, isStart⟩

theorem free_held {text : List Char} {tags : List Tag} (free : Free tags text) :
    Free tags (held text tags) := by
  rw [← shown_append_held text tags] at free
  exact free.of_append_right

theorem heldBack_drain (enough : buffer.length < rounds)
    (known : ∀ tag, closing = some tag → tag ∈ pairs.map TagPair.closeTag) :
    HeldBack pairs (drain pairs rounds closing buffer).closing
      (drain pairs rounds closing buffer).buffer := by
  induction rounds generalizing closing buffer with
  | zero => omega
  | succ rounds ih =>
    cases closing with
    | some tag =>
      rw [drain]
      cases found : find tag.text buffer with
      | some i =>
        have shorter := congrArg List.length (find_eq_some tag.text_ne_nil found).1
        simp only [List.length_append, Tag.text, List.length_cons] at shorter
        apply ih
        · rw [Tag.text, List.length_cons]
          omega
        · exact fun _ isSome => absurd isSome (by simp)
      | none =>
        have free := (find_eq_none_iff tag.text_ne_nil).mp found
        exact ⟨free_held (free_singleton_iff.mpr free), held_isStart buffer [tag], known⟩
    | none =>
      rw [drain]
      cases found : findOpen pairs buffer with
      | some first =>
        rcases first with ⟨i, pair⟩
        rcases findOpen_eq_some found with ⟨isPair, split, -⟩
        have shorter := congrArg List.length split
        simp only [List.length_append, Tag.text, List.length_cons] at shorter
        apply ih
        · rw [Tag.text, List.length_cons]
          omega
        · intro tag isTag
          rw [← Option.some.inj isTag]
          exact List.mem_map_of_mem isPair
      | none => exact ⟨free_held (findOpen_eq_none found), held_isStart buffer _, known⟩

end Draining

section Streaming

variable {pairs : List TagPair} {state : Extraction}

theorem letters_textChunk (chunk : TextChunk) (place : Place) (text : List Char) :
    (textChunk chunk.toChunk place text).letters = lettersAt place text := by
  cases place <;>
    simp [textChunk, withFirst, TextChunk.toChunk, Chunk.letters, Delta.text, Delta.get, textDelta,
      Dict.find_insert, Dict.find_eraseAll, Dict.find_erase, lettersAt]

theorem hasStreamSignals_textChunk (chunk : TextChunk) (place : Place) (text : List Char) :
    hasStreamSignals (textChunk chunk.toChunk place text) = false := by
  simp [textChunk, withFirst, TextChunk.toChunk, hasStreamSignals, Value.isNull, Value.isTruthy]

theorem letters_signalsOf (chunk : TextChunk) :
    (signalsOf chunk.toChunk).flatMap Chunk.letters = [] := by
  unfold signalsOf
  split_ifs <;> rfl

theorem letters_textChunks (chunk : TextChunk) (pieces : List (Place × List Char)) :
    (pieces.map fun piece => textChunk chunk.toChunk piece.1 piece.2).flatMap Chunk.letters =
      letters pieces := by
  rw [List.flatMap_map]
  exact List.flatMap_congr fun piece _ => letters_textChunk chunk piece.1 piece.2

theorem processStreamChunk_toChunk (chunk : TextChunk) :
    processStreamChunk pairs state chunk.toChunk =
      (⟨(drain pairs ((state.buffer ++ chunk.text.toList).length + 1) state.closing
            (state.buffer ++ chunk.text.toList)).buffer,
          (drain pairs ((state.buffer ++ chunk.text.toList).length + 1) state.closing
            (state.buffer ++ chunk.text.toList)).closing, chunk.model.getD state.modelId⟩,
        ((drain pairs ((state.buffer ++ chunk.text.toList).length + 1) state.closing
            (state.buffer ++ chunk.text.toList)).pieces.map fun piece =>
          textChunk chunk.toChunk piece.1 piece.2) ++ signalsOf chunk.toChunk) := by
  simp [processStreamChunk, TextChunk.toChunk, Delta.text, get_textDelta, Value.isTruthy]

theorem HeldBack.fresh : HeldBack pairs none [] := by
  refine ⟨?_, Or.inl rfl, by simp⟩
  intro tag _ inside
  exact tag.text_ne_nil (List.infix_nil.mp inside)

theorem letters_processStreamChunk (chunk : TextChunk) (rest : List Char) :
    (processStreamChunk pairs state chunk.toChunk).2.flatMap Chunk.letters ++
        scan pairs (processStreamChunk pairs state chunk.toChunk).1.closing 0
          ((processStreamChunk pairs state chunk.toChunk).1.buffer ++ rest) =
      scan pairs state.closing 0 (state.buffer ++ (chunk.text.toList ++ rest)) := by
  rw [processStreamChunk_toChunk, List.flatMap_append, letters_signalsOf, letters_textChunks,
    List.append_nil, letters_drain, List.append_assoc]

theorem heldBack_processStreamChunk (chunk : TextChunk)
    (heldBack : HeldBack pairs state.closing state.buffer) :
    HeldBack pairs (processStreamChunk pairs state chunk.toChunk).1.closing
      (processStreamChunk pairs state chunk.toChunk).1.buffer := by
  exact heldBack_drain (Nat.lt_succ_self _) heldBack.known

theorem run_cons (chunk : Chunk) (rest : List Chunk) : run pairs state (chunk :: rest) =
      ((run pairs (processStreamChunk pairs state chunk).1 rest).1,
        (processStreamChunk pairs state chunk).2 ++
          (run pairs (processStreamChunk pairs state chunk).1 rest).2) := rfl

def textOf (chunks : List TextChunk) : List Char := chunks.flatMap fun chunk => chunk.text.toList

/-- What a run has sent and holds back is what one scan of the text gives. -/
theorem letters_run (chunks : List TextChunk) (rest : List Char) :
    (run pairs state (chunks.map TextChunk.toChunk)).2.flatMap Chunk.letters ++
        scan pairs (run pairs state (chunks.map TextChunk.toChunk)).1.closing 0
          ((run pairs state (chunks.map TextChunk.toChunk)).1.buffer ++ rest) =
      scan pairs state.closing 0 (state.buffer ++ (textOf chunks ++ rest)) := by
  induction chunks generalizing state with
  | nil => rfl
  | cons chunk others ih =>
    rw [List.map_cons, run_cons, List.flatMap_append, List.append_assoc, ih,
      letters_processStreamChunk]
    simp [textOf]

theorem heldBack_run (chunks : List TextChunk)
    (heldBack : HeldBack pairs state.closing state.buffer) :
    HeldBack pairs (run pairs state (chunks.map TextChunk.toChunk)).1.closing
      (run pairs state (chunks.map TextChunk.toChunk)).1.buffer := by
  induction chunks generalizing state with
  | nil => exact heldBack
  | cons chunk others ih =>
    exact ih (heldBack_processStreamChunk chunk heldBack)

theorem letters_standaloneChunk (model text : String) :
    (standaloneChunk model "content" text).letters = lettersAt .outside text.toList ∧
      (standaloneChunk model "reasoning_content" text).letters = lettersAt .inside text.toList := by
  constructor <;> simp [standaloneChunk, Chunk.letters, Delta.text, get_textDelta, lettersAt]

theorem letters_flush (heldBack : HeldBack pairs state.closing state.buffer) :
    (flush state).flatMap Chunk.letters = scan pairs state.closing 0 state.buffer := by
  unfold flush
  by_cases nothing : state.buffer = []
  · rw [nothing]
    simp [scan]
  · rw [if_neg (by simpa using nothing)]
    have free := heldBack.free
    have isStart := heldBack.isStart.resolve_left nothing
    cases closing : state.closing with
    | none =>
      rw [closing] at free
      rw [scan_free free]
      simp [(letters_standaloneChunk _ _).1]
    | some tag =>
      rw [closing] at free isStart
      rcases isStart with ⟨other, known, isPrefix⟩
      obtain rfl := List.mem_singleton.mp known
      have differ : state.buffer ≠ other.text := by
        intro whole
        exact free other known (whole ▸ List.infix_rfl)
      have shownNothing : shown state.buffer [other] = [] := by
        by_contra nonempty
        apply differ
        have whole := noPartial_held state.buffer [other] [] (shown state.buffer [other]) rfl
          nonempty other known
        rw [shown_append_held] at whole
        exact whole isPrefix
      rw [scan_held isPrefix differ]
      simp [shownNothing]

theorem hasStreamSignals_flush : ∀ chunk ∈ flush state, hasStreamSignals chunk = false := by
  intro chunk inside
  unfold flush at inside
  split_ifs at inside with nothing
  · contradiction
  · cases closing : state.closing with
    | none =>
      rw [closing, List.mem_singleton] at inside
      rw [inside]
      rfl
    | some tag =>
      rw [closing] at inside
      dsimp only at inside
      split_ifs at inside
      · contradiction
      · rw [List.mem_singleton.mp inside]
        rfl

end Streaming

section Claim

/-- What a client gets of a stream of text chunks, and what the scanner reads of the text. -/
structure ExtractsAsScanned (pairs : List TagPair) (chunks : List TextChunk) : Prop where
  /-- The client reads what the scanner reads, in the same order. -/
  letters : (streamed pairs (chunks.map TextChunk.toChunk)).flatMap Chunk.letters =
    scan pairs none 0 (textOf chunks)
  /-- No tag is part of a piece that it opens or closes. -/
  untagged : ∃ pieces, Reading pairs (textOf chunks) pieces ∧
    Tags.letters pieces = scan pairs none 0 (textOf chunks)
  /-- A finish reason and a usage follow the text that their chunk gives out, once. -/
  signals : ∀ before chunk after, chunks = before ++ chunk :: after →
    ∃ texts, outputOf pairs (before.map TextChunk.toChunk) chunk.toChunk =
        texts ++ signalsOf chunk.toChunk ∧
      ∀ text ∈ texts, hasStreamSignals text = false
  /-- Nothing that follows the last chunk carries a signal. -/
  flushed : ∀ chunk ∈ flush (run pairs .fresh (chunks.map TextChunk.toChunk)).1,
    hasStreamSignals chunk = false

def SignalsBeforeHeld (pairs : List TagPair) (chunks : List TextChunk) : Prop :=
  ∀ before chunk after, chunks = before ++ chunk :: after → ∃ held : List Char,
    (held = [] ∨ ∃ pair ∈ pairs, held <+: pair.openTag.text ∧ held ≠ pair.openTag.text) ∧
      (run pairs .fresh ((before ++ [chunk]).map TextChunk.toChunk)).2.flatMap Chunk.letters ++
        lettersAt .outside held = scan pairs none 0 (textOf (before ++ [chunk]))

def SignalsAfterText (pairs : List TagPair) (chunks : List TextChunk) : Prop :=
  ∀ before chunk after, chunks = before ++ chunk :: after → hasStreamSignals chunk.toChunk = true →
      (run pairs .fresh ((before ++ [chunk]).map TextChunk.toChunk)).2.flatMap Chunk.letters =
        scan pairs none 0 (textOf (before ++ [chunk]))

variable {pairs : List TagPair}

theorem letters_streamed (chunks : List TextChunk) :
    (streamed pairs (chunks.map TextChunk.toChunk)).flatMap Chunk.letters =
      scan pairs none 0 (textOf chunks) := by
  have ran := @letters_run pairs .fresh chunks []
  have held := @heldBack_run pairs .fresh chunks HeldBack.fresh
  rw [List.append_nil, List.append_nil, ← letters_flush held] at ran
  rw [streamed, List.flatMap_append]
  exact ran

theorem signalsBeforeHeld (chunks : List TextChunk) : SignalsBeforeHeld pairs chunks := by
  intro before chunk after _
  have ran := @letters_run pairs .fresh (before ++ [chunk]) []
  have back := @heldBack_run pairs .fresh (before ++ [chunk]) HeldBack.fresh
  rw [List.append_nil, List.append_nil] at ran
  revert ran back
  generalize (run pairs .fresh ((before ++ [chunk]).map TextChunk.toChunk)).1.closing = closing
  generalize (run pairs .fresh ((before ++ [chunk]).map TextChunk.toChunk)).1.buffer = buffer
  intro ran back
  have differ : ∀ tag ∈ lookedFor pairs closing, buffer ≠ tag.text := by
    rintro tag known rfl
    exact back.free tag known List.infix_rfl
  cases closing with
  | none =>
    refine ⟨buffer, ?_, ?_⟩
    · rcases back.isStart with nothing | ⟨tag, known, isStart⟩
      · exact Or.inl nothing
      · rcases List.mem_map.mp known with ⟨pair, isPair, rfl⟩
        exact Or.inr ⟨pair, isPair, isStart, differ _ known⟩
    · rw [← scan_free back.free]
      exact ran
  | some tag =>
    refine ⟨[], Or.inl rfl, ?_⟩
    have dropped : scan pairs (some tag) 0 buffer = [] := by
      rcases back.isStart with nothing | ⟨other, known, isStart⟩
      · rw [nothing]
        simp [scan]
      · obtain rfl := List.mem_singleton.mp known
        exact scan_held isStart (differ _ known)
    rw [dropped] at ran
    exact ran

/-- Inline reasoning is lifted out of a stream as a scanner reads the whole text, however the
text is cut into chunks. -/
theorem reasoning_extracted_as_scanned (pairs : List TagPair) (chunks : List TextChunk) :
    ExtractsAsScanned pairs chunks ∧ SignalsBeforeHeld pairs chunks := by
  refine ⟨⟨letters_streamed chunks, ?_, ?_, fun _ => hasStreamSignals_flush _⟩,
    signalsBeforeHeld chunks⟩
  · rcases exists_reading pairs (textOf chunks) with ⟨pieces, reading⟩
    exact ⟨pieces, reading, reading.scan_eq.symm⟩
  · intro before chunk after _
    refine ⟨_, by rw [outputOf, processStreamChunk_toChunk], ?_⟩
    intro text inside
    rcases List.mem_map.mp inside with ⟨piece, -, rfl⟩
    exact hasStreamSignals_textChunk chunk piece.1 piece.2

/-- `MiniMax-M3` marks its thinking with this pair. -/
def mmThink : TagPair := ⟨"mm:think".toList, by decide⟩

/-- The last character of the chunk that ends a stream may start a tag, and is given out after
the finish reason of the chunk. -/
theorem finish_reason_before_held_text :
    ¬SignalsAfterText [mmThink] [⟨"a<", .str "stop", .null, none⟩] := by
  intro after
  have early := after [] _ [] rfl (by decide)
  exact absurd early (by decide +kernel)

end Claim

end HybridInference.Processors
