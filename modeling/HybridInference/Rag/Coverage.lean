import HybridInference.Rag.Chunker

/-!
# Nothing of a document is lost in its chunks

The pieces of a section have all of its text between them, besides whitespace and what a piece
repeats of the one before. The sections have all lines of the document that are no headings,
under the headings open there.
-/

namespace HybridInference.Rag

open Library Text

/-- `pieces` carry `content` in order: each has its part of it somewhere in its text, under its
own mark. Whitespace does not count. -/
def Carries {Piece Mark : Type} (textOf : Piece → List Char) (markOf : Piece → Mark)
    (pieces : List Piece) (content : List (Mark × Char)) : Prop :=
  ∃ placed : List (Piece × List Char), placed.map Prod.fst = pieces ∧
    (∀ entry ∈ placed, entry.2 <:+: textOf entry.1) ∧
    (placed.flatMap fun entry => (solid entry.2).map fun c => (markOf entry.1, c)) = content

namespace Carries

variable {Piece Other Mark : Type} {textOf : Piece → List Char} {markOf : Piece → Mark}
  {otherTextOf : Other → List Char} {otherMarkOf : Other → Mark}
  {pieces more : List Piece} {content rest : List (Mark × Char)}

theorem nil : Carries textOf markOf [] [] := ⟨[], rfl, by simp, rfl⟩

theorem append (first : Carries textOf markOf pieces content)
    (second : Carries textOf markOf more rest) :
    Carries textOf markOf (pieces ++ more) (content ++ rest) := by
  rcases first with ⟨placed, rfl, inside, rfl⟩
  rcases second with ⟨placedMore, rfl, insideMore, rfl⟩
  refine ⟨placed ++ placedMore, List.map_append, ?_, List.flatMap_append⟩
  exact List.forall_mem_append.mpr ⟨inside, insideMore⟩

theorem single (textOf : Piece → List Char) (markOf : Piece → Mark) {piece : Piece}
    {fresh : List Char} (inside : fresh <:+: textOf piece) :
    Carries textOf markOf [piece] ((solid fresh).map fun c => (markOf piece, c)) :=
  ⟨[(piece, fresh)], rfl, by simpa using inside, by simp⟩

/-- What the pieces carry, other pieces carry that keep the marks and the solid characters of
every part of the texts. -/
theorem transfer {others : List Other}
    (related : List.Forall₂ (fun piece other => otherMarkOf other = markOf piece ∧
      ∀ fresh, fresh <:+: textOf piece →
        ∃ kept, kept <:+: otherTextOf other ∧ solid kept = solid fresh) pieces others)
    (carried : Carries textOf markOf pieces content) :
    Carries otherTextOf otherMarkOf others content := by
  rcases carried with ⟨placed, mapped, inside, rfl⟩
  induction related generalizing placed with
  | nil =>
    rw [List.map_eq_nil_iff.mp mapped]
    exact nil
  | cons head _ ih =>
    obtain ⟨entry, later, rfl, isHead, isRest⟩ := List.map_eq_cons_iff.mp mapped
    obtain ⟨here, there⟩ := List.forall_mem_cons.mp inside
    obtain ⟨marked, keeps⟩ := head
    obtain ⟨kept, within, same⟩ := keeps entry.2 (isHead ▸ here)
    have first := single otherTextOf otherMarkOf within
    rw [same, marked, ← isHead] at first
    exact first.append (ih later isRest there)

end Carries

variable {fresh text : List Char}

theorem infix_dropWhile (inside : fresh <:+: text) :
    ∃ kept, kept <:+: text.dropWhile isSpace ∧ solid kept = solid fresh := by
  induction text generalizing fresh with
  | nil => exact ⟨fresh, inside, rfl⟩
  | cons c rest ih =>
    by_cases space : isSpace c = true
    · rw [List.dropWhile_cons_of_pos space]
      rcases List.infix_cons_iff.mp inside with starts | later
      · rcases List.prefix_cons_iff.mp starts with rfl | ⟨others, rfl, within⟩
        · exact ⟨[], List.nil_infix, rfl⟩
        · obtain ⟨kept, keeps, same⟩ := ih within.isInfix
          exact ⟨kept, keeps, by rw [same]; simp [solid, space]⟩
      · exact ih later
    · rw [List.dropWhile_cons_of_neg space]
      exact ⟨fresh, inside, rfl⟩

theorem infix_strip (inside : fresh <:+: text) :
    ∃ kept, kept <:+: strip text ∧ solid kept = solid fresh := by
  obtain ⟨front, within, same⟩ := infix_dropWhile inside
  obtain ⟨kept, keeps, alike⟩ := infix_dropWhile (List.reverse_infix.mpr within)
  refine ⟨kept.reverse, List.reverse_infix.mpr keeps, ?_⟩
  unfold solid at same alike ⊢
  rw [List.filter_reverse, alike, List.filter_reverse, List.reverse_reverse, same]

/-- `Carries` where every piece has the same mark. -/
def Covers (pieces : List (List Char)) (content : List Char) : Prop :=
  Carries id (fun _ => ()) pieces (content.map fun c => ((), c))

namespace Covers

variable {pieces more : List (List Char)} {content rest : List Char}

theorem append (first : Covers pieces content) (second : Covers more rest) :
    Covers (pieces ++ more) (content ++ rest) := by
  unfold Covers
  rw [List.map_append]
  exact Carries.append first second

theorem strip {text fresh : List Char} (inside : fresh <:+: text) :
    Covers [strip text] (solid fresh) := by
  obtain ⟨kept, within, same⟩ := infix_strip inside
  have first := Carries.single id (fun _ => ()) within
  rwa [same] at first

theorem marked {Label Mark : Type} (markOf : Label → Mark) (label : Label)
    (covered : Covers pieces content) :
    Carries Prod.snd (fun part => markOf part.1) (pieces.map fun piece => (label, piece))
      (content.map fun c => (markOf label, c)) := by
  rcases covered with ⟨placed, rfl, inside, whole⟩
  refine ⟨placed.map fun entry => ((label, entry.1), entry.2), by simp, ?_, ?_⟩
  · intro entry member
    obtain ⟨original, found, rfl⟩ := List.mem_map.mp member
    exact inside original found
  · have relabelled := congrArg (List.map fun entry : Unit × Char => (markOf label, entry.2)) whole
    simpa [List.flatMap_map, List.map_flatMap, Function.comp_def] using relabelled

end Covers

section Packing

variable {maxChars overlap : ℕ} {para : List Char}

theorem solid_of_blank {text : List Char} (blank : Text.strip text = []) : solid text = [] := by
  rw [← solid_strip, blank]
  rfl

theorem flatMap_range_take (step : ℕ) (text : List Char) (count : ℕ) :
    (List.range count).flatMap (fun index => (text.drop (index * step)).take step) =
      text.take (count * step) := by
  induction count with
  | zero => simp
  | succ count ih =>
    rw [List.range_succ, List.flatMap_append, ih, List.flatMap_singleton, Nat.succ_mul,
      List.take_add]

theorem covers_slices (room : 1 ≤ maxChars) (overlap : ℕ) (para : List Char) :
    Covers ((slices maxChars overlap para).map strip) (solid para) := by
  set step := max 1 (maxChars - overlap) with isStep
  have positive : 0 < step := by omega
  have within : step ≤ maxChars := by omega
  have whole : (List.range ((para.length + step - 1) / step)).flatMap
      (fun index => (para.drop (index * step)).take step) = para := by
    rw [flatMap_range_take]
    apply List.take_of_length_le
    have := Nat.div_add_mod (para.length + step - 1) step
    have := Nat.mod_lt (para.length + step - 1) positive
    rw [Nat.mul_comm]
    omega
  have each : ∀ indices : List ℕ,
      Covers ((indices.map fun index => (para.drop (index * step)).take maxChars).map strip)
        (solid (indices.flatMap fun index => (para.drop (index * step)).take step)) := by
    intro indices
    induction indices with
    | nil => exact Carries.nil
    | cons index rest ih =>
      rw [List.flatMap_cons, solid_append]
      refine Covers.append (Covers.strip (List.IsPrefix.isInfix ?_)) ih
      exact List.take_prefix_take_left within
  have covered := each (List.range ((para.length + step - 1) / step))
  rwa [whole] at covered

theorem covers_flushed {before fresh : List Char} :
    Covers (flushed (before ++ fresh)) (solid fresh) := by
  unfold flushed
  split_ifs with none_
  · rw [(List.append_eq_nil_iff.mp none_).2]
    exact Carries.nil
  · exact Covers.strip (List.suffix_append before fresh).isInfix

/-- Behind pieces that cover what was read, with the open one ending in what they do not cover
yet, the pieces of the paragraphs to come cover everything. -/
theorem covers_finish (room : 1 ≤ maxChars) (paras : List (List Char)) {state : Packing}
    {content : List Char} (before fresh : List Char) (covered : Covers state.pieces content)
    (opened : state.current = before ++ fresh) :
    Covers (paras.foldl (pack maxChars overlap) state).finish
      (content ++ solid fresh ++ paras.flatMap solid) := by
  induction paras generalizing state content before fresh with
  | nil =>
    rw [List.foldl_nil, List.flatMap_nil, List.append_nil, Packing.finish, opened]
    split_ifs with some_
    · exact covered.append (Covers.strip (List.suffix_append before fresh).isInfix)
    · have blank : solid (before ++ fresh) = [] := solid_of_blank (not_not.mp some_)
      rw [solid_append] at blank
      rwa [(List.append_eq_nil_iff.mp blank).2, List.append_nil]
  | cons para rest ih =>
    rw [List.foldl_cons, List.flatMap_cons, ← List.append_assoc]
    rw [pack]
    split_ifs with long full
    · have more := (covered.append (opened ▸ covers_flushed)).append
        (covers_slices room overlap para)
      have final := @ih ⟨_, []⟩ _ [] [] more rfl
      rwa [show solid [] = [] from rfl, List.append_nil] at final
    · have more := covered.append
        (Covers.strip (opened ▸ (List.suffix_append before fresh).isInfix))
      by_cases none_ : tailOf overlap state.current = []
      · refine ih [] para more ?_
        simp [behind, none_]
      · refine ih (tailOf overlap state.current ++ ['\n', '\n']) para more ?_
        simp [behind, none_]
    · by_cases none_ : state.current = []
      · have nothing : before ++ fresh = [] := opened.symm.trans none_
        have joined : behind state.current para = [] ++ para := by simp [behind, none_]
        have final := @ih ⟨state.pieces, behind state.current para⟩ _ [] para covered joined
        rwa [(List.append_eq_nil_iff.mp nothing).2, show solid [] = [] from rfl, List.append_nil]
      · have joined : behind state.current para = before ++ (fresh ++ '\n' :: '\n' :: para) := by
          rw [behind, if_neg none_, opened, List.append_assoc]
        have final := @ih ⟨state.pieces, behind state.current para⟩ _ before
          (fresh ++ '\n' :: '\n' :: para) covered joined
        have blank : solid ('\n' :: '\n' :: para) = solid para := by
          simp [solid, show isSpace '\n' = true by decide]
        rwa [solid_append, blank, ← List.append_assoc content] at final

theorem solid_drop_blankLength {text : List Char} {length : ℕ}
    (blank : blankLength text = some length) : solid (text.drop length) = solid text := by
  induction text generalizing length with
  | nil => simp [blankLength] at blank
  | cons c rest ih =>
    rw [blankLength] at blank
    by_cases space : isSpace c = true
    · have skipped : solid (c :: rest) = solid rest := by simp [solid, space]
      rw [if_pos space] at blank
      cases shorter : blankLength rest with
      | some inner =>
        simp only [shorter, Option.some.injEq] at blank
        rw [← blank, List.drop_succ_cons, ih shorter, skipped]
      | none =>
        simp only [shorter, Option.ite_none_right_eq_some, Option.some.injEq] at blank
        rw [← blank.2, List.drop_succ_cons, List.drop_zero, skipped]
    · simp [space] at blank

theorem solid_splitParagraphs (paragraph : List Char) (skip : ℕ) (text : List Char) :
    (splitParagraphs paragraph skip text).flatMap solid =
      solid paragraph.reverse ++ solid (text.drop skip) := by
  fun_induction splitParagraphs paragraph skip text with
  | case1 paragraph skip => simp [solid]
  | case2 paragraph skip c rest ih => rw [ih, List.drop_succ_cons]
  | case3 paragraph rest length blank ih =>
    have newline : solid ('\n' :: rest) = solid rest := by
      simp [solid, show isSpace '\n' = true by decide]
    rw [List.flatMap_cons, ih, solid_drop_blankLength blank, List.drop_zero, newline]
    simp [solid]
  | case4 paragraph rest noBlank ih =>
    rw [ih, List.drop_zero, List.drop_zero, ← solid_append, ← solid_append]
    simp
  | case5 paragraph c rest notBreak ih =>
    rw [ih, List.drop_zero, List.drop_zero, ← solid_append, ← solid_append]
    simp

theorem solid_paragraphs (body : List Char) : (paragraphs body).flatMap solid = solid body := by
  have split := solid_splitParagraphs [] 0 body
  have kept : ∀ texts : List (List Char),
      ((texts.map strip).filter (· ≠ [])).flatMap solid = texts.flatMap solid := by
    intro texts
    induction texts with
    | nil => rfl
    | cons text rest ih =>
      rw [List.map_cons, List.filter_cons, List.flatMap_cons]
      split_ifs with some_
      · rw [List.flatMap_cons, ih, solid_strip]
      · rw [ih, solid_of_blank (by simpa using some_), List.nil_append]
  rw [paragraphs, kept, split]
  simp [solid]

theorem covers_splitText (room : 1 ≤ maxChars) (body : List Char) (wanted : ℤ) :
    Covers (splitText body maxChars wanted) (solid body) := by
  have nothing : Covers (Packing.pieces ⟨[], []⟩) [] := Carries.nil
  have covered : Covers (splitText body maxChars wanted) _ :=
    covers_finish room (paragraphs body) [] [] nothing rfl
  rwa [solid_paragraphs] at covered

end Packing

theorem openHeadings_concat (headings : List Heading) (heading : Heading) :
    openHeadings (headings ++ [heading]) =
      (openHeadings headings).filter (·.level < heading.level) ++ [heading] := by
  induction headings with
  | nil => rfl
  | cons first later ih =>
    rw [List.cons_append, openHeadings, openHeadings, ih]
    by_cases deeper : ∀ other ∈ later, first.level < other.level
    · rw [if_pos deeper]
      by_cases outer : first.level < heading.level
      · have still : ∀ other ∈ later ++ [heading], first.level < other.level :=
          List.forall_mem_append.mpr ⟨deeper, List.forall_mem_singleton.mpr outer⟩
        rw [if_pos still, List.filter_cons_of_pos (by simpa using outer), List.cons_append]
      · have closes : ¬∀ other ∈ later ++ [heading], first.level < other.level :=
          fun still => outer (still heading (by simp))
        rw [if_neg closes, List.filter_cons_of_neg (by simpa using outer)]
    · have closes : ¬∀ other ∈ later ++ [heading], first.level < other.level :=
        fun still => deeper (List.forall_mem_append.mp still).1
      rw [if_neg deeper, if_neg closes]

theorem mem_openHeadings {headings : List Heading} {heading : Heading}
    (opened : heading ∈ openHeadings headings) : heading ∈ headings := by
  induction headings with
  | nil => exact opened
  | cons first later ih =>
    rw [openHeadings] at opened
    split_ifs at opened
    · rcases List.mem_cons.mp opened with rfl | inner
      · exact List.mem_cons_self
      · exact List.mem_cons_of_mem _ (ih inner)
    · exact List.mem_cons_of_mem _ (ih opened)

theorem openHeadings_nested (headings : List Heading) :
    (openHeadings headings).Pairwise fun outer inner => outer.level < inner.level := by
  induction headings with
  | nil => exact List.Pairwise.nil
  | cons first later ih =>
    rw [openHeadings]
    split_ifs with deeper
    · exact List.pairwise_cons.mpr ⟨fun other opened => deeper other (mem_openHeadings opened), ih⟩
    · exact ih

/-- Popping the stack up to a level leaves the headings that are still open. -/
theorem dropWhile_eq_filter {stack : List Heading} (level : ℕ)
    (nested : stack.Pairwise fun inner outer => outer.level < inner.level) :
    stack.dropWhile (fun other => level ≤ other.level) = stack.filter (·.level < level) := by
  induction nested with
  | nil => rfl
  | @cons inner outer_ deepest _ ih =>
    by_cases pops : level ≤ inner.level
    · have closes : ¬inner.level < level := not_lt.mpr pops
      rw [List.dropWhile_cons_of_pos (by simpa using pops),
        List.filter_cons_of_neg (by simpa using closes), ih]
    · have stays : inner.level < level := not_le.mp pops
      have rest : outer_.filter (·.level < level) = outer_ :=
        List.filter_eq_self.mpr fun other inside =>
          decide_eq_true ((deepest other inside).trans stays)
      rw [List.dropWhile_cons_of_neg (by simpa using pops),
        List.filter_cons_of_pos (by simpa using stays), rest]

theorem solid_intercalate (lines : List (List Char)) :
    solid (['\n'].intercalate lines) = lines.flatMap solid := by
  induction lines with
  | nil => rfl
  | cons line rest ih =>
    cases rest with
    | nil => simp
    | cons next more =>
      have newline : solid ['\n'] = [] := by simp [solid, show isSpace '\n' = true by decide]
      rw [List.intercalate_cons_cons, solid_append, solid_append, newline, List.append_nil, ih]
      rfl

/-- The text of sections, under their titles. -/
def labelled (source : List Char) (sections : List (List Char × List Char)) :
    List (List Char × Char) :=
  sections.flatMap fun part => (solid part.2).map fun c => (titleOf source part.1, c)

theorem labelled_closed (source : List Char) (state : Sectioning) :
    labelled source state.closed = labelled source state.sections ++
      (state.bodyLines.flatMap solid).map fun c => (titleOf source state.currentBreadcrumb, c) := by
  unfold Sectioning.closed
  split_ifs with none_
  · simp [none_]
  · simp [labelled, solid_intercalate]

/-- What `_split_by_headings` knows behind the lines `read`, the latest one first. -/
structure Sectioning.Reads (source : List Char) (state : Sectioning)
    (read : List (List Char)) : Prop where
  inCode : state.inCode = insideCode read
  stack : state.stack = (openHeadings (headingsIn read)).reverse
  crumb : state.currentBreadcrumb = breadcrumb state.stack
  text : labelled source state.closed = placedText source read

theorem insideCode_fence {read : List (List Char)} {line : List Char}
    (fence : isFence line = true) : insideCode (line :: read) = !insideCode read := by
  unfold insideCode
  rw [List.countP_cons_of_pos fence, ← decide_not, decide_eq_decide]
  omega

theorem insideCode_other {read : List (List Char)} {line : List Char}
    (other : isFence line = false) : insideCode (line :: read) = insideCode read := by
  unfold insideCode
  rw [List.countP_cons_of_neg (by simp [other])]

namespace Sectioning.Reads

variable {source : List Char} {state : Sectioning} {read : List (List Char)} {line : List Char}

section

variable (reads : state.Reads source read)

include reads

theorem bodyLine {inCode : Bool}
    (code : inCode = insideCode (line :: read)) (noHeading : headingAt read line = none) :
    Reads source { state with inCode, bodyLines := state.bodyLines ++ [line] } (line :: read) where
  inCode := code
  stack := by simpa [headingsIn, noHeading] using reads.stack
  crumb := reads.crumb
  text := by
    have before := reads.text
    rw [labelled_closed, reads.crumb, reads.stack] at before
    rw [labelled_closed, placedText, noHeading, ← before, reads.crumb, reads.stack]
    simp

theorem heading {heading : Heading}
    (code : state.inCode = insideCode (line :: read))
    (isHeading : headingAt read line = some heading) :
    let stack := heading :: state.stack.dropWhile fun other => heading.level ≤ other.level
    Reads source
      { state with
        sections := state.closed, stack, bodyLines := [], currentBreadcrumb := breadcrumb stack }
      (line :: read) where
  inCode := code
  stack := by
    have nested := List.pairwise_reverse.mpr (openHeadings_nested (headingsIn read))
    rw [headingsIn, isHeading, Option.toList_some, openHeadings_concat, List.reverse_append,
      reads.stack, dropWhile_eq_filter heading.level nested, List.filter_reverse]
    rfl
  crumb := rfl
  text := by
    rw [labelled_closed, placedText, isHeading]
    simpa using reads.text

theorem readLine (line : List Char) : (state.readLine line).Reads source (line :: read) := by
  unfold Sectioning.readLine
  by_cases fence : isFence line = true
  · rw [if_pos fence]
    apply reads.bodyLine
    · rw [insideCode_fence fence, reads.inCode]
    · rw [headingAt, if_pos (Or.inl fence)]
  · have other : isFence line = false := by simpa using fence
    have code : state.inCode = insideCode (line :: read) := by
      rw [insideCode_other other, reads.inCode]
    have found : (if state.inCode then none else headingOf line) = headingAt read line := by
      rw [headingAt, reads.inCode]
      simp [other]
    rw [if_neg fence, found]
    cases isHeading : headingAt read line with
    | some heading => exact reads.heading code isHeading
    | none => exact reads.bodyLine code isHeading

theorem foldl (lines : List (List Char)) :
    (lines.foldl Sectioning.readLine state).Reads source (lines.reverse ++ read) := by
  induction lines generalizing state read with
  | nil => exact reads
  | cons line rest ih =>
    rw [List.reverse_cons, List.append_assoc]
    exact ih (reads.readLine line)

end

end Sectioning.Reads

theorem labelled_splitByHeadings (source text : List Char) :
    labelled source (splitByHeadings text) = placedText source (splitlines text).reverse := by
  have start : Sectioning.start.Reads source [] := ⟨rfl, rfl, rfl, rfl⟩
  have reads := start.foldl (splitlines text)
  rw [List.append_nil] at reads
  exact reads.text

section Document

variable {maxChars : ℕ}

theorem carries_sections (room : 1 ≤ maxChars) (source : List Char) (overlap : ℤ)
    (sections : List (List Char × List Char)) :
    Carries Prod.snd (fun part => titleOf source part.1) (sections.flatMap fun part =>
        (splitText part.2 maxChars overlap).map fun piece => (part.1, piece))
      (labelled source sections) := by
  induction sections with
  | nil => exact Carries.nil
  | cons part rest ih =>
    have covered := covers_splitText room part.2 overlap
    exact (covered.marked (titleOf source) part.1).append ih

theorem forall₂_zipIdx_map {Piece Other : Type} {related : Piece → Other → Prop}
    {build : Piece × ℕ → Other} (each : ∀ piece index, related piece (build (piece, index)))
    (pieces : List Piece) (start : ℕ) :
    List.Forall₂ related pieces ((pieces.zipIdx start).map build) := by
  induction pieces generalizing start with
  | nil => exact List.Forall₂.nil
  | cons piece rest ih => exact List.Forall₂.cons (each piece start) (ih (start + 1))

theorem carries_chunkMarkdown (room : 1 ≤ maxChars) (text source : List Char) (overlap : ℤ) :
    Carries Chunk.text Chunk.title (chunkMarkdown text source maxChars overlap)
      (placedText source (splitlines text).reverse) := by
  rw [← labelled_splitByHeadings]
  refine (carries_sections room source overlap _).transfer (forall₂_zipIdx_map ?_ _ 0)
  rintro ⟨crumb, piece⟩ index
  refine ⟨rfl, fun fresh inside => infix_strip (inside.trans ?_)⟩
  unfold behind
  split_ifs
  · exact List.infix_rfl
  · exact (List.suffix_append (crumb ++ ['\n', '\n']) piece).isInfix.trans (by simp)

theorem toDigits_injective {first second : ℕ}
    (same : Nat.toDigits 10 first = Nat.toDigits 10 second) : first = second := by
  have read := congrArg (fun digits => Nat.ofDigitChars 10 digits 0) same
  simpa [Nat.ofDigitChars_toDigits] using read

theorem nodup_chunk_ids (text source : List Char) (overlap : ℤ) :
    ((chunkMarkdown text source maxChars overlap).map Chunk.id).Nodup := by
  unfold chunkMarkdown
  simp only [List.map_map]
  have numbered : ∀ located : List (List Char × List Char),
      (located.zipIdx.map fun entry => source ++ '#' :: Nat.toDigits 10 entry.2).Nodup := by
    intro located
    have distinct : (located.zipIdx.map Prod.snd).Nodup := by
      rw [List.zipIdx_map_snd]
      exact List.nodup_range'
    have injective : Function.Injective fun index => source ++ '#' :: Nat.toDigits 10 index :=
      fun first second same => toDigits_injective (List.cons.inj (List.append_cancel_left same)).2
    have renamed := List.Nodup.map injective distinct
    rwa [List.map_map] at renamed
  exact numbered _

/-- Chunks carry all of a document in order under its open headings, the pieces keep to the limit,
and no two chunks have one id. -/
structure Faithful (text source : List Char) (maxChars : ℕ) (overlap : ℤ) : Prop where
  carried : Carries Chunk.text Chunk.title (chunkMarkdown text source maxChars overlap)
    (placedText source (splitlines text).reverse)
  bounded : ∀ part ∈ splitByHeadings text, ∀ piece ∈ splitText part.2 maxChars overlap,
    piece ≠ [] ∧ piece.length ≤ maxChars
  distinct : ((chunkMarkdown text source maxChars overlap).map Chunk.id).Nodup

/-- A document is chunked faithfully exactly when, in each of its sections, there is room for
every paragraph behind a carried tail and no slice of a long paragraph is blank. -/
theorem chunkMarkdown_faithful_iff {maxChars : ℕ} (room : 1 ≤ maxChars)
    (text source : List Char) (overlap : ℤ) :
    Faithful text source maxChars overlap ↔ ∀ part ∈ splitByHeadings text,
      Fitting maxChars (clampedOverlap maxChars overlap) [] (paragraphs part.2) := by
  constructor
  · intro faithful part inside
    exact withinBound_splitText_iff.mp (faithful.bounded part inside)
  · intro fitting
    refine ⟨carries_chunkMarkdown room text source overlap, ?_, nodup_chunk_ids text source overlap⟩
    intro part inside
    exact withinBound_splitText_iff.mpr (fitting part inside)

/-- A document whose second paragraph stands behind a carried tail and whose third one is cut
into slices. -/
theorem chunkMarkdown_faithful_iff_in_pieces :
    let text := "# Q\nab.\n\nRun.\n\nThen read.".toList
    (chunkMarkdown text "q.md".toList 7 1).map (fun chunk => String.ofList chunk.text) =
        ["Q\n\nab.", "Q\n\n.\n\nRun.", "Q\n\nThen re", "Q\n\nead."] ∧
      Faithful text "q.md".toList 7 1 := by
  refine ⟨by decide +kernel, (chunkMarkdown_faithful_iff (by decide) _ _ 1).mpr ?_⟩
  decide +kernel

/-- Behind a carried tail a paragraph within the limit makes a piece beyond it, and a blank slice
of a long paragraph makes an empty piece. -/
theorem carried_tail_exceeds_limit : ¬Faithful "abc\n\nd".toList "guide.md".toList 4 2 ∧
      ¬Faithful "abc    d".toList "guide.md".toList 3 0 := by
  constructor
  · intro faithful
    have tooLong := faithful.bounded ([], "abc\n\nd".toList) (by decide +kernel)
      "bc\n\nd".toList (by decide +kernel)
    exact absurd tooLong.2 (by decide)
  · intro faithful
    have empty := faithful.bounded ([], "abc    d".toList) (by decide +kernel) []
      (by decide +kernel)
    exact empty.1 rfl

end Document

end HybridInference.Rag
