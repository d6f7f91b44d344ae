import HybridInference.Library.Strip
import Mathlib.Data.List.Nodup

/-!
# Chunks of a markdown document

`chunk_markdown` breaks a document at its headings and packs the paragraphs of each section into
pieces that overlap. Nothing but whitespace and the headings themselves is lost, and everything
stays under the headings open where it stands.
-/

namespace HybridInference.Rag

open Library Text

structure Chunk where
  id : List Char
  text : List Char
  source : List Char
  title : List Char
deriving DecidableEq

structure Heading where
  level : ℕ
  title : List Char
deriving DecidableEq

/-- What `_HEADING_RE` matches: up to six `#`, whitespace, and a title. -/
def headingOf (line : List Char) : Option Heading :=
  let hashes := line.takeWhile (· = '#')
  let rest := line.dropWhile (· = '#')
  if 1 ≤ hashes.length ∧ hashes.length ≤ 6 ∧ rest.head?.any isSpace ∧ strip rest ≠ [] then
    some ⟨hashes.length, strip rest⟩
  else none

def isFence (line : List Char) : Bool :=
  "```".toList.isPrefixOf (line.dropWhile isSpace)

def breadcrumb (stack : List Heading) : List Char :=
  " > ".toList.intercalate (stack.reverse.map Heading.title)

/-- The local variables of `_split_by_headings`, the stack with the innermost heading first. -/
structure Sectioning where
  sections : List (List Char × List Char)
  stack : List Heading
  bodyLines : List (List Char)
  currentBreadcrumb : List Char
  inCode : Bool

namespace Sectioning

def start : Sectioning := ⟨[], [], [], [], false⟩

def closed (state : Sectioning) : List (List Char × List Char) :=
  if state.bodyLines = [] then state.sections
  else state.sections ++ [(state.currentBreadcrumb, ['\n'].intercalate state.bodyLines)]

def readLine (state : Sectioning) (line : List Char) : Sectioning :=
  if isFence line then
    { state with inCode := !state.inCode, bodyLines := state.bodyLines ++ [line] }
  else
    match if state.inCode then none else headingOf line with
    | some heading =>
      let stack := heading :: state.stack.dropWhile fun other => heading.level ≤ other.level
      { state with
        sections := state.closed, stack, bodyLines := [], currentBreadcrumb := breadcrumb stack }
    | none => { state with bodyLines := state.bodyLines ++ [line] }

end Sectioning

def splitByHeadings (text : List Char) : List (List Char × List Char) :=
  ((splitlines text).foldl Sectioning.readLine .start).closed

/-- How many characters `\s*\n` matches at the start of a text. -/
def blankLength : List Char → Option ℕ
  | [] => none
  | c :: rest =>
    if isSpace c then
      match blankLength rest with
      | some length => some (length + 1)
      | none => if c = '\n' then some 1 else none
    else none

/-- `_PARAGRAPH_SPLIT_RE.split`, after `paragraph` in reverse and with `skip` characters of a
match still to pass. -/
def splitParagraphs (paragraph : List Char) : ℕ → List Char → List (List Char)
  | _, [] => [paragraph.reverse]
  | skip + 1, _ :: rest => splitParagraphs paragraph skip rest
  | 0, c :: rest =>
    if c = '\n' then
      match blankLength rest with
      | some length => paragraph.reverse :: splitParagraphs [] length rest
      | none => splitParagraphs (c :: paragraph) 0 rest
    else splitParagraphs (c :: paragraph) 0 rest

def paragraphs (body : List Char) : List (List Char) :=
  ((splitParagraphs [] 0 body).map strip).filter (· ≠ [])

def clampedOverlap (maxChars : ℕ) (overlap : ℤ) : ℕ :=
  (max 0 (min overlap (maxChars - 1))).toNat

/-- The local variables of `_split_text`. -/
structure Packing where
  pieces : List (List Char)
  current : List Char

section Packing

variable (maxChars overlap : ℕ)

/-- The slices that a paragraph longer than a piece is cut into. -/
def slices (para : List Char) : List (List Char) :=
  let step := max 1 (maxChars - overlap)
  (List.range ((para.length + step - 1) / step)).map fun index =>
    (para.drop (index * step)).take maxChars

def tailOf (current : List Char) : List Char :=
  if overlap = 0 then [] else current.drop (current.length - overlap)

def behind (before para : List Char) : List Char :=
  if before = [] then para else before ++ '\n' :: '\n' :: para

def flushed (current : List Char) : List (List Char) :=
  if current = [] then [] else [strip current]

def pack (state : Packing) (para : List Char) : Packing :=
  if maxChars < para.length then
    ⟨state.pieces ++ flushed state.current ++ (slices maxChars overlap para).map strip, []⟩
  else if state.current ≠ [] ∧ maxChars < state.current.length + para.length + 2 then
    ⟨state.pieces ++ [strip state.current], behind (tailOf overlap state.current) para⟩
  else ⟨state.pieces, behind state.current para⟩

def Packing.finish (state : Packing) : List (List Char) :=
  if strip state.current ≠ [] then state.pieces ++ [strip state.current] else state.pieces

end Packing

def splitText (body : List Char) (maxChars : ℕ) (overlap : ℤ) : List (List Char) :=
  ((paragraphs body).foldl (pack maxChars (clampedOverlap maxChars overlap)) ⟨[], []⟩).finish

def titleOf (source crumb : List Char) : List Char := if crumb = [] then source else crumb

def chunkMarkdown (text source : List Char) (maxChars : ℕ) (overlap : ℤ) : List Chunk :=
  let located := (splitByHeadings text).flatMap fun part =>
    (splitText part.2 maxChars overlap).map fun piece => (part.1, piece)
  located.zipIdx.map fun ((crumb, piece), index) =>
    { id := source ++ '#' :: Nat.toDigits 10 index
      text := strip (behind crumb piece)
      source
      title := titleOf source crumb }

/-! ### Where the lines of a document belong

A document read so far is the list of its lines, the latest one first.
-/

def insideCode (earlier : List (List Char)) : Bool := earlier.countP isFence % 2 = 1

/-- The heading that `line` is behind the lines `earlier`, unless it is a fence or fenced. -/
def headingAt (earlier : List (List Char)) (line : List Char) : Option Heading :=
  if isFence line ∨ insideCode earlier then none else headingOf line

def headingsIn : List (List Char) → List Heading
  | [] => []
  | line :: earlier => headingsIn earlier ++ (headingAt earlier line).toList

def openHeadings : List Heading → List Heading
  | [] => []
  | heading :: later =>
    if ∀ other ∈ later, heading.level < other.level then heading :: openHeadings later
    else openHeadings later

/-- The characters of the lines that are no headings, each with the headings open there. -/
def placedText (source : List Char) : List (List Char) → List (List Char × Char)
  | [] => []
  | line :: earlier => placedText source earlier ++
    match headingAt earlier line with
    | some _ => []
    | none => (solid line).map fun c =>
      (titleOf source (breadcrumb (openHeadings (headingsIn earlier)).reverse), c)

/-- What keeps `_split_text` to its bound behind the open piece: room for the tail and the next
paragraph, and no blank slice. -/
def Fitting (maxChars overlap : ℕ) (current : List Char) : List (List Char) → Prop
  | [] => True
  | para :: rest =>
    (if maxChars < para.length then
      ∀ slice ∈ slices maxChars overlap para, ∃ c ∈ slice, isSpace c = false
    else
      current ≠ [] → maxChars < current.length + para.length + 2 →
        (∀ c ∈ tailOf overlap current, isSpace c = true) ∨
          ((tailOf overlap current).dropWhile isSpace).length + para.length + 2 ≤ maxChars) ∧
    Fitting maxChars overlap (pack maxChars overlap ⟨[], current⟩ para).current rest

instance decidableFitting (maxChars overlap : ℕ) :
    (current : List Char) → (paras : List (List Char)) →
      Decidable (Fitting maxChars overlap current paras)
  | _, [] => .isTrue trivial
  | current, para :: rest =>
    have := decidableFitting maxChars overlap
      (pack maxChars overlap ⟨[], current⟩ para).current rest
    have (slice : List Char) : Decidable (∃ c ∈ slice, isSpace c = false) := List.decidableBEx _ _
    have (tail : List Char) : Decidable (∀ c ∈ tail, isSpace c = true) := List.decidableBAll _ _
    show Decidable (_ ∧ _) from inferInstance

section Bound

variable {maxChars overlap : ℕ} {para : List Char}

theorem strip_ne_nil_iff {text : List Char} : strip text ≠ [] ↔ ∃ c ∈ text, isSpace c = false := by
  constructor
  · intro some_
    by_contra none_
    apply some_
    have blank : text.dropWhile isSpace = [] := by
      rw [List.dropWhile_eq_nil_iff]
      intro c inside
      by_contra solid_
      exact none_ ⟨c, inside, by simpa using solid_⟩
    simp [strip, blank]
  · rintro ⟨c, inside, solid_⟩ blank
    have kept : c ∈ solid text := List.mem_filter.mpr ⟨inside, by simp [solid_]⟩
    rw [← solid_strip, blank] at kept
    simp [solid] at kept

theorem ends_solid (stripped : strip para = para) (front : List Char) (c : Char)
    (ends : para = front ++ [c]) : ¬isSpace c = true := by
  intro space
  have shorter : (strip para).length ≤ front.length := by
    rw [ends, strip_append_of_space space]
    exact length_strip_le front
  rw [stripped, ends, List.length_append, List.length_singleton] at shorter
  omega

theorem length_strip_behind_le_iff (stripped : strip para = para) (some_ : para ≠ [])
    (short : para.length ≤ maxChars) (before : List Char) :
    (strip (behind before para)).length ≤ maxChars ↔ (∀ c ∈ before, isSpace c = true) ∨
        (before.dropWhile isSpace).length + para.length + 2 ≤ maxChars := by
  unfold behind
  split_ifs with none_
  · simp [none_, stripped, short]
  · rw [← strip_dropWhile_append]
    by_cases blank : before.dropWhile isSpace = []
    · have spaces : ∀ c ∈ before, isSpace c = true := List.dropWhile_eq_nil_iff.mp blank
      rw [blank, List.nil_append, strip_cons_of_space (by decide),
        strip_cons_of_space (by decide), stripped]
      exact iff_of_true short (Or.inl spaces)
    · have whole : strip (before.dropWhile isSpace ++ '\n' :: '\n' :: para) =
          before.dropWhile isSpace ++ '\n' :: '\n' :: para := by
        apply strip_eq_self
        · intro c rest starts
          have first : (before.dropWhile isSpace).head? = some c := by
            rw [← List.head?_append_of_ne_nil _ blank, starts, List.head?_cons]
          have solid_ := List.head?_dropWhile_not isSpace before
          rw [first] at solid_
          simpa using solid_
        · intro front c ends
          rcases List.eq_nil_or_concat para with rfl | ⟨inner, last, rfl⟩
          · exact absurd rfl some_
          · rw [List.concat_eq_append] at ends stripped
            have same : (before.dropWhile isSpace ++ '\n' :: '\n' :: inner) ++ [last] =
                front ++ [c] := by
              simpa using ends
            have lasts : last = c := by
              simpa using (List.append_inj' same rfl).2
            exact lasts ▸ ends_solid stripped inner last rfl
      have spaceless : ¬∀ c ∈ before, isSpace c = true := by
        rwa [← List.dropWhile_eq_nil_iff]
      rw [whole, or_iff_right spaceless]
      simp only [List.length_append, List.length_cons]
      omega

def WithinBound (maxChars : ℕ) (piece : List Char) : Prop :=
  piece ≠ [] ∧ piece.length ≤ maxChars

theorem withinBound_slices_iff :
    (∀ piece ∈ (slices maxChars overlap para).map strip, WithinBound maxChars piece) ↔
      ∀ slice ∈ slices maxChars overlap para, ∃ c ∈ slice, isSpace c = false := by
  have bounded : ∀ slice ∈ slices maxChars overlap para, (strip slice).length ≤ maxChars := by
    intro slice inside
    obtain ⟨index, _, rfl⟩ := List.mem_map.mp inside
    exact (length_strip_le _).trans (List.length_take_le _ _)
  simp only [List.mem_map, forall_exists_index, and_imp, forall_apply_eq_imp_iff₂]
  refine forall₂_congr fun slice inside => ?_
  rw [← strip_ne_nil_iff]
  exact and_iff_left (bounded slice inside)

theorem pack_current (state : Packing) (para : List Char) :
    (pack maxChars overlap ⟨[], state.current⟩ para).current =
      (pack maxChars overlap state para).current := by
  simp only [pack]
  split_ifs <;> rfl

theorem strip_behind_ne_nil (stripped : strip para = para) (some_ : para ≠ [])
    (before : List Char) : strip (behind before para) ≠ [] := by
  rw [strip_ne_nil_iff]
  rw [← stripped, strip_ne_nil_iff] at some_
  obtain ⟨c, inside, solid_⟩ := some_
  refine ⟨c, ?_, solid_⟩
  unfold behind
  split_ifs
  · exact inside
  · simp [inside]

theorem pack_current_solid (stripped : strip para = para) (some_ : para ≠ [])
    (state : Packing) (opened : (pack maxChars overlap state para).current ≠ []) :
    strip (pack maxChars overlap state para).current ≠ [] := by
  simp only [pack] at opened ⊢
  split_ifs at opened ⊢
  · exact absurd rfl opened
  · exact strip_behind_ne_nil stripped some_ _
  · exact strip_behind_ne_nil stripped some_ _

/-- The pieces keep to the bound exactly when every step finds the room it takes. -/
theorem withinBound_finish_iff {paras : List (List Char)}
    (trimmed : ∀ para ∈ paras, strip para = para ∧ para ≠ []) (state : Packing)
    (solid_ : state.current ≠ [] → strip state.current ≠ []) :
    (∀ piece ∈ (paras.foldl (pack maxChars overlap) state).finish, WithinBound maxChars piece) ↔
      (∀ piece ∈ state.pieces, WithinBound maxChars piece) ∧
        (state.current ≠ [] → (strip state.current).length ≤ maxChars) ∧
        Fitting maxChars overlap state.current paras := by
  induction paras generalizing state with
  | nil =>
    rw [List.foldl_nil, Packing.finish, Fitting, and_true]
    by_cases none_ : state.current = []
    · simp [none_, strip]
    · have kept := solid_ none_
      rw [if_pos kept, List.forall_mem_append, List.forall_mem_singleton]
      simp [WithinBound, kept, none_]
  | cons para rest ih =>
    obtain ⟨stripped, some_⟩ := trimmed para List.mem_cons_self
    have step := ih (fun para inside => trimmed para (List.mem_cons_of_mem _ inside))
      (pack maxChars overlap state para) (pack_current_solid stripped some_ state)
    rw [List.foldl_cons, step, Fitting, pack_current]
    by_cases long : maxChars < para.length
    · have flushes : (∀ piece ∈ flushed state.current, WithinBound maxChars piece) ↔
          (state.current ≠ [] → (strip state.current).length ≤ maxChars) := by
        unfold flushed
        by_cases none_ : state.current = []
        · simp [none_]
        · simp [none_, WithinBound, solid_ none_]
      have slicing : (∀ piece ∈ (slices maxChars overlap para).map strip,
          WithinBound maxChars piece) ↔
          ∀ slice ∈ slices maxChars overlap para, ∃ c ∈ slice, isSpace c = false :=
        withinBound_slices_iff
      simp only [pack, if_pos long, List.forall_mem_append, flushes, slicing]
      simp [and_assoc]
    · have short : para.length ≤ maxChars := not_lt.mp long
      by_cases full : state.current ≠ [] ∧ maxChars < state.current.length + para.length + 2
      · have carried := length_strip_behind_le_iff stripped some_ short
          (tailOf overlap state.current)
        have opened : behind (tailOf overlap state.current) para ≠ [] := by
          intro none_
          exact strip_behind_ne_nil stripped some_ (tailOf overlap state.current)
            (by rw [none_]; rfl)
        simp only [pack, if_neg long, if_pos full, List.forall_mem_append,
          List.forall_mem_singleton, carried, WithinBound]
        simp [full.1, full.2, opened, solid_ full.1, and_assoc]
      · have room : (strip (behind state.current para)).length ≤ maxChars := by
          apply (length_strip_le _).trans
          unfold behind
          split_ifs with none_
          · exact short
          · have := not_lt.mp fun more => full ⟨none_, more⟩
            simp only [List.length_append, List.length_cons]
            omega
        have open_ : state.current ≠ [] → (strip state.current).length ≤ maxChars := by
          intro some_
          have := not_lt.mp fun more => full ⟨some_, more⟩
          exact (length_strip_le _).trans (by omega)
        have fits : state.current ≠ [] → maxChars < state.current.length + para.length + 2 →
            (∀ c ∈ tailOf overlap state.current, isSpace c = true) ∨
              ((tailOf overlap state.current).dropWhile isSpace).length + para.length + 2 ≤
                maxChars :=
          fun some_ more => absurd ⟨some_, more⟩ full
        simp only [pack, if_neg long, if_neg full]
        exact and_congr_right fun _ =>
          ⟨fun later => ⟨open_, fits, later.2⟩, fun later => ⟨fun _ => room, later.2.2⟩⟩

theorem trimmed_of_mem_paragraphs {body : List Char} (inside : para ∈ paragraphs body) :
    strip para = para ∧ para ≠ [] := by
  obtain ⟨mapped, some_⟩ := List.mem_filter.mp inside
  obtain ⟨text, _, rfl⟩ := List.mem_map.mp mapped
  exact ⟨strip_strip text, by simpa using some_⟩

theorem withinBound_splitText_iff {body : List Char} {wanted : ℤ} :
    (∀ piece ∈ splitText body maxChars wanted, WithinBound maxChars piece) ↔
      Fitting maxChars (clampedOverlap maxChars wanted) [] (paragraphs body) := by
  unfold splitText
  rw [withinBound_finish_iff (fun para inside => trimmed_of_mem_paragraphs inside) _
    (fun none_ => absurd rfl none_)]
  simp

end Bound

end HybridInference.Rag
