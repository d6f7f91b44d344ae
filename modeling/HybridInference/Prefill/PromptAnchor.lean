import HybridInference.Library.CodePoints
import HybridInference.Prefill.Tracker

/-!
# Prompt anchors

`prompt_anchor` and `_anchor_holds` of `routing.prefill_load`, for messages with a string role, a
string content and no other field. A prompt is flattened to one stream of characters, where U+0001
and U+0002 stand around each role, and is remembered by the length of the stream and the digest of
its bytes.
-/

namespace HybridInference.Prefill

open Library

structure TextMessage where
  role : PyText
  content : PyText
  deriving DecidableEq

def roleMark : CodePoint := 1

def contentMark : CodePoint := 2

def prefixUnits (messages : List TextMessage) : List PyText :=
  messages.flatMap fun message =>
    [roleMark :: message.role ++ [contentMark], message.content]

section Anchors

-- `hashlib.blake2b`, of all the bytes that its updates were given.
variable (digest : ByteArray → String)

def promptAnchor (messages : List TextMessage) : Option Anchor :=
  let units := prefixUnits messages
  let bytes := units.foldl (fun bytes unit => bytes ++ unit.encodeIgnoring) ByteArray.empty
  let length := (units.map List.length).sum
  if length = 0 then none else some (length, digest bytes)

/-- The loop of `_anchor_holds`: the characters seen and the bytes digested. -/
def anchorScan (length : ℕ) : List PyText → ℕ → ByteArray → ℕ × ByteArray
  | [], seen, bytes => (seen, bytes)
  | unit :: rest, seen, bytes =>
    if length ≤ seen then (seen, bytes)
    else
      let take := unit.take (length - seen)
      anchorScan length rest (seen + take.length) (bytes ++ PyText.encodeIgnoring take)

def anchorHolds (messages : List TextMessage) (anchor : Anchor) : Bool :=
  if anchor.1 ≤ 0 then false
  else
    let scanned := anchorScan anchor.1.toNat (prefixUnits messages) 0 ByteArray.empty
    scanned.1 = anchor.1.toNat && digest scanned.2 = anchor.2

end Anchors

/-- The prompt that was measured is a prefix of the later one: the messages before its last one are
the same, and its last message has the same role and begins the content. -/
def Continues (measured later : List TextMessage) : Prop :=
  measured.length ≤ later.length ∧
  measured.dropLast = later.take (measured.length - 1) ∧
  ∀ last, measured.getLast? = some last →
    ∃ next, later[measured.length - 1]? = some next ∧ next.role = last.role ∧
      last.content <+: next.content

def stream (messages : List TextMessage) : PyText :=
  messages.flatMap fun message =>
    roleMark :: message.role ++ contentMark :: message.content

@[simp]
theorem stream_nil : stream [] = [] := rfl

theorem stream_cons (message : TextMessage) (rest : List TextMessage) : stream (message :: rest) =
      roleMark :: (message.role ++ contentMark :: (message.content ++ stream rest)) := by
  unfold stream
  simp

theorem flatten_prefixUnits (messages : List TextMessage) :
    (prefixUnits messages).flatten = stream messages := by
  induction messages with
  | nil => rfl
  | cons message rest ih =>
    unfold prefixUnits at ih ⊢
    rw [List.flatMap_cons, List.flatten_append, ih, stream_cons]
    simp

section Scan

variable {digest : ByteArray → String}

theorem foldl_encode (units : List PyText) (bytes : ByteArray) :
    units.foldl (fun bytes unit => bytes ++ PyText.encodeIgnoring unit) bytes =
      bytes ++ PyText.encodeIgnoring units.flatten := by
  induction units generalizing bytes with
  | nil => simp
  | cons unit rest ih =>
    rw [List.foldl_cons, ih, List.flatten_cons, PyText.encodeIgnoring_append,
      ByteArray.append_assoc]

theorem anchorScan_eq (length : ℕ) (units : List PyText) (seen : ℕ) (bytes : ByteArray) :
    anchorScan length units seen bytes = (seen + (units.flatten.take (length - seen)).length,
        bytes ++ PyText.encodeIgnoring (units.flatten.take (length - seen))) := by
  induction units generalizing seen bytes with
  | nil => simp [anchorScan]
  | cons unit rest ih =>
    unfold anchorScan
    split_ifs with done
    · have none_ : length - seen = 0 := by omega
      simp [none_]
    · dsimp only
      rw [ih, List.flatten_cons, List.take_append, PyText.encodeIgnoring_append,
        ByteArray.append_assoc, List.length_append]
      have left : length - (seen + (unit.take (length - seen)).length) =
          length - seen - unit.length := by
        rw [List.length_take]
        omega
      rw [left, Nat.add_assoc]

theorem promptAnchor_eq_some_iff {messages : List TextMessage} {anchor : Anchor} :
    promptAnchor digest messages = some anchor ↔ messages ≠ [] ∧
        anchor = (((stream messages).length : ℤ),
          digest (PyText.encodeIgnoring (stream messages))) := by
  unfold promptAnchor
  dsimp only
  rw [foldl_encode, flatten_prefixUnits, ← List.length_flatten, flatten_prefixUnits]
  have empty : (stream messages).length = 0 ↔ messages = [] := by
    cases messages with
    | nil => simp
    | cons message rest => simp [stream_cons]
  split_ifs with none_
  · simp [empty.mp none_]
  · rw [Option.some.injEq, ByteArray.empty_append]
    exact ⟨fun same => ⟨fun isEmpty => none_ (empty.mpr isEmpty), same.symm⟩,
      fun both => both.2.symm⟩

theorem anchorHolds_iff (injective : Function.Injective digest) {measured later : List TextMessage}
    {anchor : Anchor} (anchored : promptAnchor digest measured = some anchor) :
    anchorHolds digest later anchor = true ↔ (stream measured).length ≤ (stream later).length ∧
        PyText.encodeIgnoring ((stream later).take (stream measured).length) =
          PyText.encodeIgnoring (stream measured) := by
  rcases promptAnchor_eq_some_iff.mp anchored with ⟨some_, rfl⟩
  have positive : 0 < (stream measured).length := by
    cases measured with
    | nil => exact absurd rfl some_
    | cons message rest => simp [stream_cons]
  unfold anchorHolds
  rw [if_neg (by omega), anchorScan_eq, flatten_prefixUnits]
  simp only [Int.toNat_natCast, Nat.sub_zero, Nat.zero_add, ByteArray.empty_append,
    Bool.and_eq_true, decide_eq_true_eq, List.length_take, injective.eq_iff]
  constructor
  all_goals
    rintro ⟨enough, same⟩
    exact ⟨by omega, same⟩

end Scan

section Prefixes

variable {first second : TextMessage} {measured later : List TextMessage}

theorem continues_singleton : Continues [first] later ↔
      ∃ next rest, later = next :: rest ∧ next.role = first.role ∧
        first.content <+: next.content := by
  unfold Continues
  cases later with
  | nil => simp
  | cons next rest => simp

theorem continues_cons_cons : Continues (first :: second :: measured) later ↔
      ∃ rest, later = first :: rest ∧ Continues (second :: measured) rest := by
  unfold Continues
  cases later with
  | nil => simp
  | cons next rest =>
    simp only [List.length_cons, List.dropLast_cons_cons, Nat.add_sub_cancel,
      List.take_succ_cons, List.cons.injEq, List.getLast?_cons_cons,
      List.getElem?_cons_succ, Nat.add_le_add_iff_right]
    constructor
    · rintro ⟨enough, ⟨rfl, same⟩, last⟩
      exact ⟨rest, ⟨rfl, rfl⟩, enough, same, last⟩
    · rintro ⟨others, ⟨rfl, rfl⟩, enough, same, last⟩
      exact ⟨enough, ⟨rfl, same⟩, last⟩

theorem append_prefix_append_left {α : Type*} {start one another : List α}
    (shorter : one <+: another) :
    start ++ one <+: start ++ another :=
  (List.prefix_append_right_inj start).mpr shorter

theorem stream_prefix_of_continues (continues : Continues measured later) :
    stream measured <+: stream later := by
  induction measured generalizing later with
  | nil => exact List.nil_prefix
  | cons first measured ih =>
    cases measured with
    | nil =>
      rcases continues_singleton.mp continues with ⟨next, rest, rfl, role, content⟩
      rw [stream_cons, stream_cons, role, stream_nil, List.append_nil]
      apply (List.prefix_cons_inj _).mpr
      apply append_prefix_append_left
      apply (List.prefix_cons_inj _).mpr
      exact content.trans (List.prefix_append _ _)
    | cons second measured =>
      rcases continues_cons_cons.mp continues with ⟨rest, rfl, goesOn⟩
      rw [stream_cons first, stream_cons first]
      apply (List.prefix_cons_inj _).mpr
      apply append_prefix_append_left
      apply (List.prefix_cons_inj _).mpr
      exact append_prefix_append_left (ih goesOn)

theorem append_cons_inj_of_not_mem {mark : CodePoint} {one another rest others : PyText}
    (free : mark ∉ one) (otherFree : mark ∉ another)
    (same : one ++ mark :: rest = another ++ mark :: others) : one = another ∧ rest = others := by
  induction one generalizing another with
  | nil =>
    cases another with
    | nil => exact ⟨rfl, (List.cons.inj same).2⟩
    | cons c more =>
      have equal : mark = c := (List.cons.inj same).1
      exact absurd (equal ▸ List.mem_cons_self) otherFree
  | cons c more ih =>
    cases another with
    | nil =>
      have equal : c = mark := (List.cons.inj same).1
      exact absurd (equal ▸ List.mem_cons_self) free
    | cons other others' =>
      rcases List.cons.inj same with ⟨rfl, tails⟩
      rcases ih (fun inside => free (List.mem_cons_of_mem _ inside))
        (fun inside => otherFree (List.mem_cons_of_mem _ inside)) tails with ⟨rfl, rest⟩
      exact ⟨rfl, rest⟩

def Unforged (messages : List TextMessage) : Prop :=
  ∀ message ∈ messages, contentMark ∉ message.role ∧ roleMark ∉ message.content

theorem content_prefix_of_prefix {content other : PyText} {rest : List TextMessage}
    (free : roleMark ∉ content) (shorter : content <+: other ++ stream rest) :
    content <+: other := by
  rcases List.prefix_or_prefix_of_prefix shorter (List.prefix_append other (stream rest)) with
    inside | ⟨more, rfl⟩
  · exact inside
  · have extra : more <+: stream rest := (List.prefix_append_right_inj other).mp shorter
    cases more with
    | nil => simp
    | cons c more =>
      cases rest with
      | nil => simp at extra
      | cons message rest =>
        rw [stream_cons, List.cons_prefix_cons] at extra
        rw [extra.1] at free
        exact absurd (List.mem_append_right _ List.mem_cons_self) free

theorem continues_of_stream_prefix (some_ : measured ≠ []) (unforged : Unforged measured)
    (laterUnforged : Unforged later) (shorter : stream measured <+: stream later) :
    Continues measured later := by
  induction measured generalizing later with
  | nil => exact absurd rfl some_
  | cons first measured ih =>
    cases later with
    | nil =>
      rw [stream_cons, stream_nil, List.prefix_nil] at shorter
      exact absurd shorter (List.cons_ne_nil _ _)
    | cons next later =>
      have free := unforged first List.mem_cons_self
      have nextFree := laterUnforged next List.mem_cons_self
      rw [stream_cons, stream_cons, List.cons_prefix_cons] at shorter
      rcases shorter.2 with ⟨more, same⟩
      rw [List.append_assoc, List.cons_append] at same
      rcases append_cons_inj_of_not_mem free.1 nextFree.1 same with ⟨role, same⟩
      cases measured with
      | nil =>
        apply continues_singleton.mpr
        refine ⟨next, later, rfl, role.symm, ?_⟩
        rw [stream_nil, List.append_nil] at same
        exact content_prefix_of_prefix free.2 ⟨more, same⟩
      | cons second measured =>
        rw [List.append_assoc, stream_cons, List.cons_append] at same
        cases later with
        | nil =>
          rw [stream_nil, List.append_nil] at same
          exact absurd (same ▸ List.mem_append_right _ List.mem_cons_self) nextFree.2
        | cons following later =>
          rw [stream_cons following] at same
          rcases append_cons_inj_of_not_mem free.2 nextFree.2 same with ⟨content, same⟩
          apply continues_cons_cons.mpr
          refine ⟨following :: later, ?_, ?_⟩
          · cases first
            cases next
            simp only at role content
            rw [role, content]
          · apply ih (List.cons_ne_nil _ _)
            · exact fun message inside => unforged message (List.mem_cons_of_mem _ inside)
            · exact fun message inside =>
                laterUnforged message (List.mem_cons_of_mem _ inside)
            · rw [stream_cons second, stream_cons following, List.cons_prefix_cons]
              exact ⟨rfl, more, same⟩

end Prefixes

def DrawnFrom (roles contents : Set CodePoint) (messages : List TextMessage) : Prop :=
  ∀ message ∈ messages, (∀ c ∈ message.role, c ∈ roles) ∧ ∀ c ∈ message.content, c ∈ contents

def AnchorProves (digest : ByteArray → String) (measured later : List TextMessage) : Prop :=
  ∀ anchor, promptAnchor digest measured = some anchor →
    (anchorHolds digest later anchor = true ↔ Continues measured later) ∧
    ∀ (tracker : PrefillLoadTracker) endpointId tokens affinityKey fingerprint now hint,
      tracker.hint affinityKey endpointId = some hint → hint.anchor = some anchor →
        tracker.uncachedEstimate endpointId tokens (some affinityKey) fingerprint
            (some (anchorHolds digest later)) now < max tokens 0 →
          Continues measured later

section Alphabet

variable {digest : ByteArray → String} {roles contents : Set CodePoint}
  {measured later : List TextMessage}

theorem mem_stream {c : CodePoint} (inside : c ∈ stream measured) : c = roleMark ∨ c = contentMark ∨
      ∃ message ∈ measured, c ∈ message.role ∨ c ∈ message.content := by
  rcases List.mem_flatMap.mp inside with ⟨message, there, inside⟩
  rw [List.cons_append, List.mem_cons, List.mem_append, List.mem_cons] at inside
  rcases inside with rfl | role | rfl | content
  · exact Or.inl rfl
  · exact Or.inr (Or.inr ⟨message, there, Or.inl role⟩)
  · exact Or.inr (Or.inl rfl)
  · exact Or.inr (Or.inr ⟨message, there, Or.inr content⟩)

theorem scalar_stream (drawn : DrawnFrom roles contents measured)
    (scalarRoles : ∀ c ∈ roles, CodePoint.isSurrogate c = false)
    (scalarContents : ∀ c ∈ contents, CodePoint.isSurrogate c = false) :
    PyText.Scalar (stream measured) := by
  intro c inside
  rcases mem_stream inside with rfl | rfl | ⟨message, there, role | content⟩
  · rfl
  · rfl
  · exact scalarRoles c ((drawn message there).1 c role)
  · exact scalarContents c ((drawn message there).2 c content)

theorem unforged_of_drawn (drawn : DrawnFrom roles contents measured)
    (roleFree : contentMark ∉ roles) (contentFree : roleMark ∉ contents) : Unforged measured :=
  fun message there => ⟨fun inside => roleFree ((drawn message there).1 _ inside),
    fun inside => contentFree ((drawn message there).2 _ inside)⟩

theorem anchorHolds_of_continues (injective : Function.Injective digest) {anchor : Anchor}
    (anchored : promptAnchor digest measured = some anchor) (continues : Continues measured later) :
    anchorHolds digest later anchor = true := by
  have shorter := stream_prefix_of_continues continues
  apply (anchorHolds_iff injective anchored).mpr
  exact ⟨shorter.length_le, congrArg _ (List.prefix_iff_eq_take.mp shorter).symm⟩

theorem anchorHolds_of_discount {tracker : PrefillLoadTracker} {endpointId affinityKey : String}
    {tokens : ℤ} {fingerprint : Option String} {now : ℚ} {hint : PrefixHint} {anchor : Anchor}
    {holds : Anchor → Bool} (found : tracker.hint affinityKey endpointId = some hint)
    (anchored : hint.anchor = some anchor)
    (discount : tracker.uncachedEstimate endpointId tokens (some affinityKey) fingerprint
      (some holds) now < max tokens 0) : holds anchor = true := by
  unfold PrefillLoadTracker.uncachedEstimate at discount
  dsimp only at discount
  rw [found] at discount
  simp only [anchored, Option.any_some] at discount
  split_ifs at discount with _ _ fails
  · exact absurd discount (lt_irrefl _)
  · exact absurd discount (lt_irrefl _)
  · exact absurd discount (lt_irrefl _)
  · simpa using fails

section

variable (injective : Function.Injective digest)

include injective

theorem anchorProves_of_unforged
    (drawn : DrawnFrom roles contents measured) (laterDrawn : DrawnFrom roles contents later)
    (roleFree : contentMark ∉ roles) (contentFree : roleMark ∉ contents)
    (scalarRoles : ∀ c ∈ roles, CodePoint.isSurrogate c = false)
    (scalarContents : ∀ c ∈ contents, CodePoint.isSurrogate c = false) :
    AnchorProves digest measured later := by
  intro anchor anchored
  have continues : anchorHolds digest later anchor = true → Continues measured later := by
    intro holds
    rcases (anchorHolds_iff injective anchored).mp holds with ⟨enough, same⟩
    have taken : PyText.Scalar ((stream later).take (stream measured).length) := fun c inside =>
      scalar_stream laterDrawn scalarRoles scalarContents c (List.mem_of_mem_take inside)
    have begins := PyText.encodeIgnoring_injective taken
      (scalar_stream drawn scalarRoles scalarContents) same
    apply continues_of_stream_prefix (promptAnchor_eq_some_iff.mp anchored).1
    · exact unforged_of_drawn drawn roleFree contentFree
    · exact unforged_of_drawn laterDrawn roleFree contentFree
    · rw [← begins]
      exact List.take_prefix _ _
  refine ⟨⟨continues, anchorHolds_of_continues injective anchored⟩, ?_⟩
  intro tracker endpointId tokens affinityKey fingerprint now hint found anchored discount
  exact continues (anchorHolds_of_discount found anchored discount)

theorem not_anchorProves (some_ : measured ≠ [])
    (enough : (stream measured).length ≤ (stream later).length)
    (same : PyText.encodeIgnoring ((stream later).take (stream measured).length) =
      PyText.encodeIgnoring (stream measured))
    (other : ¬Continues measured later) : ¬AnchorProves digest measured later := by
  intro proves
  have anchored : promptAnchor digest measured = some _ :=
    promptAnchor_eq_some_iff.mpr ⟨some_, rfl⟩
  exact other ((proves _ anchored).1.mp ((anchorHolds_iff injective anchored).mpr ⟨enough, same⟩))

theorem role_mark_of_proves (proves : ∀ measured later, DrawnFrom roles contents measured →
      DrawnFrom roles contents later → AnchorProves digest measured later) :
    contentMark ∉ roles := by
  intro allowed
  refine @not_anchorProves digest [⟨[], []⟩] [⟨[contentMark], []⟩] injective (by simp) (by decide)
    rfl ?_ (proves _ _ ?_ ?_)
  · rw [continues_singleton]
    rintro ⟨next, rest, same, role, -⟩
    cases same
    exact List.cons_ne_nil _ _ role
  · simp [DrawnFrom]
  · simpa [DrawnFrom] using allowed

theorem content_mark_of_proves (proves : ∀ measured later, DrawnFrom roles contents measured →
      DrawnFrom roles contents later → AnchorProves digest measured later) :
    roleMark ∉ contents := by
  intro allowed
  refine @not_anchorProves digest [⟨[], [roleMark]⟩] [⟨[], []⟩, ⟨[], []⟩] injective (by simp)
    (by decide) rfl ?_ (proves _ _ ?_ ?_)
  · rw [continues_singleton]
    rintro ⟨next, rest, same, -, content⟩
    cases same
    exact List.cons_ne_nil _ _ (List.prefix_nil.mp content)
  · simpa [DrawnFrom] using allowed
  · simp [DrawnFrom]

end

theorem encodeIgnoring_swap {c : CodePoint} (surrogate : c.isSurrogate = true)
    (one another : PyText) :
    PyText.encodeIgnoring (one ++ c :: another) = PyText.encodeIgnoring (one ++ another) := by
  rw [PyText.encodeIgnoring_append, PyText.encodeIgnoring_append,
    PyText.encodeIgnoring_surrogate surrogate]

theorem role_scalar_of_proves (injective : Function.Injective digest)
    (proves : ∀ measured later, DrawnFrom roles contents measured →
      DrawnFrom roles contents later → AnchorProves digest measured later) :
    ∀ c ∈ roles, CodePoint.isSurrogate c = false := by
  intro c allowed
  rw [← Bool.not_eq_true]
  intro surrogate
  refine @not_anchorProves digest [⟨[c], []⟩, ⟨[], []⟩] [⟨[], []⟩, ⟨[c], []⟩] injective (by simp)
    ?_ ?_ ?_ (proves _ _ ?_ ?_)
  · simp [stream]
  · have one := encodeIgnoring_swap surrogate [roleMark] [contentMark, roleMark, contentMark]
    have another := encodeIgnoring_swap surrogate [roleMark, contentMark, roleMark] [contentMark]
    exact another.trans one.symm
  · rintro ⟨-, same, -⟩
    simp at same
  · simpa [DrawnFrom] using allowed
  · simpa [DrawnFrom] using allowed

theorem content_scalar_of_proves (injective : Function.Injective digest)
    (proves : ∀ measured later, DrawnFrom roles contents measured →
      DrawnFrom roles contents later → AnchorProves digest measured later) :
    ∀ c ∈ contents, CodePoint.isSurrogate c = false := by
  intro c allowed
  rw [← Bool.not_eq_true]
  intro surrogate
  refine @not_anchorProves digest [⟨[], [c]⟩, ⟨[], []⟩] [⟨[], []⟩, ⟨[], [c]⟩] injective (by simp)
    ?_ ?_ ?_ (proves _ _ ?_ ?_)
  · simp [stream]
  · have one := encodeIgnoring_swap surrogate [roleMark, contentMark] [roleMark, contentMark]
    have another := encodeIgnoring_swap surrogate [roleMark, contentMark, roleMark, contentMark] []
    exact another.trans one.symm
  · rintro ⟨-, same, -⟩
    simp at same
  · simpa [DrawnFrom] using allowed
  · simpa [DrawnFrom] using allowed

/-- With an injective digest, the anchor proves a prefix for all prompts over some characters
exactly when none can be taken for the marks around a message. -/
theorem anchor_proves_prefix_iff (injective : Function.Injective digest) :
    (∀ measured later, DrawnFrom roles contents measured → DrawnFrom roles contents later →
      AnchorProves digest measured later) ↔
    contentMark ∉ roles ∧ roleMark ∉ contents ∧ (∀ c ∈ roles, CodePoint.isSurrogate c = false) ∧
      ∀ c ∈ contents, CodePoint.isSurrogate c = false := by
  constructor
  · intro proves
    exact ⟨role_mark_of_proves injective proves, content_mark_of_proves injective proves,
      role_scalar_of_proves injective proves, content_scalar_of_proves injective proves⟩
  · rintro ⟨roleFree, contentFree, scalarRoles, scalarContents⟩ measured later drawn laterDrawn
    exact anchorProves_of_unforged injective drawn laterDrawn roleFree contentFree scalarRoles
      scalarContents

end Alphabet

def keptBytes (bytes : ByteArray) : String :=
  String.ofList (bytes.data.toList.map Char.ofUInt8)

theorem keptBytes_injective : Function.Injective keptBytes := by
  intro one another same
  have characters := String.ofList_injective same
  have byte : Function.Injective Char.ofUInt8 := by
    intro first second equal
    exact UInt8.toUInt32_inj.mp (congrArg Char.val equal)
  have bytes := List.map_injective_iff.mpr byte characters
  exact ByteArray.ext (Array.toList_inj.mp bytes)

/-- Prompts of the roles "u" and "a" and contents of the letters of "hi". -/
theorem anchor_proves_prefix_iff_letters : AnchorProves keptBytes [⟨[117], [104]⟩, ⟨[97], [105]⟩]
      [⟨[117], [104]⟩, ⟨[97], [105, 104]⟩, ⟨[117], [105]⟩] := by
  have roles : ∀ c : CodePoint, c ∈ ({117, 97} : Set CodePoint) → c = 117 ∨ c = 97 :=
    fun _ inside => inside
  have contents : ∀ c : CodePoint, c ∈ ({104, 105} : Set CodePoint) → c = 104 ∨ c = 105 :=
    fun _ inside => inside
  have measured : DrawnFrom {117, 97} {104, 105} [⟨[117], [104]⟩, ⟨[97], [105]⟩] := by
    simp [DrawnFrom]
  have later : DrawnFrom {117, 97} {104, 105}
      [⟨[117], [104]⟩, ⟨[97], [105, 104]⟩, ⟨[117], [105]⟩] := by
    simp [DrawnFrom]
  apply (@anchor_proves_prefix_iff keptBytes _ _ keptBytes_injective).mpr _ _ _ measured later
  refine ⟨?_, ?_, ?_, ?_⟩
  · intro inside
    rcases roles _ inside with same | same
    · exact absurd same (by decide)
    · exact absurd same (by decide)
  · intro inside
    rcases contents _ inside with same | same
    · exact absurd same (by decide)
    · exact absurd same (by decide)
  · intro c inside
    rcases roles c inside with rfl | rfl
    · rfl
    · rfl
  · intro c inside
    rcases contents c inside with rfl | rfl
    · rfl
    · rfl

/-- A message that ends with U+0001 is taken for one that ends before it and is followed by another
message. -/
theorem changed_prompt_has_the_anchor :
    ∃ anchor, promptAnchor keptBytes [⟨[117], [104, 105, 1]⟩] = some anchor ∧
      anchorHolds keptBytes [⟨[117], [104, 105]⟩, ⟨[97], [104, 111]⟩] anchor = true ∧
      ¬Continues [⟨[117], [104, 105, 1]⟩] [⟨[117], [104, 105]⟩, ⟨[97], [104, 111]⟩] := by
  have anchored : promptAnchor keptBytes [⟨[117], [104, 105, 1]⟩] = some _ :=
    promptAnchor_eq_some_iff.mpr ⟨List.cons_ne_nil _ _, rfl⟩
  refine ⟨_, anchored, ?_, ?_⟩
  · exact (anchorHolds_iff keptBytes_injective anchored).mpr ⟨by decide, rfl⟩
  · rw [continues_singleton]
    rintro ⟨next, rest, same, -, content⟩
    cases same
    exact absurd content.length_le (by decide)

end HybridInference.Prefill
