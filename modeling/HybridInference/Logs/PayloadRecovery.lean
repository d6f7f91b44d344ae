import HybridInference.Logs.PayloadDedup

/-!
# What de-duplication loses

A row gives back what a client sent except where the client's own `messages_extra` is taken for
what the encoder leaves there: the encoder keeps the messages when it has fields to write under
that name, and drops them when it has none.
-/

namespace HybridInference.Logs

open Library

/-- What `messages_extra` has for the message of an index. -/
def extraAt (extra : Option Value) (index : ℕ) : Option Fields :=
  ((extra.bind asList).bind fun items => items[index]?).bind asDict

def extraField (extra : Option Value) (index : ℕ) (name : String) : Option Value :=
  (extraAt extra index).bind fun fields => fields.lookup name

def Lossless (pairs : List (Fields × Fields)) : Prop :=
  ∀ pair ∈ pairs, residual pair.1 pair.2 = []

instance (pairs : List (Fields × Fields)) : Decidable (Lossless pairs) :=
  inferInstanceAs (Decidable (∀ pair ∈ pairs, residual pair.1 pair.2 = []))

def DistinctFields (body : Fields) : Prop :=
  ∀ sent messages, body.lookup "messages" = some sent → asList sent = some messages →
    ∀ message ∈ messages, ∀ fields, asDict message = some fields → OrderedDict.Distinct fields

theorem asList_eq_some {value : Value} {items : List Value} (list : asList value = some items) :
    value = .arr items := by
  cases value <;> simp_all [asList]

theorem asDict_eq_some {value : Value} {fields : Fields} (dict : asDict value = some fields) :
    value = .obj fields := by
  cases value <;> simp_all [asDict]

variable {pairs : List (Fields × Fields)}

theorem zip_of_mapM {sent stored : List Value} (length : sent.length = stored.length)
    (mapped : ((sent.zip stored).mapM fun pair =>
      (asDict pair.1).bind fun sent => (asDict pair.2).map fun stored => (sent, stored)) =
        some pairs) :
    sent = pairs.map (fun pair => Value.obj pair.1) ∧
      stored = pairs.map fun pair => Value.obj pair.2 := by
  induction sent generalizing stored pairs with
  | nil =>
    rw [List.length_nil, eq_comm, List.length_eq_zero_iff] at length
    subst length
    simp only [List.zip_nil_left, List.mapM_nil, Option.pure_def, Option.some.injEq] at mapped
    subst mapped
    exact ⟨rfl, rfl⟩
  | cons first rest ih =>
    cases stored with
    | nil => simp at length
    | cons other others =>
      rw [List.zip_cons_cons, List.mapM_cons] at mapped
      simp only [Option.bind_eq_bind, Option.bind_eq_some_iff, Option.map_eq_some_iff,
        Option.pure_def, Option.some.injEq] at mapped
      rcases mapped with ⟨pair, ⟨sentFields, firstDict, storedFields, otherDict, rfl⟩, later,
        laterMapped, rfl⟩
      rcases ih (Nat.succ.inj length) laterMapped with ⟨sentLater, storedLater⟩
      rw [asDict_eq_some firstDict, asDict_eq_some otherDict, sentLater, storedLater]
      exact ⟨rfl, rfl⟩

theorem aligned_spec {sent stored : Value} (pairing : aligned sent stored = some pairs) :
    sent = .arr (pairs.map fun pair => .obj pair.1) ∧
      stored = .arr (pairs.map fun pair => .obj pair.2) := by
  unfold aligned at pairing
  rw [Option.bind_eq_some_iff] at pairing
  rcases pairing with ⟨sentItems, sentList, pairing⟩
  rw [Option.bind_eq_some_iff] at pairing
  rcases pairing with ⟨storedItems, storedList, pairing⟩
  split_ifs at pairing with length
  rcases zip_of_mapM length pairing with ⟨sentPairs, storedPairs⟩
  rw [asList_eq_some sentList, asList_eq_some storedList, sentPairs, storedPairs]
  exact ⟨rfl, rfl⟩

theorem messageResiduals_of_lossless {sent stored : Value}
    (pairing : aligned sent stored = some pairs) (lossless : Lossless pairs) :
    messageResiduals sent stored = (true, none) := by
  unfold messageResiduals
  rw [pairing]
  dsimp only
  rw [if_neg]
  rw [List.any_eq_true]
  rintro ⟨fields, inside, some_⟩
  rcases List.mem_map.mp inside with ⟨pair, there, rfl⟩
  rw [lossless pair there] at some_
  exact Bool.noConfusion some_

theorem messageResiduals_of_not_lossless {sent stored : Value}
    (pairing : aligned sent stored = some pairs) (lossy : ¬Lossless pairs) :
    messageResiduals sent stored = (true, some (pairs.map fun pair => residual pair.1 pair.2)) := by
  unfold messageResiduals
  rw [pairing]
  dsimp only
  rw [if_pos]
  rw [List.any_eq_true]
  unfold Lossless at lossy
  push Not at lossy
  rcases lossy with ⟨pair, there, some_⟩
  refine ⟨residual pair.1 pair.2, List.mem_map_of_mem there, ?_⟩
  rw [Bool.not_eq_true', List.isEmpty_eq_false_iff]
  exact some_

theorem messageResiduals_of_not_aligned {sent stored : Value}
    (apart : aligned sent stored = none) : messageResiduals sent stored = (false, none) := by
  unfold messageResiduals
  rw [apart]

theorem lookup_overlayFields (fields extra : Fields) (name : String) :
    (overlayFields fields extra).lookup name = (extra.lookup name).or (fields.lookup name) := by
  unfold overlayFields
  induction extra with
  | nil => rfl
  | cons field rest ih =>
    rw [List.foldr_cons, OrderedDict.lookup_assign, OrderedDict.lookup_eq_ite, ih]
    split_ifs <;> rfl

/-- A dictionary with what an index of `messages_extra` adds to it. -/
def overlaidAt (extra : Option Value) (index : ℕ) (fields : Fields) : Fields :=
  ((extraAt extra index).map (overlayFields fields)).getD fields

theorem lookup_overlaidAt (extra : Option Value) (index : ℕ) (fields : Fields) (name : String) :
    (overlaidAt extra index fields).lookup name =
      (extraField extra index name).or (fields.lookup name) := by
  unfold overlaidAt extraField
  cases extraAt extra index with
  | none => rfl
  | some added => exact lookup_overlayFields fields added name

theorem overlay_pairs (pairs : List (Fields × Fields)) (extra : Option Value) :
    overlay (.arr (pairs.map fun pair => .obj pair.2)) extra =
      .arr (pairs.mapIdx fun index pair => .obj (overlaidAt extra index pair.2)) := by
  unfold overlay
  cases list : extra.bind asList with
  | none =>
    have alone : ∀ index, extraAt extra index = none := by
      intro index
      unfold extraAt
      rw [list]
      rfl
    dsimp only [asList]
    congr 1
    apply List.ext_getElem?
    intro index
    simp [overlaidAt, alone]
  | some extras =>
    dsimp only [asList]
    congr 1
    apply List.ext_getElem?
    intro index
    rw [List.getElem?_mapIdx, List.getElem?_map, List.getElem?_mapIdx, Option.map_map]
    congr 1
    funext pair
    unfold Function.comp overlayMessage overlaidAt extraAt
    rw [list]
    dsimp only [asDict, Option.bind_some]
    cases extras[index]?.bind asDict with
    | none => rfl
    | some added => rfl

/-- The messages read back are the sent ones exactly when each field is found, in `messages_extra`
or else in the stored message, with the value that was sent. -/
theorem messagesRecovered_overlay_iff (same : Value → Value → Prop)
    (pairs : List (Fields × Fields)) (extra : Option Value) :
    MessagesRecovered same (.arr (pairs.map fun pair => .obj pair.1))
        (overlay (.arr (pairs.map fun pair => .obj pair.2)) extra) ↔
      ∀ (index : ℕ) pair, pairs[index]? = some pair → ∀ name value,
        pair.1.lookup name = some value →
          ∃ read, (extraField extra index name).or (pair.2.lookup name) = some read ∧
            same value read := by
  rw [overlay_pairs]
  unfold MessagesRecovered
  dsimp only [asList]
  have message : ∀ (index : ℕ) (pair : Fields × Fields),
      MessageRecovered same (.obj pair.1) (.obj (overlaidAt extra index pair.2)) ↔
        ∀ name value, pair.1.lookup name = some value →
          ∃ read, (extraField extra index name).or (pair.2.lookup name) = some read ∧
            same value read := by
    intro index pair
    unfold MessageRecovered
    dsimp only [asDict]
    simp only [Option.some.injEq, exists_eq_left', lookup_overlaidAt]
  simp only [Option.some.injEq, exists_eq_left']
  rw [List.forall₂_iff_get]
  constructor
  · rintro ⟨-, each⟩ index pair there
    rcases List.getElem?_eq_some_iff.mp there with ⟨within, found⟩
    rw [← message]
    have recovered := each index (by simpa using within) (by simpa using within)
    simpa [found] using recovered
  · intro each
    refine ⟨by simp, ?_⟩
    intro index within _
    rw [List.length_map] at within
    have recovered := (message index pairs[index]).mpr
      (each index pairs[index] (List.getElem?_eq_getElem within))
    simpa using recovered

section Strip

variable {body : Fields} {storedMessages storedTools : Value}

theorem stripDuplicatedPayloadKeys_eq (body : Fields) (storedMessages storedTools : Value) :
    stripDuplicatedPayloadKeys body storedMessages storedTools =
      stripDict body storedMessages storedTools := by
  unfold stripDuplicatedPayloadKeys
  split_ifs with has
  · rfl
  · simp only [List.any_cons, List.any_nil, Bool.or_false, Bool.or_eq_true, not_or,
      Bool.not_eq_true, Option.isSome_eq_false_iff, Option.isNone_iff_eq_none] at has
    have messages : stripMessages body storedMessages = body := by
      unfold stripMessages
      rw [has.1]
    unfold stripDict
    dsimp only
    rw [messages, has.2]

/-- The messages are kept, dropped, or replaced by the residuals of an aligned row. -/
theorem stripMessages_cases (body : Fields) (storedMessages : Value) :
    stripMessages body storedMessages = body ∧ (∀ sent pairs,
        body.lookup "messages" = some sent → aligned sent storedMessages = some pairs →
          ¬Lossless pairs ∧ (body.lookup messageResidualKey).isSome = true) ∨
      ∃ sent pairs, body.lookup "messages" = some sent ∧ aligned sent storedMessages = some pairs ∧
        ((Lossless pairs ∧ stripMessages body storedMessages = OrderedDict.remove "messages" body) ∨
          (¬Lossless pairs ∧ body.lookup messageResidualKey = none ∧
            stripMessages body storedMessages = OrderedDict.assign messageResidualKey
                (.arr (pairs.map fun pair => .obj (residual pair.1 pair.2)))
                (OrderedDict.remove "messages" body))) := by
  unfold stripMessages
  cases found : body.lookup "messages" with
  | none =>
    refine Or.inl ⟨rfl, ?_⟩
    intro sent pairs there
    exact absurd there.symm (Option.some_ne_none sent)
  | some sent =>
    dsimp only
    cases pairing : aligned sent storedMessages with
    | none =>
      rw [messageResiduals_of_not_aligned pairing]
      refine Or.inl ⟨rfl, ?_⟩
      intro other pairs there alignedPairs
      rw [Option.some.injEq] at there
      rw [← there, pairing] at alignedPairs
      exact absurd alignedPairs.symm (Option.some_ne_none pairs)
    | some pairs =>
      by_cases lossless : Lossless pairs
      · rw [messageResiduals_of_lossless pairing lossless]
        exact Or.inr ⟨sent, pairs, rfl, pairing, Or.inl ⟨lossless, rfl⟩⟩
      · rw [messageResiduals_of_not_lossless pairing lossless]
        dsimp only
        cases own : body.lookup messageResidualKey with
        | some extra =>
          refine Or.inl ⟨rfl, ?_⟩
          intro other otherPairs there alignedPairs
          rw [Option.some.injEq] at there
          rw [← there, pairing, Option.some.injEq] at alignedPairs
          exact ⟨alignedPairs ▸ lossless, rfl⟩
        | none =>
          refine Or.inr ⟨sent, pairs, rfl, pairing, Or.inr ⟨lossless, rfl, ?_⟩⟩
          rw [List.map_map]
          rfl

theorem lookup_stripMessages {key : String} (notMessages : key ≠ "messages")
    (kept : key = messageResidualKey → (body.lookup messageResidualKey).isSome = true) :
    (stripMessages body storedMessages).lookup key = body.lookup key := by
  rcases stripMessages_cases body storedMessages with ⟨stays, -⟩ | ⟨sent, pairs, -, -,
    ⟨-, dropped⟩ | ⟨-, own, replaced⟩⟩
  · rw [stays]
  · rw [dropped, OrderedDict.lookup_remove, if_neg notMessages]
  · rw [replaced, OrderedDict.lookup_assign, OrderedDict.lookup_remove, if_neg notMessages, if_neg]
    intro same
    have some_ := kept same
    rw [own] at some_
    exact Bool.noConfusion some_

theorem lookup_stripDict {key : String} (notTools : key ≠ "tools") :
    (stripDict body storedMessages storedTools).lookup key =
      (stripMessages body storedMessages).lookup key := by
  unfold stripDict
  dsimp only
  cases (stripMessages body storedMessages).lookup "tools" with
  | none => rfl
  | some tools =>
    dsimp only
    split_ifs
    · rw [OrderedDict.lookup_remove, if_neg notTools]
    · rfl

theorem lookup_tools_stripDict : (stripDict body storedMessages storedTools).lookup "tools" =
      (body.lookup "tools").filter fun tools =>
        !(storedTools.isTruthy && tools.equal storedTools) := by
  have same : (stripMessages body storedMessages).lookup "tools" = body.lookup "tools" :=
    lookup_stripMessages (by decide) fun residual => absurd residual (by decide)
  unfold stripDict
  dsimp only
  cases found : (stripMessages body storedMessages).lookup "tools" with
  | none =>
    rw [← same, found]
    rfl
  | some tools =>
    rw [← same, found, Option.filter_some]
    dsimp only
    by_cases stored : (storedTools.isTruthy && tools.equal storedTools) = true
    · rw [if_pos stored, stored, OrderedDict.lookup_remove, if_pos rfl]
      rfl
    · rw [if_neg stored, found]
      rw [Bool.not_eq_true] at stored
      rw [stored]
      rfl

theorem readMessages_stripDict :
    readMessages (stripDict body storedMessages storedTools) storedMessages =
      readMessages (stripMessages body storedMessages) storedMessages := by
  unfold readMessages
  rw [lookup_stripDict (by decide), lookup_stripDict (by decide)]

end Strip

section Residual

variable {sent stored : Fields} {name : String} {value : Value}

theorem lookup_residual (distinct : OrderedDict.Distinct sent)
    (found : sent.lookup name = some value) :
    (residual sent stored).lookup name =
      if (stored.lookup name).any (fun kept => kept.equal value) then none else some value := by
  have inside := OrderedDict.mem_of_lookup found
  have apart : OrderedDict.Distinct (residual sent stored) :=
    distinct.sublist List.filter_sublist
  by_cases equal : (stored.lookup name).any (fun kept => kept.equal value) = true
  · rw [if_pos equal, OrderedDict.lookup_eq_none_iff]
    intro there
    rcases List.mem_map.mp there with ⟨field, stays, rfl⟩
    rcases List.mem_filter.mp stays with ⟨member, differs⟩
    have same := OrderedDict.lookup_of_mem distinct member
    rw [found, Option.some.injEq] at same
    cases kept : stored.lookup field.1 with
    | none =>
      rw [kept] at equal
      exact Bool.noConfusion equal
    | some other =>
      rw [kept, Option.any_some] at equal
      rw [kept, ← same] at differs
      dsimp only at differs
      rw [equal] at differs
      exact Bool.noConfusion differs
  · rw [if_neg equal]
    have member : (name, value) ∈ residual sent stored → _ := OrderedDict.lookup_of_mem apart
    refine member (List.mem_filter.mpr ⟨inside, ?_⟩)
    rw [Bool.not_eq_true] at equal
    cases kept : stored.lookup name with
    | none => rfl
    | some other =>
      rw [kept] at equal
      dsimp only [Option.any_some] at equal
      dsimp only
      rw [equal]
      rfl

theorem lookup_of_residual_nil (lossless : residual sent stored = [])
    (found : sent.lookup name = some value) :
    ∃ kept, stored.lookup name = some kept ∧ kept.equal value = true := by
  have inside := OrderedDict.mem_of_lookup found
  have gone := List.filter_eq_nil_iff.mp lossless (name, value) inside
  cases kept : stored.lookup name with
  | none =>
    rw [kept] at gone
    exact absurd rfl gone
  | some other =>
    rw [kept] at gone
    refine ⟨other, rfl, ?_⟩
    simpa using gone

end Residual

/-- What the stored columns must hold for the payload to be recovered. -/
structure Recoverable (same : Value → Value → Prop) (body : Fields)
    (storedMessages storedTools : Value) : Prop where
  /-- The columns hold nothing that was not sent. -/
  noMessages : body.lookup "messages" = none → storedMessages = .null
  noTools : body.lookup "tools" = none → storedTools = .null
  /-- Where a message list is dropped, a field that Python takes for equal to the stored one is the
  same value, unless the client's own `messages_extra` has the field. -/
  equalFields : ∀ sent pairs, body.lookup "messages" = some sent →
    aligned sent storedMessages = some pairs →
      (Lossless pairs ∨ body.lookup messageResidualKey = none) →
        ∀ (index : ℕ) pair, pairs[index]? = some pair → ∀ name value kept,
          pair.1.lookup name = some value → pair.2.lookup name = some kept →
            kept.equal value = true →
              extraField (body.lookup messageResidualKey) index name = none → same value kept
  equalTools : ∀ sent, body.lookup "tools" = some sent →
    storedTools.isTruthy = true → sent.equal storedTools = true → same sent storedTools
  /-- When the messages were stored losslessly, the client's own `messages_extra` has no field of
  the message of its index under another value. -/
  ownExtra : ∀ sent pairs, body.lookup "messages" = some sent →
    aligned sent storedMessages = some pairs → Lossless pairs →
      ∀ (index : ℕ) pair, pairs[index]? = some pair → ∀ name value other,
        pair.1.lookup name = some value →
          extraField (body.lookup messageResidualKey) index name = some other → same value other

section Iff

variable {same : Value → Value → Prop} {body : Fields} {storedMessages storedTools : Value}

theorem messagesRecovered_refl (refl : ∀ value, same value value) (sent : Value) :
    MessagesRecovered same sent sent := by
  unfold MessagesRecovered
  cases list : asList sent with
  | none => rfl
  | some messages =>
    refine ⟨messages, rfl, List.forall₂_same.mpr ?_⟩
    intro message _
    unfold MessageRecovered
    cases dict : asDict message with
    | none => rfl
    | some fields => exact ⟨fields, rfl, fun name value found => ⟨value, found, refl value⟩⟩

def MessagesRecoverable (same : Value → Value → Prop) (extra : Option Value)
    (pairs : List (Fields × Fields)) : Prop :=
  ∀ (index : ℕ) pair, pairs[index]? = some pair → ∀ name value, pair.1.lookup name = some value →
    (∀ other, extraField extra index name = some other → same value other) ∧
    ∀ kept, pair.2.lookup name = some kept → kept.equal value = true →
      extraField extra index name = none → same value kept

theorem messagesRecovered_of_lossless_iff {extra : Option Value} (lossless : Lossless pairs) :
    MessagesRecovered same (.arr (pairs.map fun pair => .obj pair.1))
        (overlay (.arr (pairs.map fun pair => .obj pair.2)) extra) ↔
      MessagesRecoverable same extra pairs := by
  rw [messagesRecovered_overlay_iff]
  apply forall_congr'
  intro index
  apply forall_congr'
  intro pair
  apply imp_congr_right
  intro there
  apply forall_congr'
  intro name
  apply forall_congr'
  intro value
  apply imp_congr_right
  intro found
  rcases lookup_of_residual_nil (lossless pair (List.mem_of_getElem? there)) found with
    ⟨kept, keptThere, equal⟩
  cases own : extraField extra index name with
  | some other => simp
  | none => simp [keptThere, equal]

theorem extraField_residuals {index : ℕ} {pair : Fields × Fields}
    (there : pairs[index]? = some pair) (name : String) :
    extraField (some (.arr (pairs.map fun pair => .obj (residual pair.1 pair.2)))) index name =
      (residual pair.1 pair.2).lookup name := by
  unfold extraField extraAt
  rw [Option.bind_some]
  dsimp only [asList]
  rw [Option.bind_some, List.getElem?_map, there]
  rfl

theorem messagesRecovered_of_residuals_iff (refl : ∀ value, same value value)
    (distinct : ∀ pair ∈ pairs, OrderedDict.Distinct pair.1) :
    MessagesRecovered same (.arr (pairs.map fun pair => .obj pair.1))
        (overlay (.arr (pairs.map fun pair => .obj pair.2))
          (some (.arr (pairs.map fun pair => .obj (residual pair.1 pair.2))))) ↔
      MessagesRecoverable same none pairs := by
  rw [messagesRecovered_overlay_iff]
  apply forall_congr'
  intro index
  apply forall_congr'
  intro pair
  apply imp_congr_right
  intro there
  apply forall_congr'
  intro name
  apply forall_congr'
  intro value
  apply imp_congr_right
  intro found
  rw [extraField_residuals there,
    lookup_residual (distinct pair (List.mem_of_getElem? there)) found]
  have alone : extraField none index name = none := rfl
  cases kept : pair.2.lookup name with
  | none =>
    simp [alone, refl]
  | some other =>
    rw [Option.any_some]
    by_cases equal : other.equal value = true
    · rw [if_pos equal]
      simp [alone, equal]
    · rw [if_neg equal]
      simp [alone, equal, refl]

theorem messages_recovered_iff (refl : ∀ value, same value value) (distinct : DistinctFields body) :
    (∀ sent, body.lookup "messages" = some sent → MessagesRecovered same sent
      (readMessages (stripMessages body storedMessages) storedMessages)) ↔
    ∀ sent pairs, body.lookup "messages" = some sent → aligned sent storedMessages = some pairs →
      (Lossless pairs ∨ body.lookup messageResidualKey = none) →
        MessagesRecoverable same (body.lookup messageResidualKey) pairs := by
  rcases stripMessages_cases body storedMessages with ⟨stays, kept⟩ | ⟨sent, pairs, found, pairing,
    stripped⟩
  · constructor
    · intro _ sent pairs found pairing dropped
      rcases kept sent pairs found pairing with ⟨lossy, own⟩
      rcases dropped with lossless | none_
      · exact absurd lossless lossy
      · rw [none_] at own
        exact Bool.noConfusion own
    · intro _ sent found
      unfold readMessages
      rw [stays, found]
      exact messagesRecovered_refl refl sent
  · have only : (∀ other, body.lookup "messages" = some other → MessagesRecovered same other
        (readMessages (stripMessages body storedMessages) storedMessages)) ↔
        MessagesRecovered same sent
          (readMessages (stripMessages body storedMessages) storedMessages) := by
      rw [found]
      simp only [Option.some.injEq, forall_eq']
    have onlyPairs : (∀ other otherPairs, body.lookup "messages" = some other →
        aligned other storedMessages = some otherPairs →
          (Lossless otherPairs ∨ body.lookup messageResidualKey = none) →
            MessagesRecoverable same (body.lookup messageResidualKey) otherPairs) ↔
        ((Lossless pairs ∨ body.lookup messageResidualKey = none) →
          MessagesRecoverable same (body.lookup messageResidualKey) pairs) := by
      constructor
      · exact fun each => each sent pairs found pairing
      · intro here other otherPairs otherFound otherPairing
        rw [found, Option.some.injEq] at otherFound
        rw [← otherFound, pairing, Option.some.injEq] at otherPairing
        exact otherPairing ▸ here
    rw [only, onlyPairs]
    rcases aligned_spec pairing with ⟨rfl, rfl⟩
    have away : "messages" ≠ messageResidualKey := by decide
    rcases stripped with ⟨lossless, dropped⟩ | ⟨lossy, own, replaced⟩
    · unfold readMessages
      rw [dropped, OrderedDict.lookup_remove, if_pos rfl, OrderedDict.lookup_remove,
        if_neg (Ne.symm away)]
      dsimp only
      rw [messagesRecovered_of_lossless_iff lossless]
      simp only [lossless, true_or, true_imp_iff]
    · have each : ∀ pair ∈ pairs, OrderedDict.Distinct pair.1 := by
        intro pair there
        apply distinct _ _ found rfl (.obj pair.1)
        · exact List.mem_map_of_mem (f := fun pair => Value.obj pair.1) there
        · rfl
      unfold readMessages
      rw [replaced, OrderedDict.lookup_assign, if_neg away, OrderedDict.lookup_remove, if_pos rfl,
        OrderedDict.lookup_assign, if_pos rfl]
      dsimp only
      rw [messagesRecovered_of_residuals_iff refl each, own]
      simp only [or_true, true_imp_iff]

theorem overlay_eq_null_iff {stored : Value} {extra : Option Value} :
    overlay stored extra = .null ↔ stored = .null := by
  unfold overlay
  cases list : asList stored with
  | none => rfl
  | some messages =>
    rw [asList_eq_some list]
    cases extra.bind asList with
    | none => simp
    | some extras => simp

/-- A row gives back what a client sent exactly when its columns hold nothing else, equal values are
the same, and the client's own `messages_extra` is not taken for the encoder's. -/
theorem payload_recovered_iff (refl : ∀ value, same value value) (distinct : DistinctFields body) :
    Recovered same body storedMessages storedTools ↔
      Recoverable same body storedMessages storedTools := by
  have read : ∀ sent, body.lookup "tools" = some sent →
      readTools (stripDict body storedMessages storedTools) storedTools =
        if storedTools.isTruthy && sent.equal storedTools then storedTools else sent := by
    intro sent found
    unfold readTools
    rw [lookup_tools_stripDict, found, Option.filter_some]
    cases storedTools.isTruthy && sent.equal storedTools <;> rfl
  have unsent : body.lookup "tools" = none →
      readTools (stripDict body storedMessages storedTools) storedTools = storedTools := by
    intro missing
    unfold readTools
    rw [lookup_tools_stripDict, missing]
    rfl
  have unsentMessages : body.lookup "messages" = none →
      (readMessages (stripDict body storedMessages storedTools) storedMessages = .null ↔
        storedMessages = .null) := by
    intro missing
    have stays : stripMessages body storedMessages = body := by
      unfold stripMessages
      rw [missing]
    rw [readMessages_stripDict, stays]
    unfold readMessages
    rw [missing]
    exact overlay_eq_null_iff
  constructor
  · intro recovered
    rcases recovered with ⟨messages, noMessages, tools, noTools, -⟩
    rw [stripDuplicatedPayloadKeys_eq] at messages noMessages tools noTools
    rw [readMessages_stripDict] at messages
    have each := (messages_recovered_iff refl distinct).mp messages
    refine ⟨fun missing => (unsentMessages missing).mp (noMessages missing),
      fun missing => unsent missing ▸ noTools missing, ?_, ?_, ?_⟩
    · intro sent pairs found pairing dropped index pair there name value kept sentThere keptThere
        equal alone
      exact (each sent pairs found pairing dropped index pair there name value sentThere).2 kept
        keptThere equal alone
    · intro sent found truthy equal
      have back := tools sent found
      rw [read sent found, truthy, equal] at back
      exact back
    · intro sent pairs found pairing lossless index pair there name value other sentThere own
      exact (each sent pairs found pairing (Or.inl lossless) index pair there name value
        sentThere).1 other own
  · intro recoverable
    refine ⟨?_, ?_, ?_, ?_, ?_⟩
    all_goals rw [stripDuplicatedPayloadKeys_eq]
    · rw [readMessages_stripDict]
      apply (messages_recovered_iff refl distinct).mpr
      intro sent pairs found pairing dropped index pair there name value sentThere
      constructor
      · intro other own
        rcases dropped with lossless | none_
        · exact recoverable.ownExtra sent pairs found pairing lossless index pair there name value
            other sentThere own
        · rw [none_] at own
          exact absurd own.symm (Option.some_ne_none other)
      · intro kept keptThere equal alone
        exact recoverable.equalFields sent pairs found pairing dropped index pair there name value
          kept sentThere keptThere equal alone
    · exact fun missing => (unsentMessages missing).mpr (recoverable.noMessages missing)
    · intro sent found
      rw [read sent found]
      split_ifs with stored
      · rw [Bool.and_eq_true] at stored
        exact recoverable.equalTools sent found stored.1 stored.2
      · exact refl sent
    · exact fun missing => (unsent missing).trans (recoverable.noTools missing)
    · intro key notMessages notTools value found
      rw [lookup_stripDict notTools, lookup_stripMessages notMessages]
      · exact found
      · rintro rfl
        rw [found]
        rfl

end Iff

/-- A message with a field that its column did not keep. -/
theorem payload_recovered_iff_residual_field : Recovered Eq
      [("messages", .arr [.obj [("role", .str "user"), ("prefix", .bool true)]]),
        ("model", .str "m")]
      (.arr [.obj [("role", .str "user")]]) .null := by
  apply (payload_recovered_iff (fun _ => rfl) ?_).mpr
  · refine ⟨?_, fun _ => rfl, ?_, ?_, ?_⟩
    · intro missing
      exact absurd missing (by decide)
    · intro sent pairs found pairing _ index pair there name value kept sentThere keptThere equal _
      cases found
      obtain rfl : pairs = [([("role", .str "user"), ("prefix", .bool true)],
          [("role", .str "user")])] := (Option.some.inj pairing).symm
      have first : index = 0 := by
        have within := (List.getElem?_eq_some_iff.mp there).1
        rw [List.length_singleton] at within
        omega
      subst first
      cases there
      have role : name = "role" := by
        by_contra other
        rw [OrderedDict.lookup_eq_ite, if_neg other] at keptThere
        exact Option.some_ne_none kept keptThere.symm
      subst role
      cases sentThere
      cases keptThere
      rfl
    · intro sent found
      exact absurd found (by simp [List.lookup_cons])
    · intro sent pairs _ _ _ index pair _ name value other _ own
      exact absurd own (by simp [extraField, extraAt, messageResidualKey, List.lookup_cons])
  · intro sent messages found list message there fields dict
    cases found
    cases list
    rw [List.mem_singleton] at there
    subst there
    cases dict
    unfold OrderedDict.Distinct
    decide

/-- A client that sends its own `messages_extra` with messages that are stored losslessly reads its
message back with another role. -/
theorem own_messages_extra_is_overlaid :
    ¬Recovered (fun sent read => sent = read ∨ sent.equal read = true)
      [("messages", .arr [.obj [("role", .str "user"), ("content", .str "hi")]]),
        ("messages_extra", .arr [.obj [("role", .str "system")]])]
      (.arr [.obj [("role", .str "user"), ("content", .str "hi")]]) .null := by
  intro recovered
  rcases recovered.messages _ rfl with ⟨found, list, each⟩
  cases list
  rcases List.forall₂_cons_left_iff.mp each with ⟨message, rest, recoveredMessage, -, items⟩
  cases items
  rcases recoveredMessage with ⟨fields, dict, read⟩
  cases dict
  rcases read "role" (.str "user") rfl with ⟨role, there, same⟩
  cases there
  rcases same with same | equal
  · injection same with roles
    exact absurd roles (by decide)
  · exact absurd equal (by decide +kernel)

end HybridInference.Logs
