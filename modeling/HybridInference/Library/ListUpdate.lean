import Mathlib.Data.List.Basic

/-!
# Updates of a list and what they do to lookups and counts

Tables of records are lists named by position. These are the facts about
appending a record, replacing one and rewriting those that meet a condition.
-/

namespace HybridInference.Library

theorem getElem?_set_of_some {α : Type*} {list : List α} {i j : ℕ} {old new : α}
    (found : list[i]? = some old) :
    (list.set i new)[j]? = if i = j then some new else list[j]? := by
  have inside : i < list.length := (List.getElem?_eq_some_iff.mp found).1
  rw [List.getElem?_set]
  simp [inside]

variable {i : ℕ}

section

variable {α : Type*}

theorem getElem?_set_cases {list : List α} {j : ℕ} {old new record : α}
    (found : list[i]? = some old) (there : (list.set i new)[j]? = some record) :
    j = i ∧ record = new ∨ j ≠ i ∧ list[j]? = some record := by
  rw [getElem?_set_of_some found] at there
  split_ifs at there with same
  · exact Or.inl ⟨same.symm, (Option.some.inj there).symm⟩
  · exact Or.inr ⟨fun equal => same equal.symm, there⟩

theorem any_eraseIdx_eq_false_iff {list : List α} {property : α → Bool} :
    (list.eraseIdx i).any property = false ↔
      ∀ (j : ℕ) record, list[j]? = some record → j ≠ i → property record = false := by
  simp only [List.any_eq_false, Bool.not_eq_true]
  constructor
  · intro none_ j record found different
    exact none_ record (List.mem_eraseIdx_iff_getElem?.mpr ⟨j, different, found⟩)
  · intro none_ record member
    rcases List.mem_eraseIdx_iff_getElem?.mp member with ⟨j, different, found⟩
    exact none_ j record found different

theorem mem_set_iff_of_ne {list : List α} {old new record : α}
    (found : list[i]? = some old) (different : record ≠ old) :
    record ∈ list.set i new ↔ record ∈ list ∨ record = new := by
  constructor
  · exact List.mem_or_eq_of_mem_set
  · rintro (earlier | rfl)
    · rcases List.mem_iff_getElem?.mp earlier with ⟨j, there⟩
      apply List.mem_iff_getElem?.mpr ⟨j, ?_⟩
      rw [getElem?_set_of_some found, if_neg, there]
      rintro rfl
      exact different (Option.some.inj (there.symm.trans found))
    · apply List.mem_iff_getElem?.mpr ⟨i, ?_⟩
      rw [getElem?_set_of_some found, if_pos rfl]

theorem set_eq_self_of_some {list : List α} {found : α}
    (at_index : list[i]? = some found) : list.set i found = list := by
  apply List.ext_getElem?
  intro j
  rw [getElem?_set_of_some at_index]
  split_ifs with same
  · rw [← same, at_index]
  · rfl

theorem modify_eq_set {list : List α} {old : α} (f : α → α)
    (found : list[i]? = some old) : list.modify i f = list.set i (f old) := by
  apply List.ext_getElem?
  intro j
  rw [List.getElem?_modify, getElem?_set_of_some found]
  split_ifs with same
  · subst same
    simp [found]
  · simp

theorem cons_set_perm {list : List α} {old : α} (new : α)
    (found : list[i]? = some old) : (old :: list.set i new).Perm (new :: list) := by
  induction list generalizing i with
  | nil => simp at found
  | cons first rest ih =>
    cases i with
    | zero =>
      simp only [List.getElem?_cons_zero, Option.some.injEq] at found
      subst found
      exact List.Perm.swap new first rest
    | succ i =>
      have moved : (old :: first :: rest.set i new).Perm (first :: old :: rest.set i new) :=
        List.Perm.swap first old _
      exact moved.trans (((ih found).cons first).trans (List.Perm.swap new first rest))

theorem getElem?_concat_of_some {list : List α} {found last : α}
    (at_index : list[i]? = some found) : (list ++ [last])[i]? = some found := by
  rw [List.getElem?_append_left (List.getElem?_eq_some_iff.mp at_index).1]
  exact at_index

theorem getElem?_concat_cases {list : List α} {found last : α}
    (at_index : (list ++ [last])[i]? = some found) :
    list[i]? = some found ∨ i = list.length ∧ found = last := by
  have inside : i < list.length + 1 := by
    simpa using (List.getElem?_eq_some_iff.mp at_index).1
  by_cases earlier : i < list.length
  · left
    rwa [List.getElem?_append_left earlier] at at_index
  · right
    have atEnd : i = list.length := by omega
    subst atEnd
    simp only [List.getElem?_concat_length, Option.some.injEq] at at_index
    exact ⟨rfl, at_index.symm⟩

theorem split_of_concat {list past rest : List α} {last record : α}
    (split : list ++ [last] = past ++ record :: rest) :
    list = past ∧ last = record ∨ ∃ before, list = past ++ record :: before := by
  rcases List.eq_nil_or_concat rest with rfl | ⟨before, final, rfl⟩
  · left
    have parts := List.append_inj' split rfl
    exact ⟨parts.1, List.singleton_inj.mp parts.2⟩
  · right
    rw [List.concat_eq_append, ← List.cons_append, ← List.append_assoc] at split
    exact ⟨before, (List.append_inj' split rfl).1⟩

theorem countP_set_of_some {list : List α} {old : α} (p : α → Bool)
    (new : α) (found : list[i]? = some old) :
    (list.set i new).countP p + (if p old then 1 else 0) =
      list.countP p + (if p new then 1 else 0) := by
  rcases List.getElem?_eq_some_iff.mp found with ⟨inside, rfl⟩
  rw [List.countP_set inside]
  have counted : p list[i] = true → 0 < list.countP p := fun holds =>
    List.countP_pos_iff.mpr ⟨list[i], List.getElem_mem inside, holds⟩
  split_ifs with holds
  · have := counted holds
    omega
  · have := counted holds
    omega
  · omega
  · omega

theorem countP_eq_add {list : List α} {whole first second : α → Bool}
    (split : ∀ record ∈ list, (if whole record then 1 else 0) =
      (if first record then 1 else 0) + if second record then 1 else 0) :
    list.countP whole = list.countP first + list.countP second := by
  induction list with
  | nil => rfl
  | cons record rest ih =>
    have here := split record (by simp)
    have there := ih fun other member => split other (by simp [member])
    simp only [List.countP_cons]
    omega

theorem exists_split_of_pairwise {list : List α} {kind : α → Prop} {record : α}
    (alone : list.Pairwise fun earlier later => ¬ (kind earlier ∧ kind later))
    (member : record ∈ list) (holds : kind record) :
    ∃ left right, list = left ++ record :: right ∧ (∀ other ∈ left, ¬ kind other) ∧
      ∀ other ∈ right, ¬ kind other := by
  rcases List.append_of_mem member with ⟨left, right, rfl⟩
  rcases List.pairwise_append.mp alone with ⟨-, later, across⟩
  refine ⟨left, right, rfl, ?_, ?_⟩
  · intro other otherMember same
    exact across other otherMember record (by simp) ⟨same, holds⟩
  · intro other otherMember same
    exact (List.pairwise_cons.mp later).1 other otherMember ⟨holds, same⟩

end

end HybridInference.Library
