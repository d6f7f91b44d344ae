import Mathlib.Data.List.Nodup

/-!
# Dictionaries in the order of their keys

An association list whose keys are told apart by equality. An assignment to a key that is there
keeps its place, and a new key goes to the end.
-/

namespace HybridInference.Library

universe u v

abbrev OrderedDict (Key : Type u) (Value : Type v) := List (Key × Value)

namespace OrderedDict

variable {Key : Type u} {Value : Type v} [DecidableEq Key]

def assign (key : Key) (value : Value) : OrderedDict Key Value → OrderedDict Key Value
  | [] => [(key, value)]
  | (other, was) :: rest =>
    if other = key then (other, value) :: rest else (other, was) :: assign key value rest

def remove (key : Key) (dict : OrderedDict Key Value) : OrderedDict Key Value :=
  dict.filter fun held => held.1 ≠ key

def Distinct (dict : OrderedDict Key Value) : Prop :=
  (dict.map Prod.fst).Nodup

variable {dict : OrderedDict Key Value} {key : Key}

theorem lookup_eq_ite (held : Key × Value) (rest : OrderedDict Key Value) (key : Key) :
    List.lookup key (held :: rest) = if key = held.1 then some held.2 else rest.lookup key := by
  by_cases same : key = held.1
  · rw [if_pos same, same]
    exact List.lookup_cons_self
  · rw [if_neg same, List.lookup_cons, beq_eq_false_iff_ne.mpr same]

theorem lookup_assign (dict : OrderedDict Key Value) (key other : Key) (value : Value) :
    (assign key value dict).lookup other =
      if other = key then some value else dict.lookup other := by
  induction dict with
  | nil => simp only [assign, lookup_eq_ite]
  | cons held rest ih =>
    simp only [assign]
    by_cases same : held.1 = key
    · rw [if_pos same]
      simp only [lookup_eq_ite, same]
      split_ifs <;> rfl
    · rw [if_neg same]
      simp only [lookup_eq_ite, ih]
      split_ifs with first second
      · exact absurd (first.symm.trans second) same
      · rfl
      · rfl
      · rfl

theorem lookup_remove (dict : OrderedDict Key Value) (key other : Key) :
    (remove key dict).lookup other = if other = key then none else dict.lookup other := by
  induction dict with
  | nil => simp [remove]
  | cons held rest ih =>
    unfold remove at ih ⊢
    rw [List.filter_cons]
    by_cases same : held.1 = key
    · simp only [same, ne_eq, not_true_eq_false, decide_false, Bool.false_eq_true, if_false,
        lookup_eq_ite]
      rw [ih]
      split_ifs <;> rfl
    · simp only [same, ne_eq, not_false_eq_true, decide_true, if_true, lookup_eq_ite]
      rw [ih]
      split_ifs with first second
      · exact absurd (first.symm.trans second) same
      · rfl
      · rfl
      · rfl

theorem lookup_isSome_iff : (dict.lookup key).isSome = true ↔ key ∈ dict.map Prod.fst := by
  induction dict with
  | nil => simp
  | cons held rest ih =>
    rw [lookup_eq_ite, List.map_cons, List.mem_cons, ← ih]
    split_ifs with same <;> simp [same]

theorem lookup_eq_none_iff : dict.lookup key = none ↔ key ∉ dict.map Prod.fst := by
  rw [← lookup_isSome_iff, Bool.not_eq_true, Option.isSome_eq_false_iff, Option.isNone_iff_eq_none]

theorem mem_of_lookup {value : Value} (found : dict.lookup key = some value) :
    (key, value) ∈ dict := by
  induction dict with
  | nil => simp at found
  | cons held rest ih =>
    rw [lookup_eq_ite] at found
    split_ifs at found with same
    · rw [Option.some.injEq] at found
      subst same found
      simp
    · exact List.mem_cons_of_mem _ (ih found)

theorem lookup_of_mem (distinct : Distinct dict) {held : Key × Value} (inside : held ∈ dict) :
    dict.lookup held.1 = some held.2 := by
  induction dict with
  | nil => simp at inside
  | cons first rest ih =>
    unfold Distinct at distinct ih
    rw [List.map_cons, List.nodup_cons] at distinct
    rw [lookup_eq_ite]
    rcases List.mem_cons.mp inside with rfl | later
    · rw [if_pos rfl]
    · rw [if_neg, ih distinct.2 later]
      intro same
      exact distinct.1 (same ▸ List.mem_map_of_mem later)

theorem keys_assign_of_mem (value : Value) (inside : key ∈ dict.map Prod.fst) :
    (assign key value dict).map Prod.fst = dict.map Prod.fst := by
  induction dict with
  | nil => simp at inside
  | cons held rest ih =>
    simp only [assign]
    by_cases same : held.1 = key
    · rw [if_pos same]
      rfl
    · rw [if_neg same]
      have later : key ∈ rest.map Prod.fst := by
        rcases List.mem_cons.mp inside with equal | later
        · exact absurd equal.symm same
        · exact later
      rw [List.map_cons, ih later, List.map_cons]

theorem map_assign_of_lookup {Measure : Type*} (measure : Value → Measure) {was value : Value}
    (found : dict.lookup key = some was) (same : measure value = measure was) :
    (assign key value dict).map (fun held => measure held.2) =
      dict.map (fun held => measure held.2) := by
  induction dict with
  | nil => simp at found
  | cons held rest ih =>
    rw [lookup_eq_ite] at found
    simp only [assign]
    split_ifs at found with first
    · rw [Option.some.injEq] at found
      rw [if_pos first.symm, List.map_cons, List.map_cons, same, found]
    · rw [if_neg (Ne.symm first), List.map_cons, List.map_cons, ih found]

theorem length_assign_of_lookup {was : Value} (value : Value)
    (found : dict.lookup key = some was) : (assign key value dict).length = dict.length := by
  have inside : key ∈ dict.map Prod.fst := by
    rw [← lookup_isSome_iff, found]
    rfl
  have same := congrArg List.length (keys_assign_of_mem value inside)
  simpa only [List.length_map] using same

theorem assign_of_not_mem (value : Value) (outside : key ∉ dict.map Prod.fst) :
    assign key value dict = dict ++ [(key, value)] := by
  induction dict with
  | nil => rfl
  | cons held rest ih =>
    rw [List.map_cons, List.mem_cons, not_or] at outside
    simp only [assign]
    rw [if_neg (fun same => outside.1 same.symm), ih outside.2]
    rfl

omit [DecidableEq Key] in
theorem Distinct.sublist {kept : OrderedDict Key Value} (distinct : Distinct dict)
    (part : kept.Sublist dict) : Distinct kept :=
  List.Nodup.sublist (part.map Prod.fst) distinct

theorem remove_sublist (dict : OrderedDict Key Value) (key : Key) :
    (remove key dict).Sublist dict :=
  List.filter_sublist

theorem length_remove_lt {value : Value} (found : dict.lookup key = some value) :
    (remove key dict).length < dict.length := by
  apply List.length_filter_lt_length_iff_exists.mpr
  refine ⟨(key, value), mem_of_lookup found, ?_⟩
  simp

theorem not_mem_keys_remove (dict : OrderedDict Key Value) (key : Key) :
    key ∉ (remove key dict).map Prod.fst := by
  rw [← lookup_eq_none_iff, lookup_remove, if_pos rfl]

omit [DecidableEq Key] in
theorem Distinct.append_singleton (value : Value) (distinct : Distinct dict)
    (outside : key ∉ dict.map Prod.fst) : Distinct (dict ++ [(key, value)]) := by
  unfold Distinct
  rw [List.map_append]
  apply List.Nodup.append distinct (List.nodup_singleton key)
  intro other inside alone
  rw [List.mem_singleton] at alone
  exact outside (alone ▸ inside)

theorem Distinct.assign (value : Value) (distinct : Distinct dict) :
    Distinct (assign key value dict) := by
  by_cases inside : key ∈ dict.map Prod.fst
  · unfold Distinct
    rw [keys_assign_of_mem value inside]
    exact distinct
  · rw [assign_of_not_mem value inside]
    exact distinct.append_singleton value inside

theorem lookup_of_append (taken kept : OrderedDict Key Value) (distinct : Distinct (taken ++ kept))
    (key : Key) :
    kept.lookup key = if key ∈ taken.map Prod.fst then none else (taken ++ kept).lookup key := by
  unfold Distinct at distinct
  rw [List.map_append, List.nodup_append] at distinct
  split_ifs with inside
  · rw [lookup_eq_none_iff]
    exact fun later => distinct.2.2 key inside key later rfl
  · rw [List.lookup_append, lookup_eq_none_iff.mpr inside, Option.none_or]

theorem lookup_tail {first : Key × Value} {rest : OrderedDict Key Value}
    (distinct : Distinct (first :: rest)) (key : Key) :
    rest.lookup key = if key = first.1 then none else List.lookup key (first :: rest) := by
  rw [lookup_of_append [first] rest distinct key]
  simp only [List.map_singleton, List.mem_singleton, List.singleton_append]

end OrderedDict

end HybridInference.Library
