import HybridInference.Library.Tally
import Mathlib.Algebra.Order.Ring.Int
import Mathlib.Data.List.AList

/-!
# Dictionaries

A dictionary is an association list without repeated keys. A dictionary of
numbers reads zero where it has no entry, so keeping an entry at zero and
dropping it are the same to a reader.
-/

namespace HybridInference.Library

universe u v

abbrev Dict (Key : Type u) (Value : Type v) := AList fun _ : Key => Value

namespace Dict

variable {Key : Type u} {Value : Type v} [DecidableEq Key]

def find (dict : Dict Key Value) (key : Key) : Option Value :=
  dict.lookup key

@[simp]
theorem find_empty (key : Key) : find (∅ : Dict Key Value) key = none := rfl

theorem find_insert (dict : Dict Key Value) (key other : Key) (value : Value) :
    find (dict.insert key value) other = if other = key then some value else dict.find other := by
  split_ifs with equal
  · subst equal
    exact AList.lookup_insert dict
  · exact AList.lookup_insert_ne equal

theorem find_erase (dict : Dict Key Value) (key other : Key) :
    find (dict.erase key) other = if other = key then none else dict.find other := by
  split_ifs with equal
  · subst equal
    exact AList.lookup_erase other dict
  · exact AList.lookup_erase_ne equal

/-- `del dict[key]` for each of the keys. -/
def eraseAll (dict : Dict Key Value) (keys : List Key) : Dict Key Value :=
  keys.foldl (fun dict key => dict.erase key) dict

theorem find_eraseAll (dict : Dict Key Value) (keys : List Key) (other : Key) :
    find (dict.eraseAll keys) other = if other ∈ keys then none else dict.find other := by
  unfold eraseAll
  induction keys generalizing dict with
  | nil => simp
  | cons key rest ih =>
    rw [List.foldl_cons, ih, find_erase]
    by_cases inRest : other ∈ rest
    · simp [inRest]
    · by_cases equal : other = key
      · simp [equal]
      · simp [inRest, equal]

def keysWhere (dict : Dict Key Value) (test : Value → Bool) : List Key :=
  dict.keys.filter fun key => (dict.find key).any test

variable {dict : Dict Key Value}

theorem mem_keysWhere_iff {test : Value → Bool} {key : Key} :
    key ∈ dict.keysWhere test ↔ ∃ value, dict.find key = some value ∧ test value = true := by
  unfold keysWhere
  rw [List.mem_filter, Option.any_eq_true]
  constructor
  · rintro ⟨-, value, found, passes⟩
    exact ⟨value, found, passes⟩
  · rintro ⟨value, found, passes⟩
    refine ⟨AList.lookup_isSome.mp ?_, value, found, passes⟩
    have some_ : dict.lookup key = some value := found
    rw [some_]
    rfl

theorem find_eraseAll_filter (dict : Dict Key Value) (test : Key → Bool) (key : Key) :
    find (dict.eraseAll (dict.keys.filter test)) key =
      if test key then none else dict.find key := by
  rw [find_eraseAll]
  by_cases passes : test key = true
  · split_ifs with inside
    · rfl
    · by_contra there
      have member : key ∈ dict.keys := AList.lookup_isSome.mp (Option.isSome_iff_ne_none.mpr there)
      exact inside (List.mem_filter.mpr ⟨member, passes⟩)
  · rw [if_neg passes, if_neg]
    exact fun inside => passes (List.mem_filter.mp inside).2

def modify (dict : Dict Key Value) (change : Value → Value) (key : Key) : Dict Key Value :=
  match dict.find key with
  | some value => dict.insert key (change value)
  | none => dict

theorem find_modify (dict : Dict Key Value) (change : Value → Value) (key other : Key) :
    find (dict.modify change key) other =
      if other = key then (dict.find other).map change else dict.find other := by
  unfold modify
  cases found : dict.find key with
  | some value =>
    simp only [find_insert]
    split_ifs with equal
    · rw [equal, found]
      rfl
    · rfl
  | none =>
    split_ifs with equal
    · rw [equal, found]
      rfl
    · rfl

/-- `UPDATE ... WHERE`: change the values that pass a test. -/
def updateWhere (dict : Dict Key Value) (test : Value → Bool) (change : Value → Value) :
    Dict Key Value :=
  (dict.keysWhere test).foldl (fun dict key => dict.modify change key) dict

theorem find_foldl_modify (change : Value → Value) {keys : List Key} (nodup : keys.Nodup)
    (dict : Dict Key Value) (other : Key) :
    find (keys.foldl (fun dict key => dict.modify change key) dict) other =
      if other ∈ keys then (dict.find other).map change else dict.find other := by
  induction keys generalizing dict with
  | nil => simp
  | cons key rest ih =>
    rw [List.nodup_cons] at nodup
    rw [List.foldl_cons, ih nodup.2, find_modify]
    by_cases equal : other = key
    · subst equal
      simp [nodup.1]
    · simp [equal]

theorem find_updateWhere (dict : Dict Key Value) (test : Value → Bool) (change : Value → Value)
    (key : Key) :
    find (dict.updateWhere test change) key =
      (dict.find key).map fun value => if test value then change value else value := by
  have nodup : (dict.keysWhere test).Nodup := dict.nodupKeys.filter _
  rw [updateWhere, find_foldl_modify change nodup]
  cases found : dict.find key with
  | none => simp
  | some value =>
    by_cases passes : test value = true
    · have inside : key ∈ dict.keysWhere test := mem_keysWhere_iff.mpr ⟨value, found, passes⟩
      simp [inside, passes]
    · have outside : key ∉ dict.keysWhere test := by
        rw [mem_keysWhere_iff]
        rintro ⟨other, otherFound, otherPasses⟩
        rw [found, Option.some.injEq] at otherFound
        exact passes (otherFound ▸ otherPasses)
      simp [outside, passes]

omit [DecidableEq Key] in
theorem eq_empty_of_keys_isEmpty (empty : dict.keys.isEmpty = true) : dict = ∅ := by
  apply AList.ext
  have noKeys : dict.entries.map Sigma.fst = [] := List.isEmpty_iff.mp empty
  exact List.map_eq_nil_iff.mp noKeys

theorem find_isSome_iff {key : Key} : (dict.find key).isSome = true ↔ key ∈ dict.keys :=
  AList.lookup_isSome

theorem keys_isEmpty_of_find (absent : ∀ key, dict.find key = none) : dict.keys.isEmpty = true := by
  rw [List.isEmpty_iff, List.eq_nil_iff_forall_not_mem]
  intro key member
  simpa [absent key] using find_isSome_iff.mpr member

section UpdateEach

variable {Error : Type*}

def updateEach (dict : Dict Key Value) (change : Value → Except Error Value) (keys : List Key) :
    Except Error (Dict Key Value) :=
  keys.foldlM (fun dict key =>
    match dict.find key with
    | none => .ok dict
    | some value => (change value).map fun changed => dict.insert key changed) dict

theorem updateEach_cons (dict : Dict Key Value) (change : Value → Except Error Value) (key : Key)
    (rest : List Key) :
    dict.updateEach change (key :: rest) = match dict.find key with
      | none => dict.updateEach change rest
      | some value =>
        match change value with
        | .ok changed => updateEach (dict.insert key changed) change rest
        | .error error => .error error := by
  unfold updateEach
  rw [List.foldlM_cons]
  cases dict.find key with
  | none => rfl
  | some value =>
    dsimp only
    cases change value <;> rfl

theorem updateEach_ok {change : Value → Except Error Value} (converted : Value → Value)
    {keys : List Key} (nodup : keys.Nodup) (dict : Dict Key Value)
    (each : ∀ key ∈ keys, ∀ value, dict.find key = some value →
      change value = .ok (converted value)) :
    ∃ changed, dict.updateEach change keys = .ok changed ∧ ∀ key, changed.find key =
      if key ∈ keys then (dict.find key).map converted else dict.find key := by
  induction keys generalizing dict with
  | nil => exact ⟨dict, rfl, fun key => by simp⟩
  | cons first rest ih =>
    rw [List.nodup_cons] at nodup
    rw [updateEach_cons]
    cases found : dict.find first with
    | none =>
      rcases ih nodup.2 dict fun key inside => each key (List.mem_cons_of_mem _ inside) with
        ⟨changed, ran, finds⟩
      refine ⟨changed, ran, fun key => ?_⟩
      rw [finds]
      by_cases equal : key = first
      · simp [equal, nodup.1, found]
      · simp [equal]
    | some value =>
      dsimp only
      rw [each first (by simp) value found]
      have others : ∀ key ∈ rest, find (dict.insert first (converted value)) key =
          dict.find key := by
        intro key inside
        rw [find_insert, if_neg]
        rintro rfl
        exact nodup.1 inside
      have kept : ∀ key ∈ rest, ∀ other,
          find (dict.insert first (converted value)) key = some other →
          change other = .ok (converted other) := by
        intro key inside other found'
        rw [others key inside] at found'
        exact each key (List.mem_cons_of_mem _ inside) other found'
      rcases ih nodup.2 _ kept with ⟨changed, ran, finds⟩
      refine ⟨changed, ran, fun key => ?_⟩
      rw [finds, find_insert]
      by_cases equal : key = first
      · simp [equal, nodup.1, found]
      · simp [equal]

theorem updateEach_error {change : Value → Except Error Value} {keys : List Key}
    (nodup : keys.Nodup) {key : Key} {value : Value} {error : Error}
    (inside : key ∈ keys) (found : dict.find key = some value)
    (raises : change value = .error error) :
    ∃ raised, dict.updateEach change keys = .error raised := by
  induction keys generalizing dict with
  | nil => contradiction
  | cons first rest ih =>
    rw [List.nodup_cons] at nodup
    rw [updateEach_cons]
    rcases List.mem_cons.mp inside with rfl | later
    · rw [found]
      dsimp only
      rw [raises]
      exact ⟨error, rfl⟩
    · cases dict.find first with
      | none => exact ih nodup.2 later found
      | some other =>
        dsimp only
        cases change other with
        | error raised => exact ⟨raised, rfl⟩
        | ok changed =>
          apply ih nodup.2 later
          rw [find_insert, if_neg]
          · exact found
          · rintro rfl
            exact nodup.1 later

end UpdateEach

theorem tally_entries {Amount : Type*} [AddCommMonoid Amount]
    (measure : Key → Value → Amount) {other : Key → Amount}
    (same : ∀ key value, dict.find key = some value → measure key value = other key) :
    tally (fun entry : (_ : Key) × Value => measure entry.1 entry.2) dict.entries =
      tally other dict.keys := by
  unfold tally AList.keys List.keys
  rw [List.map_map]
  congr 1
  apply List.map_congr_left
  intro entry member
  exact same entry.1 entry.2 (AList.mem_lookup_iff.mpr member)

section Read

variable [Zero Value]

/-- `dict.get(key, 0)`. -/
def read (dict : Dict Key Value) (key : Key) : Value :=
  (dict.lookup key).getD 0

@[simp]
theorem read_empty (key : Key) : read (∅ : Dict Key Value) key = 0 := rfl

theorem read_insert (dict : Dict Key Value) (key other : Key) (value : Value) :
    read (dict.insert key value) other = if other = key then value else dict.read other := by
  unfold read
  split_ifs with equal
  · subst equal
    rw [AList.lookup_insert]
    rfl
  · rw [AList.lookup_insert_ne equal]

theorem read_erase (dict : Dict Key Value) (key other : Key) :
    read (dict.erase key) other = if other = key then 0 else dict.read other := by
  unfold read
  split_ifs with equal
  · subst equal
    rw [AList.lookup_erase]
    rfl
  · rw [AList.lookup_erase_ne equal]

theorem read_eq_zero_of_not_mem {key : Key} (absent : key ∉ dict.keys) : dict.read key = 0 := by
  have missing : dict.lookup key = none := AList.lookup_eq_none.mpr absent
  simp [read, missing]

end Read

def settle (dict : Dict Key ℤ) (key : Key) (value : ℤ) : Dict Key ℤ :=
  if 0 < value then dict.insert key value else dict.erase key

theorem read_settle {value : ℤ} (dict : Dict Key ℤ) (key other : Key) (nonneg : 0 ≤ value) :
    read (dict.settle key value) other = if other = key then value else dict.read other := by
  unfold settle
  split_ifs with positive equal equal
  · rw [read_insert, if_pos equal]
  · rw [read_insert, if_neg equal]
  · rw [read_erase, if_pos equal]
    omega
  · rw [read_erase, if_neg equal]

end Dict

end HybridInference.Library
