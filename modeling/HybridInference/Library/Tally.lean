import Mathlib.Algebra.Order.BigOperators.Group.List

/-!
# Sums over a list of records

What a list of records adds up to under a measure, as records are appended,
replaced and settled.
-/

namespace HybridInference.Library

universe u v

variable {Record : Type u} {Amount : Type v}

def tally [AddCommMonoid Amount] (measure : Record → Amount) (records : List Record) : Amount :=
  (records.map measure).sum

section Sum

variable [AddCommMonoid Amount] {measure : Record → Amount}

@[simp]
theorem tally_nil : tally measure [] = 0 := rfl

@[simp]
theorem tally_append (first second : List Record) :
    tally measure (first ++ second) = tally measure first + tally measure second := by
  simp [tally]

@[simp]
theorem tally_singleton (record : Record) : tally measure [record] = measure record := by
  simp [tally]

@[simp]
theorem tally_cons (record : Record) (rest : List Record) :
    tally measure (record :: rest) = measure record + tally measure rest := by
  simp [tally]

variable {records : List Record}

theorem tally_set (measure : Record → Amount) {index : ℕ} {old : Record}
    (new : Record) (found : records[index]? = some old) :
    tally measure (records.set index new) + measure old = tally measure records + measure new := by
  induction records generalizing index with
  | nil => simp at found
  | cons record rest ih =>
    cases index with
    | zero =>
      simp only [List.getElem?_cons_zero, Option.some.injEq] at found
      subst found
      simp only [List.set_cons_zero, tally_cons]
      rw [add_right_comm, add_comm (measure new), add_right_comm]
    | succ index =>
      simp only [List.set_cons_succ, tally_cons]
      rw [add_assoc, ih found, add_assoc]

theorem tally_eq_zero (zero : ∀ record ∈ records, measure record = 0) :
    tally measure records = 0 := by
  apply List.sum_eq_zero
  intro amount member
  rcases List.mem_map.mp member with ⟨record, recordMember, rfl⟩
  exact zero record recordMember

theorem tally_congr {other : Record → Amount}
    (same : ∀ record ∈ records, measure record = other record) :
    tally measure records = tally other records := by
  unfold tally
  rw [List.map_congr_left same]

theorem tally_map {Other : Type*} (measure : Other → Amount) (change : Record → Other)
    (records : List Record) :
    tally measure (records.map change) = tally (fun record => measure (change record)) records := by
  simp [tally, Function.comp_def]

theorem tally_flatMap {Other : Type*} (measure : Other → Amount) (parts : Record → List Other)
    (records : List Record) :
    tally measure (records.flatMap parts) =
      tally (fun record => tally measure (parts record)) records := by
  induction records with
  | nil => rfl
  | cons record rest ih => rw [List.flatMap_cons, tally_append, ih, tally_cons]

theorem tally_reverse (records : List Record) :
    tally measure records.reverse = tally measure records := by
  unfold tally
  rw [List.map_reverse, List.sum_reverse]

theorem foldl_add_eq_tally (measure : Record → Amount) (records : List Record) (start : Amount) :
    records.foldl (fun total record => total + measure record) start =
      start + tally measure records := by
  induction records generalizing start with
  | nil => simp
  | cons record rest ih => rw [List.foldl_cons, ih, tally_cons, add_assoc]

theorem tally_add (first second : Record → Amount) (records : List Record) :
    tally (fun record => first record + second record) records =
      tally first records + tally second records :=
  List.sum_map_add

theorem tally_if (condition : Prop) [Decidable condition] (records : List Record) :
    tally (fun record => if condition then measure record else 0) records =
      if condition then tally measure records else 0 := by
  split_ifs
  · rfl
  · exact tally_eq_zero fun _ _ => rfl

theorem tally_const_if (condition : Record → Bool) (amount : Amount) (records : List Record) :
    tally (fun record => if condition record then amount else 0) records =
      records.countP condition • amount := by
  induction records with
  | nil => simp
  | cons record rest ih =>
    rw [tally_cons, List.countP_cons, ih]
    split_ifs
    · rw [succ_nsmul, add_comm]
    · rw [zero_add, Nat.add_zero]

theorem sum_map_filter (measure : Record → Amount) (condition : Record → Bool)
    (records : List Record) :
    ((records.filter condition).map measure).sum =
      tally (fun record => if condition record then measure record else 0) records := by
  induction records with
  | nil => rfl
  | cons record rest ih =>
    rw [tally_cons, List.filter_cons]
    split_ifs with holds
    · rw [List.map_cons, List.sum_cons, ih]
    · rw [ih, zero_add]

theorem tally_filter_zipIdx (keep : ℕ → Bool)
    (zero : ∀ (index : ℕ) record, records[index]? = some record → keep index = false →
      measure record = 0) :
    tally measure ((records.zipIdx.filter fun entry => keep entry.2).map Prod.fst) =
      tally measure records := by
  rw [tally_map, tally, sum_map_filter]
  conv_rhs => rw [← List.zipIdx_map_fst 0 records, tally_map]
  apply tally_congr
  intro entry member
  split_ifs with kept
  · rfl
  · rw [zero entry.2 entry.1 (List.mem_zipIdx_iff_getElem?.mp member) (by simpa using kept)]

theorem tally_dropWhile {condition : Record → Bool}
    (zero : ∀ record ∈ records, condition record = true → measure record = 0) :
    tally measure (records.dropWhile condition) = tally measure records := by
  induction records with
  | nil => rfl
  | cons record rest ih =>
    rw [List.dropWhile_cons]
    split_ifs with dropped
    · rw [ih fun other member => zero other (List.mem_cons_of_mem _ member), tally_cons,
        zero record List.mem_cons_self dropped, zero_add]
    · rfl

theorem tally_takeWhile {condition : Record → Bool} (closed : records.Pairwise fun earlier later =>
      condition later = true → condition earlier = true) :
    tally measure (records.takeWhile condition) =
      tally (fun record => if condition record then measure record else 0) records := by
  induction records with
  | nil => rfl
  | cons record rest ih =>
    rcases List.pairwise_cons.mp closed with ⟨first, restClosed⟩
    rw [List.takeWhile_cons, tally_cons]
    split_ifs with holds
    · rw [tally_cons, ih restClosed]
    · have nothing : tally (fun other => if condition other then measure other else 0) rest =
          0 := by
        apply tally_eq_zero
        intro other member
        rw [if_neg fun later => holds (first other member later)]
      rw [nothing, tally_nil, zero_add]

theorem tally_at {Key : Type*} [DecidableEq Key] {keys : List Key} (distinct : keys.Nodup)
    (key : Key) (amount : Amount) :
    tally (fun other => if key = other then amount else 0) keys =
      if key ∈ keys then amount else 0 := by
  induction keys with
  | nil => rfl
  | cons other rest ih =>
    rcases List.nodup_cons.mp distinct with ⟨fresh, restDistinct⟩
    rw [tally_cons, ih restDistinct]
    by_cases same : key = other
    · subst same
      simp [fresh]
    · simp [same]

theorem tally_by_key {Key : Type*} [DecidableEq Key] {keys : List Key} (keyOf : Record → Key)
    (distinct : keys.Nodup)
    (covered : ∀ record ∈ records, keyOf record ∈ keys ∨ measure record = 0) :
    tally
        (fun key => tally (fun record => if keyOf record = key then measure record else 0) records)
        keys =
      tally measure records := by
  have once : ∀ record ∈ records,
      tally (fun key => if keyOf record = key then measure record else 0) keys =
        measure record := by
    intro record member
    rw [tally_at distinct]
    rcases covered record member with inKeys | zero
    · rw [if_pos inKeys]
    · rw [zero, ite_self]
  clear covered
  induction records with
  | nil => exact tally_eq_zero fun _ _ => rfl
  | cons record rest ih =>
    simp only [tally_cons, tally_add]
    have restOnce := ih fun other member => once other (List.mem_cons_of_mem _ member)
    rw [once record List.mem_cons_self, restOnce]

end Sum

section Order

variable [AddCommMonoid Amount] [PartialOrder Amount] [IsOrderedAddMonoid Amount]
  {measure other : Record → Amount} {records : List Record}

theorem tally_nonneg (nonneg : ∀ record ∈ records, 0 ≤ measure record) :
    0 ≤ tally measure records := by
  apply List.sum_nonneg
  intro amount member
  rcases List.mem_map.mp member with ⟨record, recordMember, rfl⟩
  exact nonneg record recordMember

theorem tally_le_tally (le : ∀ record ∈ records, measure record ≤ other record) :
    tally measure records ≤ tally other records :=
  List.sum_le_sum le

theorem measure_le_tally {index : ℕ} {record : Record}
    (nonneg : ∀ record ∈ records, 0 ≤ measure record) (found : records[index]? = some record) :
    measure record ≤ tally measure records := by
  induction records generalizing index with
  | nil => simp at found
  | cons first rest ih =>
    have restNonneg : ∀ record ∈ rest, 0 ≤ measure record := fun record member =>
      nonneg record (List.mem_cons_of_mem _ member)
    cases index with
    | zero =>
      simp only [List.getElem?_cons_zero, Option.some.injEq] at found
      subst found
      exact le_add_of_nonneg_right (tally_nonneg restNonneg)
    | succ index =>
      exact le_add_of_nonneg_of_le (nonneg first List.mem_cons_self) (ih restNonneg found)

end Order

section Place

variable {Other Mark : Type*} {measure : Record → ℕ} {other : Other → ℕ} {place : Mark → ℕ}

theorem countP_eq_tally (condition : Record → Bool) (records : List Record) :
    records.countP condition = tally (fun record => if condition record then 1 else 0) records := by
  induction records with
  | nil => rfl
  | cons record rest ih =>
    rw [List.countP_cons, tally_cons, ih]
    omega

theorem countP_place_split (start : ℕ) (marks : List Mark) :
    (marks.countP fun mark => start ≤ place mark) = (marks.countP fun mark => place mark = start) +
        marks.countP fun mark => start + 1 ≤ place mark := by
  induction marks with
  | nil => rfl
  | cons mark later ih =>
    simp only [List.countP_cons, decide_eq_true_eq]
    split_ifs <;> omega

variable {others : List Other}

variable {records : List Record}

theorem tally_le_add_marked_from (start : ℕ) (marks : List Mark)
    (le : ∀ (index : ℕ) record, records[index]? = some record →
      measure record ≤ others[index]?.elim 0 other +
        marks.countP fun mark => place mark = start + index) :
    tally measure records ≤ tally other others + marks.countP fun mark => start ≤ place mark := by
  induction records generalizing others start with
  | nil => exact Nat.zero_le _
  | cons record rest ih =>
    have here := le 0 record rfl
    have later : tally measure rest ≤ tally other others.tail +
        marks.countP fun mark => start + 1 ≤ place mark := by
      apply ih
      intro index found atIndex
      have bound := le (index + 1) found atIndex
      rw [show start + (index + 1) = start + 1 + index by omega] at bound
      rwa [List.getElem?_tail]
    have split : (marks.countP fun mark => start ≤ place mark) = _ :=
      countP_place_split start marks
    rw [tally_cons, split]
    cases others with
    | nil =>
      simp only [List.getElem?_nil, Option.elim_none, List.tail_nil, tally_nil,
        Nat.add_zero] at here later ⊢
      omega
    | cons first others =>
      simp only [List.getElem?_cons_zero, Option.elim_some, List.tail_cons, tally_cons,
        Nat.add_zero] at here later ⊢
      omega

theorem tally_le_add_marked (place : Mark → ℕ) (marks : List Mark)
    (le : ∀ (index : ℕ) record, records[index]? = some record →
      measure record ≤ others[index]?.elim 0 other + marks.countP fun mark => place mark = index) :
    tally measure records ≤ tally other others + marks.length := by
  have bound := tally_le_add_marked_from 0 marks fun index record found => by
    rw [Nat.zero_add]
    exact le index record found
  exact bound.trans (Nat.add_le_add_left List.countP_le_length _)

theorem tally_le_of_places (le : ∀ (index : ℕ) record, records[index]? = some record →
      measure record ≤ others[index]?.elim 0 other) :
    tally measure records ≤ tally other others :=
  tally_le_add_marked id [] le

end Place

end HybridInference.Library
