import HybridInference.Library.OrderedDict
import Mathlib.Algebra.Order.Group.Defs
import Mathlib.Data.Finset.Card

/-!
# A store of the values stored last

A store of at most so many values, each dropped some time after it was stored. Its entries are in
the order in which they were stored, and what has expired is dropped when it is read and when
something else is stored. It answers as the log of what was ever stored does: a key has its last
value while that is not too old and not too many other keys were stored after it.
-/

namespace HybridInference.Library

universe u v w

abbrev RecentStore (Key : Type u) (Value : Type v) (Moment : Type w) :=
  OrderedDict Key (Value × Moment)

namespace RecentStore

variable {Key : Type u} {Value : Type v} {Moment : Type w} [DecidableEq Key] [AddCommGroup Moment]
  [LinearOrder Moment]

def fresh (timeout now : Moment) (entry : Key × Value × Moment) : Bool :=
  now - entry.2.2 ≤ timeout

variable (timeout : Moment) (capacity : ℕ)

def get (store : RecentStore Key Value Moment) (key : Key) (now : Moment) :
    Option Value × RecentStore Key Value Moment :=
  match store.lookup key with
  | none => (none, store)
  | some (value, storedAt) =>
    if timeout < now - storedAt then (none, OrderedDict.remove key store)
    else (some value, store)

def put (store : RecentStore Key Value Moment) (key : Key) (value : Value) (now : Moment) :
    RecentStore Key Value Moment :=
  let stored := OrderedDict.remove key store ++ [(key, value, now)]
  let live := stored.dropWhile fun entry => !fresh timeout now entry
  live.drop (live.length - capacity)

section Entries

variable {timeout : Moment} {capacity : ℕ} {store : RecentStore Key Value Moment} {key : Key}
  {value : Value} {now : Moment}

theorem get_eq_some (found : (get timeout store key now).1 = some value) :
    ∃ storedAt, store.lookup key = some (value, storedAt) := by
  unfold get at found
  split at found
  · cases found
  · rename_i held storedAt looked
    split_ifs at found
    cases found
    exact ⟨storedAt, looked⟩

theorem get_sublist : (get timeout store key now).2.Sublist store := by
  unfold get
  split
  · exact List.Sublist.refl _
  · split_ifs
    · exact OrderedDict.remove_sublist _ _
    · exact List.Sublist.refl _

theorem get_of_mem (distinct : OrderedDict.Distinct store) {held : Value × Moment}
    (inside : (key, held) ∈ (get timeout store key now).2) :
    (get timeout store key now).1 = some held.1 := by
  have looked := OrderedDict.lookup_of_mem distinct (get_sublist.subset inside)
  unfold get at inside ⊢
  rw [looked] at inside ⊢
  dsimp only at inside ⊢
  split_ifs at inside ⊢ with old
  · exact absurd (List.mem_map_of_mem inside) (OrderedDict.not_mem_keys_remove store key)
  · rfl

theorem put_sublist : (put timeout capacity store key value now).Sublist
    (OrderedDict.remove key store ++ [(key, value, now)]) := by
  exact (List.drop_sublist _ _).trans (List.dropWhile_sublist _)

theorem put_distinct (distinct : OrderedDict.Distinct store) :
    OrderedDict.Distinct (put timeout capacity store key value now) :=
  ((distinct.sublist (OrderedDict.remove_sublist store key)).append_singleton _
    (OrderedDict.not_mem_keys_remove store key)).sublist put_sublist

theorem mem_put {entry : Key × Value × Moment}
    (inside : entry ∈ put timeout capacity store key value now) :
    entry = (key, value, now) ∨ (entry ∈ store ∧ entry.1 ≠ key) := by
  rcases List.mem_append.mp (put_sublist.subset inside) with kept | new
  · right
    unfold OrderedDict.remove at kept
    rw [List.mem_filter] at kept
    exact ⟨kept.1, by simpa using kept.2⟩
  · exact Or.inl (List.mem_singleton.mp new)

end Entries

def recents (seen : Finset Key) : List (Key × Value × Moment) → List (Key × Value × Moment)
  | [] => []
  | entry :: earlier =>
    if entry.1 ∈ seen then recents seen earlier
    else entry :: recents (insert entry.1 seen) earlier

def storedAfter (log : List (Key × Value × Moment)) (key : Key) : Finset Key :=
  ((log.takeWhile fun entry => entry.1 ≠ key).map Prod.fst).toFinset

/-- What a log, newest first, says the value of a key is: the last one, unless it has expired or was
crowded out. -/
def remembered (log : List (Key × Value × Moment)) (key : Key) (now : Moment) : Option Value :=
  match log.lookup key with
  | none => none
  | some (value, storedAt) =>
    if now - storedAt ≤ timeout ∧ (storedAfter log key).card < capacity then some value else none

section Lists

variable {entries : List (Key × Value × Moment)} {key : Key} {timeout} {now : Moment}

omit [DecidableEq Key] in
theorem filter_take [IsOrderedAddMonoid Moment]
    (sorted : entries.Pairwise fun first second => second.2.2 ≤ first.2.2) (count : ℕ) :
    (entries.take count).filter (fresh timeout now) =
      (entries.filter (fresh timeout now)).take count := by
  induction entries generalizing count with
  | nil => simp
  | cons entry rest ih =>
    rw [List.pairwise_cons] at sorted
    cases count with
    | zero => rfl
    | succ count =>
      rw [List.take_succ_cons]
      by_cases isFresh : fresh timeout now entry = true
      · rw [List.filter_cons_of_pos isFresh, List.filter_cons_of_pos isFresh,
          List.take_succ_cons, ih sorted.2]
      · have none_ : ∀ other ∈ rest, ¬fresh timeout now other = true := by
          intro other inside
          unfold fresh at isFresh ⊢
          rw [decide_eq_true_eq] at isFresh ⊢
          intro young
          exact isFresh ((sub_le_sub_left (sorted.1 other inside) now).trans young)
        have all : rest.filter (fresh timeout now) = [] := List.filter_eq_nil_iff.mpr none_
        rw [List.filter_cons_of_neg isFresh, List.filter_cons_of_neg isFresh, ih sorted.2, all,
          List.take_nil, List.take_nil]

omit [DecidableEq Key] in
theorem dropWhile_eq_filter [IsOrderedAddMonoid Moment]
    (sorted : entries.Pairwise fun first second => first.2.2 ≤ second.2.2) :
    (entries.dropWhile fun entry => !fresh timeout now entry) =
      entries.filter (fresh timeout now) := by
  induction entries with
  | nil => rfl
  | cons entry rest ih =>
    rw [List.pairwise_cons] at sorted
    by_cases isFresh : fresh timeout now entry = true
    · have all : ∀ other ∈ rest, fresh timeout now other = true := by
        intro other inside
        unfold fresh at isFresh ⊢
        rw [decide_eq_true_eq] at isFresh ⊢
        exact (sub_le_sub_left (sorted.1 other inside) now).trans isFresh
      rw [List.dropWhile_cons_of_neg (by simp [isFresh]), List.filter_cons_of_pos isFresh,
        List.filter_eq_self.mpr all]
    · rw [List.dropWhile_cons_of_pos (by simpa using isFresh), List.filter_cons_of_neg isFresh,
        ih sorted.2]

omit [AddCommGroup Moment] [LinearOrder Moment] in
theorem take_filter_take (nodup : (entries.map Prod.fst).Nodup) (count : ℕ) :
    ((entries.take (count + 1)).filter fun entry => entry.1 ≠ key).take count =
      (entries.filter fun entry => entry.1 ≠ key).take count := by
  induction entries generalizing count with
  | nil => simp
  | cons entry rest ih =>
    rw [List.map_cons, List.nodup_cons] at nodup
    rw [List.take_succ_cons]
    by_cases same : entry.1 = key
    · have all : ∀ other ∈ rest, decide (other.1 ≠ key) = true := by
        intro other inside
        rw [decide_eq_true_eq]
        intro equal
        exact nodup.1 (same ▸ equal ▸ List.mem_map_of_mem inside)
      have taken : ∀ other ∈ rest.take count, decide (other.1 ≠ key) = true :=
        fun other inside => all other (List.mem_of_mem_take inside)
      rw [List.filter_cons_of_neg (by simpa using same),
        List.filter_cons_of_neg (by simpa using same), List.filter_eq_self.mpr all,
        List.filter_eq_self.mpr taken, List.take_take, min_self]
    · rw [List.filter_cons_of_pos (by simpa using same),
        List.filter_cons_of_pos (by simpa using same)]
      cases count with
      | zero => rfl
      | succ count => rw [List.take_succ_cons, List.take_succ_cons, ih nodup.2]

end Lists

section Recents

variable {log : List (Key × Value × Moment)} {seen : Finset Key} {key : Key}

omit [AddCommGroup Moment] [LinearOrder Moment] in
theorem not_mem_of_mem_recents {entry : Key × Value × Moment} (inside : entry ∈ recents seen log) :
    entry.1 ∉ seen := by
  induction log generalizing seen with
  | nil => cases inside
  | cons first earlier ih =>
    unfold recents at inside
    split_ifs at inside with known
    · exact ih inside
    · rcases List.mem_cons.mp inside with rfl | inside
      · exact known
      · exact fun there => ih inside (Finset.mem_insert_of_mem there)

omit [AddCommGroup Moment] [LinearOrder Moment] in
theorem recents_sublist : (recents seen log).Sublist log := by
  induction log generalizing seen with
  | nil => exact List.Sublist.refl _
  | cons first earlier ih =>
    unfold recents
    split_ifs
    · exact ih.cons _
    · exact ih.cons_cons _

omit [AddCommGroup Moment] [LinearOrder Moment] in
theorem nodup_recents : ((recents seen log).map Prod.fst).Nodup := by
  induction log generalizing seen with
  | nil => exact List.nodup_nil
  | cons first earlier ih =>
    unfold recents
    split_ifs with known
    · exact ih
    · rw [List.map_cons, List.nodup_cons]
      refine ⟨?_, ih⟩
      intro inside
      rcases List.mem_map.mp inside with ⟨entry, there, same⟩
      exact not_mem_of_mem_recents there (same ▸ Finset.mem_insert_self _ _)

omit [AddCommGroup Moment] [LinearOrder Moment] in
theorem recents_insert :
    recents (insert key seen) log = (recents seen log).filter fun entry => entry.1 ≠ key := by
  induction log generalizing seen with
  | nil => rfl
  | cons first earlier ih =>
    unfold recents
    by_cases known : first.1 ∈ seen
    · rw [if_pos (Finset.mem_insert_of_mem known), if_pos known, ih]
    · rw [if_neg known]
      by_cases same : first.1 = key
      · rw [if_pos (same ▸ Finset.mem_insert_self _ _),
          List.filter_cons_of_neg (by simpa using same),
          same]
        symm
        apply List.filter_eq_self.mpr
        intro entry inside
        rw [decide_eq_true_eq]
        intro equal
        exact not_mem_of_mem_recents inside (equal ▸ Finset.mem_insert_self _ _)
      · have unseen : first.1 ∉ insert key seen := by simp [same, known]
        rw [if_neg unseen, List.filter_cons_of_pos (by simpa using same), Finset.insert_comm, ih]

omit [AddCommGroup Moment] [LinearOrder Moment] in
theorem lookup_take_recents (unseen : key ∉ seen) (count : ℕ) :
    ((recents seen log).take count).lookup key =
      if (storedAfter log key \ seen).card < count then log.lookup key else none := by
  induction log generalizing seen count with
  | nil => simp [recents]
  | cons first earlier ih =>
    unfold recents
    by_cases same : first.1 = key
    · have after : storedAfter (first :: earlier) key = ∅ := by
        unfold storedAfter
        rw [List.takeWhile_cons_of_neg (by simpa using same)]
        rfl
      rw [if_neg (same ▸ unseen), after, Finset.empty_sdiff, Finset.card_empty]
      cases count with
      | zero => simp
      | succ count =>
        rw [List.take_succ_cons, OrderedDict.lookup_eq_ite, if_pos same.symm,
          if_pos (Nat.succ_pos _), OrderedDict.lookup_eq_ite, if_pos same.symm]
    · have after : storedAfter (first :: earlier) key =
          insert first.1 (storedAfter earlier key) := by
        unfold storedAfter
        rw [List.takeWhile_cons_of_pos (by simpa using same), List.map_cons, List.toFinset_cons]
      rw [OrderedDict.lookup_eq_ite first earlier, if_neg (Ne.symm same), after]
      by_cases known : first.1 ∈ seen
      · rw [if_pos known, Finset.insert_sdiff_of_mem _ known]
        exact ih unseen count
      · have still : key ∉ insert first.1 seen := by
          rw [Finset.mem_insert, not_or]
          exact ⟨Ne.symm same, unseen⟩
        have counted : (insert first.1 (storedAfter earlier key) \ seen).card =
            (storedAfter earlier key \ insert first.1 seen).card + 1 := by
          rw [Finset.insert_sdiff_of_notMem _ known, Finset.sdiff_insert,
            ← Finset.erase_insert_eq_erase]
          exact (Finset.card_erase_add_one (Finset.mem_insert_self _ _)).symm
        rw [if_neg known, counted]
        cases count with
        | zero => simp
        | succ count =>
          rw [List.take_succ_cons, OrderedDict.lookup_eq_ite, if_neg (Ne.symm same), ih still]
          simp only [Nat.add_lt_add_iff_right]

end Recents

section Follows

variable [IsOrderedAddMonoid Moment] {timeout} {capacity} {store : RecentStore Key Value Moment}
  {log : List (Key × Value × Moment)} {clock now : Moment} {key other : Key} {value : Value}

/-- The entries that have not expired are those of the log, from a moment on. -/
structure Follows (timeout : Moment) (capacity : ℕ) (store : RecentStore Key Value Moment)
    (log : List (Key × Value × Moment)) (clock : Moment) : Prop where
  distinct : OrderedDict.Distinct store
  sorted : store.Pairwise fun first second => first.2.2 ≤ second.2.2
  logSorted : log.Pairwise fun first second => second.2.2 ≤ first.2.2
  past : ∀ entry ∈ log, entry.2.2 ≤ clock
  storePast : ∀ entry ∈ store, entry.2.2 ≤ clock
  bounded : store.length ≤ capacity
  entries : ∀ now, clock ≤ now → store.reverse.filter (fresh timeout now) =
    ((recents ∅ log).take capacity).filter (fresh timeout now)

omit [IsOrderedAddMonoid Moment] in
theorem follows_nil (clock : Moment) :
    Follows timeout capacity ([] : RecentStore Key Value Moment) [] clock :=
  { distinct := List.nodup_nil
    sorted := List.Pairwise.nil
    logSorted := List.Pairwise.nil
    past := by simp
    storePast := by simp
    bounded := Nat.zero_le _
    entries := by simp [recents] }

omit [IsOrderedAddMonoid Moment] in
theorem Follows.mono (follows : Follows timeout capacity store log clock) (le : clock ≤ now) :
    Follows timeout capacity store log now :=
  { follows with
    past := fun entry inside => (follows.past entry inside).trans le
    storePast := fun entry inside => (follows.storePast entry inside).trans le
    entries := fun later after => follows.entries later (le.trans after) }

omit [IsOrderedAddMonoid Moment] in
theorem lookup_filter {entries : List (Key × Value × Moment)}
    (distinct : (entries.map Prod.fst).Nodup) :
    (entries.filter (fresh timeout now)).lookup key =
      (entries.lookup key).filter fun held => now - held.2 ≤ timeout := by
  induction entries with
  | nil => rfl
  | cons entry rest ih =>
    rw [List.map_cons, List.nodup_cons] at distinct
    rw [OrderedDict.lookup_eq_ite entry rest]
    by_cases isFresh : fresh timeout now entry = true
    · rw [List.filter_cons_of_pos isFresh, OrderedDict.lookup_eq_ite, ih distinct.2]
      split_ifs
      · simpa [Option.filter, fresh] using isFresh
      · rfl
    · rw [List.filter_cons_of_neg isFresh, ih distinct.2]
      split_ifs with same
      · have absent : rest.lookup key = none :=
          OrderedDict.lookup_eq_none_iff.mpr (same ▸ distinct.1)
        rw [absent]
        simpa [Option.filter, fresh] using isFresh
      · rfl

omit [AddCommGroup Moment] [LinearOrder Moment] [IsOrderedAddMonoid Moment] in
theorem lookup_reverse (distinct : OrderedDict.Distinct store) (key : Key) :
    store.reverse.lookup key = store.lookup key := by
  have reversed : OrderedDict.Distinct store.reverse := by
    unfold OrderedDict.Distinct
    rw [List.map_reverse, List.nodup_reverse]
    exact distinct
  cases found : store.lookup key with
  | none =>
    rw [OrderedDict.lookup_eq_none_iff] at found ⊢
    rwa [List.map_reverse, List.mem_reverse]
  | some held =>
    have inside := List.mem_reverse.mpr (OrderedDict.mem_of_lookup found)
    exact OrderedDict.lookup_of_mem reversed inside

omit [IsOrderedAddMonoid Moment] in
theorem Follows.lookup (follows : Follows timeout capacity store log clock) (le : clock ≤ now) :
    (store.lookup key).filter (fun held => now - held.2 ≤ timeout) =
      (if (storedAfter log key).card < capacity then log.lookup key else none).filter
        fun held => now - held.2 ≤ timeout := by
  have looked := congrArg (List.lookup key) (follows.entries now le)
  have taken := @lookup_take_recents Key Value Moment _ log ∅ key (Finset.notMem_empty key) capacity
  have reversed : (store.reverse.map Prod.fst).Nodup := by
    rw [List.map_reverse, List.nodup_reverse]
    exact follows.distinct
  have recent : (((recents ∅ log).take capacity).map Prod.fst).Nodup :=
    nodup_recents.sublist ((List.take_sublist _ _).map Prod.fst)
  rw [lookup_filter reversed, lookup_filter recent, taken,
    lookup_reverse follows.distinct] at looked
  exact looked

/-- Removing what has expired forgets nothing that counts. -/
theorem Follows.remove (follows : Follows timeout capacity store log clock)
    (expired : ∀ entry ∈ store, entry.1 = key → timeout < clock - entry.2.2) :
    Follows timeout capacity (OrderedDict.remove key store) log clock := by
  have part := OrderedDict.remove_sublist store key
  refine ⟨follows.distinct.sublist part, follows.sorted.sublist part, follows.logSorted,
    follows.past, fun entry inside => follows.storePast entry (part.subset inside),
    part.length_le.trans follows.bounded, ?_⟩
  intro now later
  rw [← follows.entries now later]
  unfold OrderedDict.remove
  rw [← List.filter_reverse, List.filter_filter]
  apply List.filter_congr
  intro entry inside
  by_cases same : entry.1 = key
  · have old := expired entry (List.mem_reverse.mp inside) same
    have stale : fresh timeout now entry = false := by
      unfold fresh
      rw [decide_eq_false_iff_not, not_le]
      exact old.trans_le (sub_le_sub_right later _)
    rw [stale, Bool.false_and]
  · simp [same]

theorem Follows.get (follows : Follows timeout capacity store log clock) (le : clock ≤ now) :
    (RecentStore.get timeout store key now).1 = remembered timeout capacity log key now ∧
      Follows timeout capacity (RecentStore.get timeout store key now).2 log now := by
  have same : (store.lookup key).filter (fun held => now - held.2 ≤ timeout) = _ :=
    follows.lookup le
  unfold RecentStore.get remembered
  cases found : store.lookup key with
  | none =>
    refine ⟨?_, follows.mono le⟩
    rw [found] at same
    cases logged : log.lookup key with
    | none => rfl
    | some held =>
      rw [logged] at same
      by_cases few : (storedAfter log key).card < capacity
      · have old : ¬now - held.2 ≤ timeout := by simpa [few, Option.filter] using same
        simp [old]
      · simp [few]
  | some held =>
    rw [found] at same
    dsimp only
    by_cases old : timeout < now - held.2
    · rw [if_pos old]
      constructor
      · have stale : ¬now - held.2 ≤ timeout := not_le.mpr old
        cases logged : log.lookup key with
        | none => rfl
        | some other =>
          rw [logged] at same
          by_cases few : (storedAfter log key).card < capacity
          · have gone : ¬now - other.2 ≤ timeout := by
              simpa [few, stale, Option.filter] using same
            simp [gone]
          · simp [few]
      · apply (follows.mono le).remove
        intro entry inside isKey
        have only := OrderedDict.lookup_of_mem follows.distinct inside
        rw [isKey, found, Option.some.injEq] at only
        rw [← only]
        exact old
    · rw [if_neg old]
      refine ⟨?_, follows.mono le⟩
      have young : now - held.2 ≤ timeout := not_lt.mp old
      by_cases few : (storedAfter log key).card < capacity
      · cases logged : log.lookup key with
        | none => simp [few, logged, young, Option.filter] at same
        | some other =>
          rw [logged] at same
          by_cases recent : now - other.2 ≤ timeout
          · have equal : held = other := by
              simpa [few, young, recent, Option.filter] using same
            simp [equal, recent, few]
          · simp [few, young, recent, Option.filter] at same
      · simp [few, young, Option.filter] at same

theorem Follows.put (follows : Follows timeout capacity store log clock) (le : clock ≤ now)
    (nonneg : 0 ≤ timeout) (room : 0 < capacity) :
    Follows timeout capacity (RecentStore.put timeout capacity store key value now)
      ((key, value, now) :: log) now := by
  have part := OrderedDict.remove_sublist store key
  have appended : (OrderedDict.remove key store ++ [(key, value, now)]).Pairwise
      fun first second => first.2.2 ≤ second.2.2 := by
    rw [List.pairwise_append]
    refine ⟨follows.sorted.sublist part, List.pairwise_singleton _ _, ?_⟩
    intro entry inside last isLast
    rw [List.mem_singleton.mp isLast]
    exact (follows.storePast entry (part.subset inside)).trans le
  have distinct : OrderedDict.Distinct (OrderedDict.remove key store ++ [(key, value, now)]) :=
    (follows.distinct.sublist part).append_singleton _ (OrderedDict.not_mem_keys_remove store key)
  unfold RecentStore.put
  dsimp only
  rw [dropWhile_eq_filter appended]
  generalize isLive : (OrderedDict.remove key store ++ [(key, value, now)]).filter
    (fresh timeout now) = live
  have kept : (live.drop (live.length - capacity)).Sublist
      (OrderedDict.remove key store ++ [(key, value, now)]) := by
    rw [← isLive]
    exact (List.drop_sublist _ _).trans List.filter_sublist
  have all : ∀ entry ∈ (key, value, now) :: log, entry.2.2 ≤ now := by
    intro entry inside
    rcases List.mem_cons.mp inside with rfl | inside
    · exact le_rfl
    · exact (follows.past entry inside).trans le
  refine ⟨distinct.sublist kept, appended.sublist kept, ?_, all, ?_, ?_, ?_⟩
  · rw [List.pairwise_cons]
    exact ⟨fun entry inside => (follows.past entry inside).trans le, follows.logSorted⟩
  · intro entry inside
    rcases List.mem_append.mp (kept.subset inside) with inside | inside
    · exact (follows.storePast entry (part.subset inside)).trans le
    · rw [List.mem_singleton.mp inside]
  · rw [List.length_drop]
    omega
  · intro later after
    have isFresh : fresh timeout now (key, value, now) = true := by
      simpa [fresh] using nonneg
    -- What was fresh when the value was stored, the newest first.
    have reversed : live.reverse = (key, value, now) ::
        (((recents ∅ log).filter (fresh timeout now)).take capacity).filter
          fun entry => entry.1 ≠ key := by
      rw [← isLive, List.filter_append, List.reverse_append, ← List.filter_reverse]
      have logged := follows.entries now le
      rw [filter_take (follows.logSorted.sublist recents_sublist)] at logged
      unfold OrderedDict.remove
      rw [← logged, ← List.filter_reverse, List.filter_comm]
      simp [isFresh]
    have logged : recents ∅ ((key, value, now) :: log) = (key, value, now) ::
        (recents ∅ log).filter fun entry => entry.1 ≠ key := by
      rw [recents, if_neg (Finset.notMem_empty _), recents_insert]
    have taken : live.reverse.take (live.length - (live.length - capacity)) =
        live.reverse.take capacity := by
      rcases le_total live.length capacity with fits | more
      · rw [List.take_of_length_le, List.take_of_length_le]
        · rw [List.length_reverse]
          exact fits
        · rw [List.length_reverse]
          omega
      · rw [Nat.sub_sub_self more]
    have narrower : ∀ entries : List (Key × Value × Moment),
        (entries.filter (fresh timeout now)).filter (fresh timeout later) =
          entries.filter (fresh timeout later) := by
      intro entries
      rw [List.filter_filter]
      apply List.filter_congr
      intro entry _
      by_cases young : fresh timeout later entry = true
      · have before : fresh timeout now entry = true := by
          unfold fresh at young ⊢
          rw [decide_eq_true_eq] at young ⊢
          exact (sub_le_sub_right after _).trans young
        rw [young, before]
        rfl
      · rw [Bool.not_eq_true] at young
        rw [young, Bool.false_and]
    have sorted : ((recents ∅ log).filter fun entry => entry.1 ≠ key).Pairwise
        fun first second => second.2.2 ≤ first.2.2 :=
      follows.logSorted.sublist (List.filter_sublist.trans recents_sublist)
    have nodup : (((recents ∅ log).filter (fresh timeout now)).map Prod.fst).Nodup :=
      nodup_recents.sublist (List.filter_sublist.map Prod.fst)
    rw [List.reverse_drop, taken, reversed, logged]
    cases capacity with
    | zero => exact absurd room (lt_irrefl 0)
    | succ count =>
      rw [List.take_succ_cons, List.take_succ_cons, take_filter_take nodup, List.filter_comm,
        ← filter_take sorted]
      have rest := narrower (((recents ∅ log).filter fun entry => entry.1 ≠ key).take count)
      by_cases young : fresh timeout later (key, value, now) = true
      · rw [List.filter_cons_of_pos young, List.filter_cons_of_pos young, rest]
      · rw [List.filter_cons_of_neg young, List.filter_cons_of_neg young, rest]

end Follows

end RecentStore

end HybridInference.Library
