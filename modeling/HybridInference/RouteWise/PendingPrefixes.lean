import HybridInference.Library.OrderedDict
import Mathlib.Algebra.Order.Ring.Int

/-!
# Pending prefixes

`PendingPrefixCacheStore` of `routing.routewise.prefix_cache_pending`: what a request's route
knows of its prefix, kept until its winning observation. The entries are in the order of their
last activity.
-/

namespace HybridInference.RouteWise

open Library

structure PendingEntry (Time Blocks Scope : Type) where
  blocks : Blocks
  scopes : List (String × Scope)
  createdAt : Time
  lastActivityAt : Time

def PendingEntry.stash {Time Blocks Scope : Type} (entry : PendingEntry Time Blocks Scope) :
    Blocks × List (String × Scope) :=
  (entry.blocks, entry.scopes)

structure PendingSettings (Time : Type) [AddCommGroup Time] [LinearOrder Time] where
  ttlSeconds : Time
  maxEntries : ℕ
  ttlNonneg : 0 ≤ ttlSeconds
  holdsOne : 1 ≤ maxEntries

/-- `max(0.0, ttl_seconds)` and `max(1, max_entries)`. -/
def PendingSettings.of {Time : Type} [AddCommGroup Time] [LinearOrder Time] (ttlSeconds : Time)
    (maxEntries : ℤ) : PendingSettings Time where
  ttlSeconds := max 0 ttlSeconds
  maxEntries := (max 1 maxEntries).toNat
  ttlNonneg := le_max_left 0 ttlSeconds
  holdsOne := by omega

inductive EvictionReason where
  | ttl
  | sizeCap
  deriving DecidableEq

structure Eviction (Time Blocks Scope : Type) where
  requestId : String
  entry : PendingEntry Time Blocks Scope
  pendingCount : ℕ
  reason : EvictionReason

def Eviction.held {Time Blocks Scope : Type} (eviction : Eviction Time Blocks Scope) :
    String × PendingEntry Time Blocks Scope :=
  (eviction.requestId, eviction.entry)

abbrev PendingEntries (Time Blocks Scope : Type) :=
  OrderedDict String (PendingEntry Time Blocks Scope)

namespace PendingEntries

variable {Time Blocks Scope : Type} [AddCommGroup Time] [LinearOrder Time]

def isExpired (settings : PendingSettings Time) (now : Time)
    (entry : PendingEntry Time Blocks Scope) : Bool :=
  settings.ttlSeconds < now - entry.lastActivityAt

def evictOldest (maxEntries : ℕ) : PendingEntries Time Blocks Scope →
    PendingEntries Time Blocks Scope × List (Eviction Time Blocks Scope)
  | [] => ([], [])
  | (oldest, entry) :: rest =>
    if maxEntries < rest.length + 1 then
      let later := evictOldest maxEntries rest
      (later.1, ⟨oldest, entry, rest.length, .sizeCap⟩ :: later.2)
    else ((oldest, entry) :: rest, [])

def makeRoom (settings : PendingSettings Time) (now : Time) (requestId : String) :
    PendingEntries Time Blocks Scope →
      PendingEntries Time Blocks Scope × List (Eviction Time Blocks Scope)
  | [] => ([], [])
  | (oldest, entry) :: rest =>
    if ((((oldest, entry) :: rest).lookup requestId).isNone &&
        settings.maxEntries ≤ rest.length + 1) && isExpired settings now entry then
      (rest, [⟨oldest, entry, rest.length, .ttl⟩])
    else ((oldest, entry) :: rest, [])

def put (settings : PendingSettings Time) (now : Time) (requestId : String) (blocks : Blocks)
    (scopes : List (String × Scope)) (entries : PendingEntries Time Blocks Scope) :
    PendingEntries Time Blocks Scope × List (Eviction Time Blocks Scope) :=
  if requestId.isEmpty || scopes.isEmpty then (entries, [])
  else
    let room := makeRoom settings now requestId entries
    let prior := room.1.lookup requestId
    let stored := OrderedDict.assign requestId
      { blocks := blocks
        scopes := scopes
        createdAt := (prior.map PendingEntry.createdAt).getD now
        lastActivityAt := (prior.map PendingEntry.lastActivityAt).getD now } room.1
    let capped := evictOldest settings.maxEntries stored
    (capped.1, room.2 ++ capped.2)

def touch (settings : PendingSettings Time) (now : Time) (requestId : String)
    (entries : PendingEntries Time Blocks Scope) :
    PendingEntries Time Blocks Scope × List (Eviction Time Blocks Scope) × Bool :=
  if requestId.isEmpty then (entries, [], false)
  else
    match entries.lookup requestId with
    | none => (entries, [], false)
    | some entry =>
      if isExpired settings now entry then
        (OrderedDict.remove requestId entries,
          [⟨requestId, entry, (OrderedDict.remove requestId entries).length, .ttl⟩], false)
      else
        (OrderedDict.assign requestId { entry with lastActivityAt := now }
          (OrderedDict.remove requestId entries), [], true)

def pop (settings : PendingSettings Time) (now : Time) (requestId : String)
    (entries : PendingEntries Time Blocks Scope) :
    PendingEntries Time Blocks Scope × List (Eviction Time Blocks Scope) ×
      Option (PendingEntry Time Blocks Scope) :=
  if requestId.isEmpty then (entries, [], none)
  else
    match entries.lookup requestId with
    | none => (entries, [], none)
    | some entry =>
      if isExpired settings now entry then
        (OrderedDict.remove requestId entries,
          [⟨requestId, entry, (OrderedDict.remove requestId entries).length, .ttl⟩], none)
      else (OrderedDict.remove requestId entries, [], some entry)

def discard (requestId : String) (entries : PendingEntries Time Blocks Scope) :
    PendingEntries Time Blocks Scope × Bool :=
  if requestId.isEmpty then (entries, false)
  else (OrderedDict.remove requestId entries, (entries.lookup requestId).isSome)

/-- The loop of `sweep_expired`: from the oldest entry on, until one did not expire. -/
def sweepExpired (settings : PendingSettings Time) (now : Time) : PendingEntries Time Blocks Scope →
      PendingEntries Time Blocks Scope × List (Eviction Time Blocks Scope)
  | [] => ([], [])
  | (oldest, entry) :: rest =>
    if isExpired settings now entry then
      let later := sweepExpired settings now rest
      (later.1, ⟨oldest, entry, rest.length, .ttl⟩ :: later.2)
    else ((oldest, entry) :: rest, [])

def activities (entries : PendingEntries Time Blocks Scope) : List Time :=
  entries.map fun held => held.2.lastActivityAt

/-- What every call keeps: one entry a request with an id, the oldest activity first, none of it
in the future, and no more entries than the store may hold. -/
structure Sound (settings : PendingSettings Time) (now : Time)
    (entries : PendingEntries Time Blocks Scope) : Prop where
  distinct : OrderedDict.Distinct entries
  named : "" ∉ entries.map Prod.fst
  oldestFirst : (activities entries).Pairwise (· ≤ ·)
  past : ∀ activity ∈ activities entries, activity ≤ now
  capped : entries.length ≤ settings.maxEntries

theorem sound_nil (settings : PendingSettings Time) (now : Time) :
    Sound settings now ([] : PendingEntries Time Blocks Scope) where
  distinct := List.nodup_nil
  named := List.not_mem_nil
  oldestFirst := List.Pairwise.nil
  past := by
    intro activity inside
    simp [activities] at inside
  capped := Nat.zero_le _

variable {settings : PendingSettings Time} {now : Time} {entries : PendingEntries Time Blocks Scope}

theorem Sound.sublist {kept : PendingEntries Time Blocks Scope} (sound : Sound settings now entries)
    (part : kept.Sublist entries) : Sound settings now kept where
  distinct := sound.distinct.sublist part
  named := fun inside => sound.named ((part.map _).subset inside)
  oldestFirst := sound.oldestFirst.sublist (part.map _)
  past := fun activity inside => sound.past activity ((part.map _).subset inside)
  capped := part.length_le.trans sound.capped

theorem Sound.later {clock : Time} (sound : Sound settings clock entries) (passed : clock ≤ now) :
    Sound settings now entries where
  distinct := sound.distinct
  named := sound.named
  oldestFirst := sound.oldestFirst
  past := fun activity inside => (sound.past activity inside).trans passed
  capped := sound.capped

variable {requestId : String}

theorem Sound.append {entry : PendingEntry Time Blocks Scope}
    (sound : Sound settings now entries) (named : requestId ≠ "")
    (fresh : requestId ∉ entries.map Prod.fst) (latest : entry.lastActivityAt = now)
    (room : entries.length < settings.maxEntries) :
    Sound settings now (entries ++ [(requestId, entry)]) where
  distinct := sound.distinct.append_singleton entry fresh
  named := by
    rw [List.map_append, List.mem_append]
    rintro (earlier | last)
    · exact sound.named earlier
    · exact named (List.mem_singleton.mp last).symm
  oldestFirst := by
    unfold activities
    rw [List.map_append, List.pairwise_append]
    refine ⟨sound.oldestFirst, List.pairwise_singleton _ _, ?_⟩
    intro earlier inside later last
    simp only [List.map_cons, List.map_nil, List.mem_singleton] at last
    rw [last, latest]
    exact sound.past earlier inside
  past := by
    intro activity inside
    unfold activities at inside
    rw [List.map_append, List.mem_append] at inside
    rcases inside with earlier | last
    · exact sound.past activity earlier
    · simp only [List.map_cons, List.map_nil, List.mem_singleton] at last
      rw [last, latest]
  capped := by
    rw [List.length_append]
    exact room

theorem Sound.assign {was entry : PendingEntry Time Blocks Scope}
    (sound : Sound settings now entries) (found : entries.lookup requestId = some was)
    (same : entry.lastActivityAt = was.lastActivityAt) :
    Sound settings now (OrderedDict.assign requestId entry entries) := by
  have alike : activities (OrderedDict.assign requestId entry entries) = activities entries :=
    OrderedDict.map_assign_of_lookup PendingEntry.lastActivityAt found same
  refine ⟨sound.distinct.assign entry, ?_, ?_, ?_, ?_⟩
  · rw [OrderedDict.keys_assign_of_mem]
    · exact sound.named
    · rw [← OrderedDict.lookup_isSome_iff, found]
      rfl
  · rw [alike]
    exact sound.oldestFirst
  · rw [alike]
    exact sound.past
  · have length : (OrderedDict.assign requestId entry entries).length = entries.length := by
      have := congrArg List.length alike
      simpa only [activities, List.length_map] using this
    rw [length]
    exact sound.capped

variable {oldest : String × PendingEntry Time Blocks Scope}
  {rest : PendingEntries Time Blocks Scope}

theorem not_expired_of_oldest [IsOrderedAddMonoid Time]
    (sound : Sound settings now (oldest :: rest))
    (fresh : isExpired settings now oldest.2 = false) :
    ∀ held ∈ oldest :: rest, isExpired settings now held.2 = false := by
  intro held inside
  unfold isExpired at fresh ⊢
  rw [decide_eq_false_iff_not, not_lt] at fresh ⊢
  rcases List.mem_cons.mp inside with rfl | later
  · exact fresh
  · have ordered := (List.pairwise_cons.mp sound.oldestFirst).1 held.2.lastActivityAt
      (List.mem_map_of_mem (f := fun held => held.2.lastActivityAt) later)
    exact (sub_le_sub_left ordered now).trans fresh

theorem sweepExpired_append (settings : PendingSettings Time) (now : Time)
    (entries : PendingEntries Time Blocks Scope) :
    (sweepExpired settings now entries).2.map Eviction.held ++
      (sweepExpired settings now entries).1 = entries := by
  induction entries with
  | nil => rfl
  | cons held rest ih =>
    simp only [sweepExpired]
    split_ifs
    · simp only [List.map_cons, List.cons_append, ih]
      rfl
    · rfl

theorem sweepExpired_eq_filter [IsOrderedAddMonoid Time] (sound : Sound settings now entries) :
    (sweepExpired settings now entries).1 =
        entries.filter (fun held => !isExpired settings now held.2) ∧
      (sweepExpired settings now entries).2.map Eviction.held =
        entries.filter (fun held => isExpired settings now held.2) := by
  induction entries with
  | nil => exact ⟨rfl, rfl⟩
  | cons held rest ih =>
    rcases ih (sound.sublist (List.sublist_cons_self held rest)) with ⟨kept, taken⟩
    simp only [sweepExpired]
    by_cases expired : isExpired settings now held.2 = true
    · simp only [expired, if_true, kept, List.map_cons, taken, List.filter_cons, Bool.not_true,
        Bool.false_eq_true, if_false]
      exact ⟨trivial, rfl⟩
    · rw [Bool.not_eq_true] at expired
      have none_ := not_expired_of_oldest sound expired
      rw [if_neg (by rw [expired]; exact Bool.false_ne_true)]
      constructor
      · rw [List.filter_eq_self.mpr]
        intro other inside
        rw [none_ other inside]
        rfl
      · rw [List.map_nil, eq_comm, List.filter_eq_nil_iff]
        intro other inside
        rw [none_ other inside]
        exact Bool.false_ne_true

omit [AddCommGroup Time] [LinearOrder Time] in
theorem evictOldest_of_le {maxEntries : ℕ} (room : entries.length ≤ maxEntries) :
    evictOldest maxEntries entries = (entries, []) := by
  cases entries with
  | nil => rfl
  | cons held rest =>
    simp only [evictOldest]
    rw [if_neg]
    rw [List.length_cons] at room
    omega

omit [AddCommGroup Time] [LinearOrder Time] in
theorem evictOldest_of_full {maxEntries : ℕ} (full : rest.length = maxEntries) :
    evictOldest maxEntries (oldest :: rest) =
      (rest, [⟨oldest.1, oldest.2, rest.length, .sizeCap⟩]) := by
  simp only [evictOldest]
  rw [if_pos (by omega), evictOldest_of_le full.le]

theorem makeRoom_of_lookup {was : PendingEntry Time Blocks Scope}
    (found : entries.lookup requestId = some was) :
    makeRoom settings now requestId entries = (entries, []) := by
  cases entries with
  | nil => rfl
  | cons held rest =>
    simp only [makeRoom]
    rw [found]
    simp

theorem makeRoom_of_short (requestId : String) (short : entries.length < settings.maxEntries) :
    makeRoom settings now requestId entries = (entries, []) := by
  cases entries with
  | nil => rfl
  | cons held rest =>
    simp only [makeRoom]
    rw [if_neg]
    rw [List.length_cons] at short
    simp only [Bool.and_eq_true, decide_eq_true_eq]
    omega

theorem makeRoom_of_expired (missing : List.lookup requestId (oldest :: rest) = none)
    (full : (oldest :: rest).length = settings.maxEntries)
    (expired : isExpired settings now oldest.2 = true) :
    makeRoom settings now requestId (oldest :: rest) =
      (rest, [⟨oldest.1, oldest.2, rest.length, .ttl⟩]) := by
  simp only [makeRoom]
  have few : settings.maxEntries ≤ rest.length + 1 := full.ge
  rw [missing, expired, decide_eq_true few]
  rfl

theorem makeRoom_of_fresh (requestId : String) (fresh : isExpired settings now oldest.2 = false) :
    makeRoom settings now requestId (oldest :: rest) = (oldest :: rest, []) := by
  simp only [makeRoom]
  rw [if_neg]
  rw [fresh, Bool.and_false]
  exact Bool.false_ne_true

theorem put_of_guard {scopes : List (String × Scope)} (blocks : Blocks)
    (guarded : (requestId.isEmpty || scopes.isEmpty) = false) :
    put settings now requestId blocks scopes entries =
      let room := makeRoom settings now requestId entries
      let prior := room.1.lookup requestId
      let capped := evictOldest settings.maxEntries (OrderedDict.assign requestId
        { blocks := blocks
          scopes := scopes
          createdAt := (prior.map PendingEntry.createdAt).getD now
          lastActivityAt := (prior.map PendingEntry.lastActivityAt).getD now } room.1)
      (capped.1, room.2 ++ capped.2) := by
  unfold put
  rw [if_neg (by rw [guarded]; exact Bool.false_ne_true)]

def fresh (now : Time) (blocks : Blocks) (scopes : List (String × Scope)) :
    PendingEntry Time Blocks Scope where
  blocks := blocks
  scopes := scopes
  createdAt := now
  lastActivityAt := now

def replacement (was : PendingEntry Time Blocks Scope) (blocks : Blocks)
    (scopes : List (String × Scope)) : PendingEntry Time Blocks Scope where
  blocks := blocks
  scopes := scopes
  createdAt := was.createdAt
  lastActivityAt := was.lastActivityAt

theorem put_cases (sound : Sound settings now entries) (requestId : String) (blocks : Blocks)
    (scopes : List (String × Scope)) :
    ((requestId.isEmpty || scopes.isEmpty) = true ∧
        put settings now requestId blocks scopes entries = (entries, [])) ∨
      (requestId.isEmpty || scopes.isEmpty) = false ∧ ((∃ was, entries.lookup requestId = some was ∧
          put settings now requestId blocks scopes entries =
            (OrderedDict.assign requestId (replacement was blocks scopes) entries, [])) ∨
        entries.lookup requestId = none ∧ ((entries.length < settings.maxEntries ∧
            put settings now requestId blocks scopes entries =
              (entries ++ [(requestId, fresh now blocks scopes)], [])) ∨
          ∃ oldest rest, entries = oldest :: rest ∧ entries.length = settings.maxEntries ∧
            ((isExpired settings now oldest.2 = true ∧
              put settings now requestId blocks scopes entries =
                (rest ++ [(requestId, fresh now blocks scopes)],
                  [⟨oldest.1, oldest.2, rest.length, .ttl⟩])) ∨
            (isExpired settings now oldest.2 = false ∧
              put settings now requestId blocks scopes entries =
                (rest ++ [(requestId, fresh now blocks scopes)],
                  [⟨oldest.1, oldest.2, settings.maxEntries, .sizeCap⟩]))))) := by
  cases nothing : requestId.isEmpty || scopes.isEmpty with
  | true =>
    refine Or.inl ⟨rfl, ?_⟩
    unfold put
    rw [if_pos nothing]
  | false =>
    refine Or.inr ⟨rfl, ?_⟩
    have unguarded : put settings now requestId blocks scopes entries = _ :=
      put_of_guard blocks nothing
    cases found : entries.lookup requestId with
    | some was =>
      refine Or.inl ⟨was, rfl, ?_⟩
      have room : makeRoom settings now requestId entries = (entries, []) :=
        makeRoom_of_lookup found
      have same : (OrderedDict.assign requestId (replacement was blocks scopes) entries).length =
          entries.length := OrderedDict.length_assign_of_lookup _ found
      rw [unguarded, room]
      dsimp only
      rw [found]
      dsimp only [Option.map_some, Option.getD_some]
      have capped : evictOldest settings.maxEntries
          (OrderedDict.assign requestId (replacement was blocks scopes) entries) = (_, []) :=
        evictOldest_of_le (same.trans_le sound.capped)
      unfold replacement at capped ⊢
      rw [capped]
      rfl
    | none =>
      refine Or.inr ⟨rfl, ?_⟩
      have outside := OrderedDict.lookup_eq_none_iff.mp found
      rcases sound.capped.lt_or_eq with short | full
      · refine Or.inl ⟨short, ?_⟩
        rw [unguarded, makeRoom_of_short requestId short]
        dsimp only
        rw [found]
        dsimp only [Option.map_none, Option.getD_none]
        rw [OrderedDict.assign_of_not_mem _ outside, evictOldest_of_le]
        · rfl
        · rw [List.length_append]
          exact short
      · refine Or.inr ?_
        cases entries with
        | nil =>
          have := settings.holdsOne
          rw [List.length_nil] at full
          omega
        | cons oldest rest =>
          refine ⟨oldest, rest, rfl, full, ?_⟩
          have fewer : rest.length + 1 = settings.maxEntries := full
          rw [unguarded]
          cases expired : isExpired settings now oldest.2 with
          | true =>
            refine Or.inl ⟨rfl, ?_⟩
            have outsideRest : requestId ∉ rest.map Prod.fst := fun inside =>
              outside (List.mem_cons_of_mem _ inside)
            rw [makeRoom_of_expired found full expired]
            dsimp only
            rw [OrderedDict.lookup_eq_none_iff.mpr outsideRest]
            dsimp only [Option.map_none, Option.getD_none]
            rw [OrderedDict.assign_of_not_mem _ outsideRest, evictOldest_of_le]
            · rfl
            · rw [List.length_append]
              exact fewer.le
          | false =>
            refine Or.inr ⟨rfl, ?_⟩
            rw [makeRoom_of_fresh requestId expired]
            dsimp only
            rw [found]
            dsimp only [Option.map_none, Option.getD_none]
            rw [OrderedDict.assign_of_not_mem _ outside, List.cons_append, evictOldest_of_full]
            · simp only [List.length_append, List.length_singleton, fewer]
              rfl
            · rw [List.length_append]
              exact fewer

theorem Sound.lookup_of_isEmpty (sound : Sound settings now entries)
    (empty : requestId.isEmpty = true) : entries.lookup requestId = none := by
  rw [String.isEmpty_iff] at empty
  rw [empty]
  exact OrderedDict.lookup_eq_none_iff.mpr sound.named

omit [AddCommGroup Time] [LinearOrder Time] in
theorem remove_of_lookup (missing : entries.lookup requestId = none) :
    OrderedDict.remove requestId entries = entries := by
  rw [OrderedDict.lookup_eq_none_iff] at missing
  apply List.filter_eq_self.mpr
  intro held inside
  rw [decide_eq_true_eq]
  intro same
  exact missing (same ▸ List.mem_map_of_mem inside)

section

variable (sound : Sound settings now entries) (requestId : String)

include sound

theorem touch_cases : (entries.lookup requestId = none ∧
      touch settings now requestId entries = (entries, [], false)) ∨
      (∃ entry, entries.lookup requestId = some entry ∧ isExpired settings now entry = true ∧
        touch settings now requestId entries = (OrderedDict.remove requestId entries,
          [⟨requestId, entry, (OrderedDict.remove requestId entries).length, .ttl⟩], false)) ∨
      ∃ entry, entries.lookup requestId = some entry ∧ isExpired settings now entry = false ∧
        touch settings now requestId entries =
          (OrderedDict.assign requestId { entry with lastActivityAt := now }
            (OrderedDict.remove requestId entries), [], true) := by
  unfold touch
  by_cases empty : requestId.isEmpty = true
  · rw [if_pos empty]
    exact Or.inl ⟨sound.lookup_of_isEmpty empty, rfl⟩
  · rw [if_neg empty]
    cases found : entries.lookup requestId with
    | none => exact Or.inl ⟨rfl, rfl⟩
    | some entry =>
      dsimp only
      by_cases expired : isExpired settings now entry = true
      · rw [if_pos expired]
        exact Or.inr (Or.inl ⟨entry, rfl, expired, rfl⟩)
      · rw [if_neg expired]
        exact Or.inr (Or.inr ⟨entry, rfl, Bool.not_eq_true _ ▸ expired, rfl⟩)

theorem pop_eq : pop settings now requestId entries = (OrderedDict.remove requestId entries,
        match entries.lookup requestId with
        | none => ([], none)
        | some entry =>
          if isExpired settings now entry then
            ([⟨requestId, entry, (OrderedDict.remove requestId entries).length, .ttl⟩], none)
          else ([], some entry)) := by
  unfold pop
  by_cases empty : requestId.isEmpty = true
  · rw [if_pos empty, sound.lookup_of_isEmpty empty,
      remove_of_lookup (sound.lookup_of_isEmpty empty)]
  · rw [if_neg empty]
    cases found : entries.lookup requestId with
    | none =>
      rw [remove_of_lookup found]
    | some entry =>
      dsimp only
      split_ifs <;> rfl

theorem requestId_of_mem_pop :
    ∀ eviction ∈ (pop settings now requestId entries).2.1, eviction.requestId = requestId := by
  intro eviction inside
  rw [pop_eq sound] at inside
  cases found : entries.lookup requestId with
  | none =>
    rw [found] at inside
    simp at inside
  | some entry =>
    rw [found] at inside
    dsimp only at inside
    split_ifs at inside
    · rw [List.mem_singleton] at inside
      rw [inside]
    · simp at inside

theorem discard_eq : discard requestId entries =
      (OrderedDict.remove requestId entries, (entries.lookup requestId).isSome) := by
  unfold discard
  by_cases empty : requestId.isEmpty = true
  · rw [if_pos empty, sound.lookup_of_isEmpty empty,
      remove_of_lookup (sound.lookup_of_isEmpty empty)]
    rfl
  · rw [if_neg empty]

theorem Sound.put (blocks : Blocks)
    (scopes : List (String × Scope)) :
    Sound settings now (put settings now requestId blocks scopes entries).1 := by
  rcases put_cases sound requestId blocks scopes with ⟨-, result⟩ | ⟨guard,
    ⟨was, found, result⟩ | ⟨missing, ⟨short, result⟩ | ⟨oldest, rest, held, full, result⟩⟩⟩
  · rw [result]
    exact sound
  · rw [result]
    exact sound.assign found rfl
  all_goals
    have named : requestId ≠ "" := by
      rintro rfl
      exact Bool.noConfusion guard
    have outside := OrderedDict.lookup_eq_none_iff.mp missing
  · rw [result]
    exact sound.append named outside rfl short
  · subst held
    have rest_sound := sound.sublist (List.sublist_cons_self oldest rest)
    have outsideRest : requestId ∉ rest.map Prod.fst := fun inside =>
      outside (List.mem_cons_of_mem _ inside)
    have stored : Sound settings now (rest ++ [(requestId, fresh now blocks scopes)]) :=
      rest_sound.append named outsideRest rfl (full ▸ Nat.lt_succ_self rest.length)
    rcases result with ⟨-, result⟩ | ⟨-, result⟩
    · rw [result]
      exact stored
    · rw [result]
      exact stored

theorem Sound.touch : Sound settings now (touch settings now requestId entries).1 := by
  have part := OrderedDict.remove_sublist entries requestId
  rcases touch_cases sound requestId with ⟨-, result⟩ | ⟨entry, -, -, result⟩ |
    ⟨entry, found, -, result⟩
  · rw [result]
    exact sound
  · rw [result]
    exact sound.sublist part
  · rw [result]
    have outside := OrderedDict.not_mem_keys_remove entries requestId
    have named : requestId ≠ "" := by
      rintro rfl
      rw [OrderedDict.lookup_eq_none_iff.mpr sound.named] at found
      exact Option.some_ne_none entry found.symm
    dsimp only
    rw [OrderedDict.assign_of_not_mem _ outside]
    exact (sound.sublist part).append named outside rfl
      ((OrderedDict.length_remove_lt found).trans_le sound.capped)

end

theorem put_evicts [IsOrderedAddMonoid Time] (sound : Sound settings now entries)
    (requestId : String) (blocks : Blocks) (scopes : List (String × Scope))
    {eviction : Eviction Time Blocks Scope}
    (evicted : eviction ∈ (PendingEntries.put settings now requestId blocks scopes entries).2) :
    eviction.held ∈ entries ∧
      (∀ held ∈ entries, eviction.entry.lastActivityAt ≤ held.2.lastActivityAt) ∧
      (eviction.reason = .sizeCap → ∀ held ∈ entries, isExpired settings now held.2 = false) ∧
      (eviction.reason = .ttl → isExpired settings now eviction.entry = true) := by
  rcases put_cases sound requestId blocks scopes with ⟨-, result⟩ | ⟨-, ⟨was, -, result⟩ |
    ⟨-, ⟨-, result⟩ | ⟨oldest, rest, held, -, ⟨expired, result⟩ | ⟨fresh, result⟩⟩⟩⟩
  iterate 3
    rw [result] at evicted
    exact absurd evicted List.not_mem_nil
  all_goals
    rw [result, List.mem_singleton] at evicted
    subst held evicted
    refine ⟨List.mem_cons_self, ?_, ?_⟩
    · intro held inside
      rcases List.mem_cons.mp inside with rfl | later
      · exact le_rfl
      · exact (List.pairwise_cons.mp sound.oldestFirst).1 _
          (List.mem_map_of_mem (f := fun held => held.2.lastActivityAt) later)
  · exact ⟨fun capped => EvictionReason.noConfusion capped, fun _ => expired⟩
  · exact ⟨fun _ => not_expired_of_oldest sound fresh, fun aged => EvictionReason.noConfusion aged⟩

end PendingEntries

end HybridInference.RouteWise
