import HybridInference.Library.Machine
import HybridInference.RouteWise.PendingPrefixes

/-!
# Runs of the pending prefix store

The calls of a run, each with the clock it reads and the evictions it reports, are kept newest
first. What a request may still pop is read off them: its last put and its activity since the
call that ended its entry.
-/

namespace HybridInference.RouteWise

open Library

variable {Time Blocks Scope : Type} [AddCommGroup Time] [LinearOrder Time]

inductive PendingCall (Blocks Scope : Type) where
  | put (requestId : String) (blocks : Blocks) (scopes : List (String × Scope))
  | touch (requestId : String)
  | pop (requestId : String)
  | discard (requestId : String)
  | clear
  | sweepExpired

structure PendingRecord (Time Blocks Scope : Type) where
  now : Time
  call : PendingCall Blocks Scope
  evictions : List (Eviction Time Blocks Scope)

structure PendingStore (Time Blocks Scope : Type) where
  clock : Time
  entries : PendingEntries Time Blocks Scope
  history : List (PendingRecord Time Blocks Scope)

namespace PendingStore

def new (clock : Time) : PendingStore Time Blocks Scope where
  clock := clock
  entries := []
  history := []

def effect (settings : PendingSettings Time) (now : Time)
    (entries : PendingEntries Time Blocks Scope) :
    PendingCall Blocks Scope → PendingEntries Time Blocks Scope × List (Eviction Time Blocks Scope)
  | .put requestId blocks scopes => entries.put settings now requestId blocks scopes
  | .touch requestId =>
    ((entries.touch settings now requestId).1, (entries.touch settings now requestId).2.1)
  | .pop requestId =>
    ((entries.pop settings now requestId).1, (entries.pop settings now requestId).2.1)
  | .discard requestId => ((entries.discard requestId).1, [])
  | .clear => ([], [])
  | .sweepExpired => entries.sweepExpired settings now

def machine (settings : PendingSettings Time) :
    Machine (PendingStore Time Blocks Scope) (Time × PendingCall Blocks Scope) where
  step store event :=
    if store.clock ≤ event.1 then
      some
        { clock := event.1
          entries := (effect settings event.1 store.entries event.2).1
          history :=
            ⟨event.1, event.2, (effect settings event.1 store.entries event.2).2⟩ :: store.history }
    else none

end PendingStore

namespace PendingRecord

def stash (requestId : String) (record : PendingRecord Time Blocks Scope) :
    Option (Blocks × List (String × Scope)) :=
  match record.call with
  | .put other blocks scopes =>
    if other = requestId ∧ (requestId.isEmpty || scopes.isEmpty) = false then
      some (blocks, scopes)
    else none
  | _ => none

def touches (requestId : String) (record : PendingRecord Time Blocks Scope) : Bool :=
  match record.call with
  | .touch other => other = requestId
  | _ => false

def ends (requestId : String) (record : PendingRecord Time Blocks Scope) : Bool :=
  (match record.call with
  | .pop other => other = requestId
  | .discard other => other = requestId
  | .clear => true
  | _ => false) || record.evictions.any fun eviction => eviction.requestId = requestId

def since (requestId : String) (history : List (PendingRecord Time Blocks Scope)) :
    List (PendingRecord Time Blocks Scope) :=
  history.takeWhile fun record => !record.ends requestId

def lastPut (requestId : String) (records : List (PendingRecord Time Blocks Scope)) :
    Option (Blocks × List (String × Scope)) :=
  records.findSome? (stash requestId)

def activity (requestId : String) : List (PendingRecord Time Blocks Scope) → Option Time
  | [] => none
  | record :: older =>
    match activity requestId older with
    | none => if (record.stash requestId).isSome then some record.now else none
    | some was => if record.touches requestId then some record.now else some was

variable {settings : PendingSettings Time} {now : Time} {entries : PendingEntries Time Blocks Scope}

def leaves (requestId : String) (record : PendingRecord Time Blocks Scope)
    (before : Option (PendingEntry Time Blocks Scope)) : Option (PendingEntry Time Blocks Scope) :=
  if record.ends requestId then none
  else
    match record.stash requestId with
    | some stash =>
      some (match before with
        | some was => PendingEntries.replacement was stash.1 stash.2
        | none => PendingEntries.fresh record.now stash.1 stash.2)
    | none =>
      if record.touches requestId then
        before.map fun entry => { entry with lastActivityAt := record.now }
      else before

section Leaves

variable {requestId : String} {evictions : List (Eviction Time Blocks Scope)}
  {before : Option (PendingEntry Time Blocks Scope)}

omit [AddCommGroup Time] [LinearOrder Time] in
theorem leaves_of_evicted {call : PendingCall Blocks Scope}
    (evicted : ∃ eviction ∈ evictions, eviction.requestId = requestId) :
    leaves requestId ⟨now, call, evictions⟩ before = none := by
  unfold leaves
  rw [if_pos]
  unfold ends
  rw [Bool.or_eq_true, List.any_eq_true]
  rcases evicted with ⟨eviction, inside, same⟩
  exact Or.inr ⟨eviction, inside, decide_eq_true same⟩

omit [AddCommGroup Time] [LinearOrder Time] in
theorem not_ends_of_spared {call : PendingCall Blocks Scope}
    (stays : ends requestId ⟨now, call, []⟩ = false)
    (spared : ∀ eviction ∈ evictions, eviction.requestId ≠ requestId) :
    ends requestId ⟨now, call, evictions⟩ = false := by
  unfold ends at stays ⊢
  rw [Bool.or_eq_false_iff] at stays ⊢
  refine ⟨stays.1, List.any_eq_false.mpr fun eviction inside => ?_⟩
  simpa using spared eviction inside

variable {other : String}

omit [AddCommGroup Time] [LinearOrder Time] in
theorem leaves_put {blocks : Blocks} {scopes : List (String × Scope)}
    (spared : ∀ eviction ∈ evictions, eviction.requestId ≠ requestId) :
    leaves requestId ⟨now, .put other blocks scopes, evictions⟩ before =
      if other = requestId ∧ (requestId.isEmpty || scopes.isEmpty) = false then
        some (match before with
          | some was => PendingEntries.replacement was blocks scopes
          | none => PendingEntries.fresh now blocks scopes)
      else before := by
  unfold leaves
  rw [not_ends_of_spared rfl spared, if_neg Bool.false_ne_true]
  unfold stash
  dsimp only
  by_cases stored : other = requestId ∧ (requestId.isEmpty || scopes.isEmpty) = false
  · rw [if_pos stored, if_pos stored]
  · rw [if_neg stored, if_neg stored]
    rfl

omit [AddCommGroup Time] [LinearOrder Time] in
theorem leaves_touch (spared : ∀ eviction ∈ evictions, eviction.requestId ≠ requestId) :
    leaves requestId ⟨now, .touch other, evictions⟩ before = if other = requestId then
        before.map fun entry => { entry with lastActivityAt := now }
      else before := by
  unfold leaves
  rw [not_ends_of_spared rfl spared, if_neg Bool.false_ne_true]
  unfold stash touches
  simp only [decide_eq_true_eq]

omit [AddCommGroup Time] [LinearOrder Time] in
theorem leaves_pop (own : ∀ eviction ∈ evictions, eviction.requestId = other) :
    leaves requestId ⟨now, .pop other, evictions⟩ before =
      if requestId = other then none else before := by
  by_cases same : requestId = other
  · simp [leaves, ends, same]
  · rw [if_neg same]
    unfold leaves
    rw [not_ends_of_spared (by simp [ends, Ne.symm same]) fun eviction inside equal =>
      same (equal.symm.trans (own eviction inside)), if_neg Bool.false_ne_true]
    rfl

omit [AddCommGroup Time] [LinearOrder Time] in
theorem leaves_discard : leaves requestId ⟨now, .discard other, []⟩ before =
      if requestId = other then none else before := by
  by_cases same : requestId = other
  · simp [leaves, ends, same]
  · rw [if_neg same]
    simp [leaves, ends, stash, touches, Ne.symm same]

omit [AddCommGroup Time] [LinearOrder Time] in
theorem leaves_sweepExpired (spared : ∀ eviction ∈ evictions, eviction.requestId ≠ requestId) :
    leaves requestId ⟨now, .sweepExpired, evictions⟩ before = before := by
  unfold leaves
  rw [not_ends_of_spared rfl spared, if_neg Bool.false_ne_true]
  rfl

end Leaves

section

variable (sound : PendingEntries.Sound settings now entries)

include sound

theorem lookup_put (requestId : String)
    (other : String) (blocks : Blocks) (scopes : List (String × Scope)) :
    (entries.put settings now other blocks scopes).1.lookup requestId = leaves requestId
        ⟨now, .put other blocks scopes, (entries.put settings now other blocks scopes).2⟩
        (entries.lookup requestId) := by
  rcases PendingEntries.put_cases sound other blocks scopes with ⟨guard, result⟩ | ⟨guard,
    ⟨was, found, result⟩ | ⟨missing, ⟨-, result⟩ | ⟨oldest, rest, held, -, result⟩⟩⟩
  · rw [result, leaves_put (by simp), if_neg]
    rintro ⟨rfl, stored⟩
    rw [guard] at stored
    exact Bool.noConfusion stored
  · rw [result, leaves_put (by simp), OrderedDict.lookup_assign]
    by_cases same : requestId = other
    · subst same
      rw [if_pos rfl, if_pos ⟨rfl, guard⟩, found]
    · rw [if_neg same, if_neg (fun both => same both.1.symm)]
  · rw [result, leaves_put (by simp),
      ← OrderedDict.assign_of_not_mem _ (OrderedDict.lookup_eq_none_iff.mp missing),
      OrderedDict.lookup_assign]
    by_cases same : requestId = other
    · subst same
      rw [if_pos rfl, if_pos ⟨rfl, guard⟩, missing]
    · rw [if_neg same, if_neg (fun both => same both.1.symm)]
  · subst held
    have outside := OrderedDict.lookup_eq_none_iff.mp missing
    have outsideRest : other ∉ rest.map Prod.fst := fun inside =>
      outside (List.mem_cons_of_mem _ inside)
    have different : oldest.1 ≠ other := fun same => outside (same ▸ List.mem_cons_self)
    have left := OrderedDict.lookup_tail sound.distinct requestId
    have shape : ∃ reason count,
        PendingEntries.put settings now other blocks scopes (oldest :: rest) = (rest ++
          [(other, PendingEntries.fresh now blocks scopes)],
            [⟨oldest.1, oldest.2, count, reason⟩]) := by
      rcases result with ⟨-, result⟩ | ⟨-, result⟩
      · exact ⟨_, _, result⟩
      · exact ⟨_, _, result⟩
    rcases shape with ⟨reason, count, result⟩
    rw [result]
    by_cases taken : oldest.1 = requestId
    · rw [leaves_of_evicted ⟨_, List.mem_singleton_self _, taken⟩,
        ← OrderedDict.assign_of_not_mem _ outsideRest, OrderedDict.lookup_assign,
        if_neg (fun same => different (taken.trans same)), left, if_pos taken.symm]
    · rw [leaves_put (by simpa using taken), ← OrderedDict.assign_of_not_mem _ outsideRest,
        OrderedDict.lookup_assign, left, if_neg (Ne.symm taken)]
      by_cases same : requestId = other
      · subst same
        rw [if_pos rfl, if_pos ⟨rfl, guard⟩, missing]
      · rw [if_neg same, if_neg (fun both => same both.1.symm)]

theorem lookup_touch (requestId other : String) :
    (entries.touch settings now other).1.lookup requestId =
      leaves requestId ⟨now, .touch other, (entries.touch settings now other).2.1⟩
        (entries.lookup requestId) := by
  rcases PendingEntries.touch_cases sound other with ⟨missing, result⟩ |
    ⟨entry, found, -, result⟩ | ⟨entry, found, -, result⟩
  · rw [result, leaves_touch (by simp)]
    by_cases same : other = requestId
    · subst same
      rw [if_pos rfl, missing]
      rfl
    · rw [if_neg same]
  · rw [result]
    dsimp only
    rw [OrderedDict.lookup_remove]
    by_cases same : requestId = other
    · rw [if_pos same, leaves_of_evicted ⟨_, List.mem_singleton_self _, same.symm⟩]
    · rw [if_neg same, leaves_touch (by simpa using Ne.symm same), if_neg (Ne.symm same)]
  · rw [result, leaves_touch (by simp), OrderedDict.lookup_assign, OrderedDict.lookup_remove]
    by_cases same : requestId = other
    · subst same
      rw [if_pos rfl, if_pos rfl, found]
      rfl
    · rw [if_neg same, if_neg same, if_neg (Ne.symm same)]

theorem lookup_pop (requestId other : String) :
    (entries.pop settings now other).1.lookup requestId =
      leaves requestId ⟨now, .pop other, (entries.pop settings now other).2.1⟩
        (entries.lookup requestId) := by
  rw [leaves_pop (PendingEntries.requestId_of_mem_pop sound other), PendingEntries.pop_eq sound,
    OrderedDict.lookup_remove]

theorem lookup_sweepExpired (requestId : String) :
    (entries.sweepExpired settings now).1.lookup requestId =
      leaves requestId ⟨now, .sweepExpired, (entries.sweepExpired settings now).2⟩
        (entries.lookup requestId) := by
  have swept := PendingEntries.sweepExpired_append settings now entries
  have left := OrderedDict.lookup_of_append
    ((entries.sweepExpired settings now).2.map Eviction.held)
    (entries.sweepExpired settings now).1 (by rw [swept]; exact sound.distinct) requestId
  rw [swept, List.map_map] at left
  rw [left]
  by_cases taken : requestId ∈ (entries.sweepExpired settings now).2.map (Prod.fst ∘ Eviction.held)
  · rw [if_pos taken, leaves_of_evicted (List.mem_map.mp taken)]
  · rw [if_neg taken, leaves_sweepExpired]
    intro eviction inside same
    exact taken (List.mem_map.mpr ⟨eviction, inside, same⟩)

theorem lookup_effect (call : PendingCall Blocks Scope) (requestId : String) :
    (PendingStore.effect settings now entries call).1.lookup requestId =
      leaves requestId ⟨now, call, (PendingStore.effect settings now entries call).2⟩
        (entries.lookup requestId) := by
  cases call with
  | put other blocks scopes => exact lookup_put sound requestId other blocks scopes
  | touch other => exact lookup_touch sound requestId other
  | pop other => exact lookup_pop sound requestId other
  | discard other =>
    unfold PendingStore.effect
    dsimp only
    rw [leaves_discard, PendingEntries.discard_eq sound, OrderedDict.lookup_remove]
  | clear => rfl
  | sweepExpired => exact lookup_sweepExpired sound requestId

end

omit [AddCommGroup Time] [LinearOrder Time] in
theorem touches_of_stash {requestId : String} {record : PendingRecord Time Blocks Scope}
    (stored : (record.stash requestId).isSome = true) : record.touches requestId = false := by
  rcases record with ⟨now, call, evictions⟩
  cases call with
  | touch other => exact Bool.noConfusion stored
  | put other blocks scopes => rfl
  | pop other => rfl
  | discard other => rfl
  | clear => rfl
  | sweepExpired => rfl

omit [AddCommGroup Time] [LinearOrder Time] in
section

variable (requestId : String) (record : PendingRecord Time Blocks Scope)

theorem since_cons (history : List (PendingRecord Time Blocks Scope)) :
    since requestId (record :: history) =
      if record.ends requestId then [] else record :: since requestId history := by
  unfold since
  rw [List.takeWhile_cons]
  cases record.ends requestId <;> rfl

omit [AddCommGroup Time] [LinearOrder Time] in
theorem map_stash_leaves (before : Option (PendingEntry Time Blocks Scope))
    (history : List (PendingRecord Time Blocks Scope))
    (known : before.map PendingEntry.stash = lastPut requestId (since requestId history)) :
    (record.leaves requestId before).map PendingEntry.stash =
      lastPut requestId (since requestId (record :: history)) := by
  rw [since_cons]
  unfold leaves
  by_cases ended : record.ends requestId = true
  · rw [if_pos ended, if_pos ended]
    rfl
  · rw [if_neg ended, if_neg ended, lastPut, List.findSome?_cons]
    cases stored : record.stash requestId with
    | some stash =>
      cases before <;> rfl
    | none =>
      rw [← lastPut, ← known]
      split_ifs
      · cases before <;> rfl
      · rfl

omit [AddCommGroup Time] [LinearOrder Time] in
theorem map_lastActivityAt_leaves (before : Option (PendingEntry Time Blocks Scope))
    (history : List (PendingRecord Time Blocks Scope))
    (known : before.map PendingEntry.lastActivityAt =
      activity requestId (since requestId history)) :
    (record.leaves requestId before).map PendingEntry.lastActivityAt =
      activity requestId (since requestId (record :: history)) := by
  rw [since_cons]
  unfold leaves
  by_cases ended : record.ends requestId = true
  · rw [if_pos ended, if_pos ended]
    rfl
  · rw [if_neg ended, if_neg ended, activity, ← known]
    cases stored : record.stash requestId with
    | some stash =>
      have still := touches_of_stash (stored ▸ rfl : (record.stash requestId).isSome = true)
      rw [still]
      cases before <;> rfl
    | none =>
      cases before with
      | none =>
        dsimp only [Option.map_none, Option.isSome_none]
        rw [if_neg Bool.false_ne_true]
        split_ifs <;> rfl
      | some entry =>
        split_ifs <;> rfl

end

end PendingRecord

namespace PendingStore

variable {settings : PendingSettings Time}

theorem sound_effect {now : Time} {entries : PendingEntries Time Blocks Scope}
    (sound : PendingEntries.Sound settings now entries) (call : PendingCall Blocks Scope) :
    PendingEntries.Sound settings now (effect settings now entries call).1 := by
  cases call with
  | put requestId blocks scopes => exact sound.put requestId blocks scopes
  | touch requestId => exact sound.touch requestId
  | pop requestId =>
    unfold effect
    dsimp only
    rw [PendingEntries.pop_eq sound]
    exact sound.sublist (OrderedDict.remove_sublist entries requestId)
  | discard requestId =>
    unfold effect
    dsimp only
    rw [PendingEntries.discard_eq sound]
    exact sound.sublist (OrderedDict.remove_sublist entries requestId)
  | clear => exact PendingEntries.sound_nil settings now
  | sweepExpired =>
    apply sound.sublist
    conv_rhs => rw [← PendingEntries.sweepExpired_append settings now entries]
    exact List.sublist_append_right _ _

structure Kept (settings : PendingSettings Time) (store : PendingStore Time Blocks Scope) :
    Prop where
  sound : PendingEntries.Sound settings store.clock store.entries
  stash : ∀ requestId, (store.entries.lookup requestId).map PendingEntry.stash =
    PendingRecord.lastPut requestId (PendingRecord.since requestId store.history)
  activity : ∀ requestId, (store.entries.lookup requestId).map PendingEntry.lastActivityAt =
    PendingRecord.activity requestId (PendingRecord.since requestId store.history)

theorem Kept.new (settings : PendingSettings Time) (clock : Time) :
    Kept settings (new clock : PendingStore Time Blocks Scope) where
  sound := PendingEntries.sound_nil settings clock
  stash := fun _ => rfl
  activity := fun _ => rfl

theorem Kept.step {store next : PendingStore Time Blocks Scope}
    {event : Time × PendingCall Blocks Scope} (kept : Kept settings store)
    (stepped : (machine settings).step store event = some next) : Kept settings next := by
  unfold machine at stepped
  dsimp only at stepped
  split_ifs at stepped with passed
  rw [Option.some.injEq] at stepped
  subst stepped
  have sound := kept.sound.later passed
  refine ⟨sound_effect sound event.2, ?_, ?_⟩
  · intro requestId
    dsimp only
    rw [PendingRecord.lookup_effect sound]
    exact PendingRecord.map_stash_leaves requestId _ _ _ (kept.stash requestId)
  · intro requestId
    dsimp only
    rw [PendingRecord.lookup_effect sound]
    exact PendingRecord.map_lastActivityAt_leaves requestId _ _ _ (kept.activity requestId)

theorem Kept.pop_iff {store : PendingStore Time Blocks Scope} (kept : Kept settings store)
    {now : Time} (passed : store.clock ≤ now) (requestId : String)
    (stash : Blocks × List (String × Scope)) :
    (store.entries.pop settings now requestId).2.2.map PendingEntry.stash = some stash ↔
      PendingRecord.lastPut requestId (PendingRecord.since requestId store.history) = some stash ∧
      ∃ active, PendingRecord.activity requestId (PendingRecord.since requestId store.history) =
        some active ∧ now - active ≤ settings.ttlSeconds := by
  rw [PendingEntries.pop_eq (kept.sound.later passed), ← kept.stash, ← kept.activity]
  cases store.entries.lookup requestId with
  | none => simp
  | some entry =>
    by_cases expired : PendingEntries.isExpired settings now entry = true
    · have late : ¬ now - entry.lastActivityAt ≤ settings.ttlSeconds :=
        not_le.mpr (of_decide_eq_true expired)
      simp [expired, late]
    · have recent : now - entry.lastActivityAt ≤ settings.ttlSeconds := by
        rw [Bool.not_eq_true] at expired
        exact not_lt.mp (of_decide_eq_false expired)
      simp [expired, recent]

/-- In every run under a clock that does not go back: the cap holds, a sweep removes the expired
entries, a pop returns the last stash that is still due, and a put evicts the oldest. -/
theorem pending_prefixes_keep_their_laws [IsOrderedAddMonoid Time] {start : Time}
    {events : List (Time × PendingCall Blocks Scope)} {store : PendingStore Time Blocks Scope}
    (ran : (machine settings).run (new start) events = some store) :
    store.entries.length ≤ settings.maxEntries ∧
    (store.entries.map fun held => held.2.lastActivityAt).Pairwise (· ≤ ·) ∧
    ∀ now, store.clock ≤ now → ((store.entries.sweepExpired settings now).1 = store.entries.filter
          (fun held => !PendingEntries.isExpired settings now held.2) ∧
        (store.entries.sweepExpired settings now).2.map Eviction.held = store.entries.filter
          (fun held => PendingEntries.isExpired settings now held.2)) ∧
      (∀ requestId stash,
        (store.entries.pop settings now requestId).2.2.map PendingEntry.stash = some stash ↔
          PendingRecord.lastPut requestId (PendingRecord.since requestId store.history) =
            some stash ∧
          ∃ active, PendingRecord.activity requestId (PendingRecord.since requestId store.history) =
              some active ∧ now - active ≤ settings.ttlSeconds) ∧
      ∀ requestId blocks scopes,
        ∀ eviction ∈ (store.entries.put settings now requestId blocks scopes).2,
          eviction.held ∈ store.entries ∧
          (∀ held ∈ store.entries, eviction.entry.lastActivityAt ≤ held.2.lastActivityAt) ∧
          (eviction.reason = .sizeCap →
            ∀ held ∈ store.entries, PendingEntries.isExpired settings now held.2 = false) ∧
          (eviction.reason = .ttl →
            PendingEntries.isExpired settings now eviction.entry = true) := by
  have kept : Kept settings store := Machine.run_invariant
    (fun _ _ _ kept stepped => kept.step stepped) (Kept.new settings start) ran
  refine ⟨kept.sound.capped, kept.sound.oldestFirst, ?_⟩
  intro now passed
  have sound := kept.sound.later passed
  refine ⟨PendingEntries.sweepExpired_eq_filter sound, kept.pop_iff passed, ?_⟩
  intro requestId blocks scopes eviction evicted
  exact PendingEntries.put_evicts sound requestId blocks scopes evicted

/-- A request put twice and touched in between keeps its last stash until its touch is too old. -/
theorem pending_prefixes_keep_their_laws_touched :
    ∃ store, (machine (PendingSettings.of (5 : ℤ) 2)).run (new 0)
        [(0, .put "r" "first" [("a", ())]), (4, .touch "r"), (6, .put "r" "second" [("b", ())])] =
          some store ∧
      (store.entries.pop (PendingSettings.of (5 : ℤ) 2) 9 "r").2.2.map PendingEntry.stash =
        some ("second", [("b", ())]) := by
  have ran : (machine (PendingSettings.of (5 : ℤ) 2)).run (new 0)
      [(0, .put "r" "first" [("a", ())]), (4, .touch "r"), (6, .put "r" "second" [("b", ())])] =
        some _ := rfl
  refine ⟨_, ran, ?_⟩
  apply ((pending_prefixes_keep_their_laws ran).2.2 9 (by decide)).2.1 "r" _ |>.mpr
  exact ⟨rfl, 4, rfl, by decide⟩

/-- A request that was neither popped, discarded, expired nor evicted since its put is gone after a
clear, and a put without scopes is not the stash that a pop returns. -/
theorem pop_after_clear_or_empty_put : ((machine (PendingSettings.of (5 : ℤ) 2)).run (new 0)
        [(0, .put "r" "first" [("a", ())]), (0, .clear)]).map
      (fun store => (store.history.map fun record => record.evictions.length,
        (store.entries.pop (PendingSettings.of (5 : ℤ) 2) 0 "r").2.2.isSome)) =
      some ([0, 0], false) ∧
    ((machine (PendingSettings.of (5 : ℤ) 2)).run (new 0)
        [(0, .put "r" "first" [("a", ())]), (0, .put "r" "second" [])]).map
      (fun store => (store.entries.pop (PendingSettings.of (5 : ℤ) 2) 0 "r").2.2.map
        PendingEntry.stash) =
      some (some ("first", [("a", ())])) :=
  ⟨rfl, rfl⟩

end PendingStore

end HybridInference.RouteWise
