import HybridInference.Library.ListUpdate
import HybridInference.Spend.Effect

/-!
# Every recorded cost is somewhere, once

The dictionaries of the ledger are sums over the recorded costs by where these
are. A cost changes its place together with the entry that carries it, so the
sums stay right whatever the store answers, and a cost is applied by at most one
write: it is written again only after a write that did not apply it.
-/

namespace HybridInference.Spend

open Library

def held (places : Place → Bool) (key : CostKey) (entries : List Entry) : Amount :=
  tally (fun entry : Entry => if places entry.place && entry.key = key then entry.amount else 0)
    entries

section Held

variable {places others : Place → Bool} {key : CostKey} {entries : List Entry}

theorem held_append (entry : Entry) :
    held places key (entries ++ [entry]) = held places key entries +
      if places entry.place && entry.key = key then entry.amount else 0 := by
  simp [held]

theorem held_eq_zero (gone : ∀ entry ∈ entries, places entry.place = false) :
    held places key entries = 0 := by
  apply tally_eq_zero
  intro entry member
  simp [gone entry member]

theorem held_map {change : Entry → Entry} {condition : Prop} [Decidable condition]
    (keyed : ∀ entry, (change entry).key = entry.key)
    (kept : ∀ entry, (change entry).cost = entry.cost)
    (placed : ∀ entry, entry.key = key → places (change entry).place =
      (places entry.place || (others entry.place && decide condition)))
    (apart : ∀ place, places place = true → others place = false) :
    held places key (entries.map change) = held places key entries +
      if condition then held others key entries else 0 := by
  unfold held
  rw [tally_map, ← tally_if, ← tally_add]
  apply tally_congr
  intro entry _
  have amount : (change entry).amount = entry.amount := by simp [Entry.amount, kept]
  by_cases same : entry.key = key
  · rw [placed entry same]
    have exclusive := apart entry.place
    by_cases here : places entry.place = true
    · simp [keyed, same, here, exclusive here, amount]
    · by_cases there : others entry.place = true <;> by_cases holds : condition <;>
        simp [keyed, same, here, there, holds, amount]
  · simp [keyed, same]

theorem held_map_same {change : Entry → Entry} (keyed : ∀ entry, (change entry).key = entry.key)
    (kept : ∀ entry, (change entry).cost = entry.cost)
    (placed : ∀ entry, places (change entry).place = places entry.place) :
    held places key (entries.map change) = held places key entries := by
  unfold held
  rw [tally_map]
  apply tally_congr
  intro entry _
  simp [keyed, placed, Entry.amount, kept]

theorem held_requests_pos {entry : Entry} (member : entry ∈ entries)
    (here : places entry.place = true) : 0 < (held places entry.key entries).requests := by
  induction entries with
  | nil => cases member
  | cons first rest ih =>
    simp only [held, tally_cons, Amount.add_requests]
    rcases List.mem_cons.mp member with rfl | later
    · simp [here, Entry.amount]
    · have := ih later
      simp only [held] at this
      omega

theorem held_eq_zero_of_requests (nothing : (held places key entries).requests = 0) :
    held places key entries = 0 := by
  apply tally_eq_zero
  intro entry member
  by_cases here : places entry.place = true
  · by_cases same : entry.key = key
    · have := held_requests_pos member here
      rw [same] at this
      omega
    · simp [same]
  · simp [here]

theorem held_everywhere (key : CostKey) (entries : List Entry) : held (fun _ => true) key entries =
      held Place.isLanded key entries + held Place.isPending key entries +
        held Place.isWriting key entries + held Place.isUnknown key entries +
          held Place.isDropped key entries := by
  unfold held
  simp only [← tally_add]
  apply tally_congr
  intro entry _
  cases entry.place <;> simp [Place.isLanded, Place.isPending, Place.isWriting, Place.isUnknown,
    Place.isDropped]

end Held

def Amount.sum (amount : Amount) : CountedSum where
  total := amount.cost
  count := amount.requests

theorem Amount.entry_sum (amount : Amount) : amount.sum.entry = if amount.requests = 0 then none
      else some { total := amount.cost, count := amount.requests } := by
  unfold CountedSum.entry Amount.sum
  by_cases nothing : amount.requests = 0 <;> simp [nothing]

theorem Amount.entry_remove (left gone : Amount) : ((left + gone).sum.entry.bind fun entry =>
      (entry.remove gone.cost gone.requests).entry) = left.sum.entry := by
  have removed : (left + gone).sum.remove gone.cost gone.requests = left.sum := by
    ext <;> simp [Amount.sum, CountedSum.remove]
  rw [CountedSum.entry_remove _ _ (Int.natCast_nonneg _), removed]

namespace SpendLedger

variable {ledger : SpendLedger} {batch : Dict CostKey Amount}

/-- `_unconfirmed[user][(key, day)]`. -/
def unconfirmedOf (ledger : SpendLedger) (key : CostKey) : Option CountedSum :=
  (ledger.unconfirmed.find key.userId).bind fun perUser => perUser.find (key.keyId, key.day)

def unknownOf (ledger : SpendLedger) (key : CostKey) : Amount :=
  tally (fun marked => if marked.1 = key then marked.2 else 0) ledger.unknown

def unconfirmedAmount (ledger : SpendLedger) (key : CostKey) : Amount :=
  ledger.pending.read key + ledger.writing.read key + ledger.unknownOf key

def Balanced (ledger : SpendLedger) : Prop :=
  ∀ key, ledger.unconfirmedOf key = (ledger.unconfirmedAmount key).sum.entry

theorem Balanced.of_removed {after : SpendLedger} (balanced : ledger.Balanced) (keys : List CostKey)
    (entries : ∀ key, after.unconfirmedOf key = if key ∈ keys then
        (ledger.unconfirmedOf key).bind fun entry =>
          (entry.remove (batch.read key).cost (batch.read key).requests).entry
      else ledger.unconfirmedOf key)
    (amounts : ∀ key, ledger.unconfirmedAmount key =
      after.unconfirmedAmount key + if key ∈ keys then batch.read key else 0) :
    after.Balanced := by
  intro key
  rw [entries key, balanced key, amounts key]
  split_ifs
  · exact Amount.entry_remove _ _
  · rw [add_zero]

theorem costKey_eq_iff {first second : CostKey} : first = second ↔
      first.userId = second.userId ∧ (first.keyId, first.day) = (second.keyId, second.day) := by
  cases first
  cases second
  simp

theorem unconfirmedOf_insert (ledger : SpendLedger) (userId : String)
    (perUser : Dict (Option ℤ × Day) CountedSum) (other : CostKey) :
    unconfirmedOf { ledger with unconfirmed := ledger.unconfirmed.insert userId perUser } other =
      if other.userId = userId then perUser.find (other.keyId, other.day)
      else ledger.unconfirmedOf other := by
  simp only [unconfirmedOf, Dict.find_insert]
  split_ifs <;> rfl

theorem enter_unconfirmedOf (ledger : SpendLedger) (key other : CostKey) (costUsd : ℚ) :
    (ledger.enter key costUsd).unconfirmedOf other =
      if other = key then some (((ledger.unconfirmedOf key).getD {}).add costUsd)
      else ledger.unconfirmedOf other := by
  have found : ∀ place, ((ledger.unconfirmed.find key.userId).getD ∅).find place =
      (ledger.unconfirmed.find key.userId).bind fun perUser => perUser.find place := by
    intro place
    cases ledger.unconfirmed.find key.userId <;> rfl
  simp only [unconfirmedOf, enter, costKey_eq_iff, Dict.find_insert]
  by_cases user : other.userId = key.userId
  · simp only [user, if_true, Option.bind_some, true_and, Dict.find_insert, found]
  · simp [user]

theorem unconfirmedOf_keepUser (ledger : SpendLedger) (userId : String)
    (perUser : Dict (Option ℤ × Day) CountedSum) (other : CostKey) :
    unconfirmedOf { ledger with unconfirmed := keepUser ledger.unconfirmed userId perUser } other =
      if other.userId = userId then perUser.find (other.keyId, other.day)
      else ledger.unconfirmedOf other := by
  unfold keepUser
  split_ifs with empty same same
  · rw [Dict.eq_empty_of_keys_isEmpty empty]
    simp [unconfirmedOf, Dict.find_erase, same]
  · simp [unconfirmedOf, Dict.find_erase, same]
  · rw [unconfirmedOf_insert, if_pos same]
  · rw [unconfirmedOf_insert, if_neg same]

theorem unconfirm_unconfirmedOf (ledger : SpendLedger) (key other : CostKey) (amount : Amount) :
    (ledger.unconfirm key amount).unconfirmedOf other = if other = key then
        (ledger.unconfirmedOf key).bind fun entry =>
          (entry.remove amount.cost amount.requests).entry
      else ledger.unconfirmedOf other := by
  unfold unconfirm
  split
  · rename_i absent
    split_ifs with same
    · simp [same, unconfirmedOf, absent]
    · rfl
  · rename_i perUser found
    split
    · rename_i missing
      split_ifs with same
      · simp [same, unconfirmedOf, found, missing]
      · rfl
    · rename_i entry present
      have current : ledger.unconfirmedOf key = some entry := by
        simp [unconfirmedOf, found, present]
      have old (user : other.userId = key.userId) :
          ledger.unconfirmedOf other = perUser.find (other.keyId, other.day) := by
        simp [unconfirmedOf, user, found]
      rw [current, Option.bind_some]
      simp only [costKey_eq_iff, CountedSum.entry]
      by_cases user : other.userId = key.userId
      · simp only [user, true_and, old user]
        split_ifs with empty place place
        · rw [unconfirmedOf_keepUser, if_pos user, Dict.find_erase, if_pos place]
        · rw [unconfirmedOf_keepUser, if_pos user, Dict.find_erase, if_neg place]
        · rw [unconfirmedOf_insert, if_pos user, Dict.find_insert, if_pos place]
        · rw [unconfirmedOf_insert, if_pos user, Dict.find_insert, if_neg place]
      · simp only [user, false_and, if_false]
        split_ifs
        · rw [unconfirmedOf_keepUser, if_neg user]
        · rw [unconfirmedOf_insert, if_neg user]

variable {keys : List CostKey}

theorem unconfirmAll_unconfirmedOf (distinct : keys.Nodup)
    (ledger : SpendLedger) (other : CostKey) :
    (ledger.unconfirmAll keys batch).unconfirmedOf other = if other ∈ keys then
        (ledger.unconfirmedOf other).bind fun entry =>
          (entry.remove (batch.read other).cost (batch.read other).requests).entry
      else ledger.unconfirmedOf other := by
  induction keys generalizing ledger with
  | nil => rfl
  | cons key rest ih =>
    rcases List.nodup_cons.mp distinct with ⟨fresh, restDistinct⟩
    simp only [unconfirmAll, List.foldl_cons] at ih ⊢
    rw [ih restDistinct, unconfirm_unconfirmedOf]
    by_cases same : other = key
    · subst same
      simp [fresh]
    · simp [same]

theorem read_handBack (distinct : keys.Nodup) (pending : Dict CostKey Amount) (other : CostKey) :
    Dict.read (keys.foldl (fun pending key => addPending pending key (batch.read key)) pending)
      other = pending.read other + if other ∈ keys then batch.read other else 0 := by
  induction keys generalizing pending with
  | nil => simp
  | cons key rest ih =>
    rcases List.nodup_cons.mp distinct with ⟨fresh, restDistinct⟩
    rw [List.foldl_cons, ih restDistinct, addPending, Dict.read_insert]
    by_cases same : other = key
    · subst same
      simp [fresh]
    · simp [same]

theorem markUnknown_unknownOf (distinct : keys.Nodup) (ledger : SpendLedger) (other : CostKey) :
    (ledger.markUnknown keys batch).unknownOf other =
      ledger.unknownOf other + if other ∈ keys then batch.read other else 0 := by
  simp only [markUnknown, unknownOf, tally_append]
  congr 1
  induction keys with
  | nil => rfl
  | cons key rest ih =>
    rcases List.nodup_cons.mp distinct with ⟨fresh, restDistinct⟩
    rw [List.map_cons, tally_cons, ih restDistinct]
    by_cases same : other = key
    · subst same
      simp [fresh]
    · simp [same, Ne.symm same]

theorem settleWrite_unconfirmedOf {applied : List CostKey} (distinct : applied.Nodup)
    (ledger : SpendLedger) (failed unknown : List CostKey) (now : ℚ) (other : CostKey) :
    (ledger.settleWrite batch applied failed unknown now).unconfirmedOf other =
      if other ∈ applied then
        (ledger.unconfirmedOf other).bind fun entry =>
          (entry.remove (batch.read other).cost (batch.read other).requests).entry
      else ledger.unconfirmedOf other := by
  rcases settleWrite_eq ledger batch applied failed unknown now with ⟨retry, delay, parts⟩
  rw [parts]
  exact unconfirmAll_unconfirmedOf distinct { ledger with writing := ∅ } other

theorem settleWrite_unknownOf {unknown : List CostKey} (distinct : unknown.Nodup)
    (ledger : SpendLedger) (applied failed : List CostKey) (now : ℚ) (other : CostKey) :
    (ledger.settleWrite batch applied failed unknown now).unknownOf other =
      ledger.unknownOf other + if other ∈ unknown then batch.read other else 0 := by
  rcases settleWrite_eq ledger batch applied failed unknown now with ⟨retry, delay, parts⟩
  rw [parts]
  exact markUnknown_unknownOf distinct ledger other

theorem settleWrite_pending {failed : List CostKey} (distinct : failed.Nodup)
    (ledger : SpendLedger) (applied unknown : List CostKey) (now : ℚ) (other : CostKey) :
    (ledger.settleWrite batch applied failed unknown now).pending.read other =
      ledger.pending.read other + if other ∈ failed then batch.read other else 0 := by
  rcases settleWrite_eq ledger batch applied failed unknown now with ⟨retry, delay, parts⟩
  rw [parts]
  exact read_handBack distinct ledger.pending other

theorem settleWrite_kept (ledger : SpendLedger) (batch : Dict CostKey Amount)
    (applied failed unknown : List CostKey) (now : ℚ) :
    (ledger.settleWrite batch applied failed unknown now).writing = ∅ ∧
      (ledger.settleWrite batch applied failed unknown now).writer = ledger.writer := by
  rcases settleWrite_eq ledger batch applied failed unknown now with ⟨retry, delay, parts⟩
  rw [parts]
  exact ⟨rfl, rfl⟩

variable {applied failed unknown : List CostKey}

theorem answered_cases (answered : (applied ++ failed ++ unknown).Perm batch.keys) :
    applied.Nodup ∧ failed.Nodup ∧ unknown.Nodup ∧ (∀ key ∈ failed, key ∉ applied ∧ key ∉ unknown) ∧
      (∀ key ∈ applied, key ∉ unknown) ∧
      ∀ key, key ∉ applied → key ∉ failed → key ∉ unknown → batch.read key = 0 := by
  have distinct : (applied ++ failed ++ unknown).Nodup :=
    answered.nodup_iff.mpr batch.nodupKeys
  rw [List.nodup_append, List.nodup_append] at distinct
  rcases distinct with ⟨⟨appliedDistinct, failedDistinct, apart⟩, unknownDistinct, apartUnknown⟩
  refine ⟨appliedDistinct, failedDistinct, unknownDistinct, ?_, ?_, ?_⟩
  · intro key inFailed
    refine ⟨fun inApplied => apart key inApplied key inFailed rfl, fun inUnknown => ?_⟩
    exact apartUnknown key (List.mem_append_right _ inFailed) key inUnknown rfl
  · intro key inApplied inUnknown
    exact apartUnknown key (List.mem_append_left _ inApplied) key inUnknown rfl
  · intro key notApplied notFailed notUnknown
    apply Dict.read_eq_zero_of_not_mem
    intro inBatch
    have inAnswer := answered.mem_iff.mpr inBatch
    simp only [List.mem_append] at inAnswer
    tauto

theorem settleWrite_unconfirmedAmount
    (answered : (applied ++ failed ++ unknown).Perm batch.keys) (taken : ledger.writing = batch)
    (now : ℚ) (key : CostKey) :
    ledger.unconfirmedAmount key =
      (ledger.settleWrite batch applied failed unknown now).unconfirmedAmount key +
        if key ∈ applied then batch.read key else 0 := by
  rcases answered_cases answered with
    ⟨-, failedDistinct, unknownDistinct, failedApart, appliedApart, absent⟩
  rcases settleWrite_kept ledger batch applied failed unknown now with ⟨emptied, -⟩
  simp only [unconfirmedAmount, emptied, taken, Dict.read_empty, add_zero,
    settleWrite_pending failedDistinct, settleWrite_unknownOf unknownDistinct]
  by_cases inApplied : key ∈ applied
  · have notFailed : key ∉ failed := fun inFailed => (failedApart key inFailed).1 inApplied
    simp only [inApplied, notFailed, appliedApart key inApplied, if_true, if_false]
    abel
  · by_cases inFailed : key ∈ failed
    · simp only [inApplied, inFailed, (failedApart key inFailed).2, if_true, if_false]
      abel
    · by_cases inUnknown : key ∈ unknown
      · simp only [inApplied, inFailed, inUnknown, if_true, if_false]
        abel
      · simp only [inApplied, inFailed, inUnknown, if_false,
          absent key inApplied inFailed inUnknown]
        abel

end SpendLedger

namespace WriteTask

def batch : WriteTask → Dict CostKey Amount
  | .atomic batch | .oneByOne batch _ _ _ => batch
  | .created | .done | .ended => ∅

def applied : WriteTask → List CostKey
  | .oneByOne _ applied _ _ => applied
  | _ => []

def isAtomic : WriteTask → Bool
  | .atomic _ => true
  | _ => false

def Sound : WriteTask → Prop
  | .oneByOne batch applied failed todo => (applied ++ failed ++ todo).Perm batch.keys
  | _ => True

end WriteTask

/-- How often a cost has been applied, and as what, while `current` is the write task. -/
def Entry.AppliedOnce (current : WriteTask) (entry : Entry) : Prop :=
  match entry.place with
  | .pending | .dropped => entry.appliedAs = []
  | .writing => entry.appliedAs =
      if entry.key ∈ current.applied then [entry.added current.isAtomic] else []
  | .landed _ added => entry.appliedAs = [added]
  | .unknown => entry.appliedAs.length ≤ 1

namespace SpendWorld

def writerTask (world : SpendWorld) : WriteTask :=
  (world.ledger.writer.bind fun task => world.tasks[task]?).getD .ended

/-- The dictionaries are the sums over the costs in each place, the one write task
is the ledger's, and the store has applied no cost twice. -/
structure Accounted (world : SpendWorld) : Prop where
  pending : ∀ key, world.ledger.pending.read key = held Place.isPending key world.entries
  writing : ∀ key, world.ledger.writing.read key = held Place.isWriting key world.entries
  unknown : ∀ key, world.ledger.unknownOf key = held Place.isUnknown key world.entries
  unconfirmed : world.ledger.Balanced
  others : ∀ (task : ℕ) (state : WriteTask), world.tasks[task]? = some state →
    world.ledger.writer ≠ some task → state = .ended
  live : ∀ task, world.ledger.writer = some task →
    ∃ state, world.tasks[task]? = some state ∧ state ≠ .ended
  batch : world.ledger.writing = world.writerTask.batch
  sound : world.writerTask.Sound
  appliedOnce : ∀ entry ∈ world.entries, entry.AppliedOnce world.writerTask

variable {world : SpendWorld}

theorem Accounted.fresh : Accounted {} := by
  refine ⟨fun _ => rfl, fun _ => rfl, fun _ => rfl, fun _ => rfl, ?_, ?_, rfl, trivial, ?_⟩ <;> simp

variable {next : SpendWorld}

theorem Accounted.of_same (accounted : Accounted world)
    (entries : next.entries = world.entries) (tasks : next.tasks = world.tasks)
    (pending : next.ledger.pending = world.ledger.pending)
    (writing : next.ledger.writing = world.ledger.writing)
    (unconfirmed : next.ledger.unconfirmed = world.ledger.unconfirmed)
    (unknown : next.ledger.unknown = world.ledger.unknown)
    (writer : next.ledger.writer = world.ledger.writer) : Accounted next := by
  have task : next.writerTask = world.writerTask := by simp [writerTask, tasks, writer]
  have unknownOf : next.ledger.unknownOf = world.ledger.unknownOf := by
    funext key
    simp [SpendLedger.unknownOf, unknown]
  have unconfirmedOf : next.ledger.unconfirmedOf = world.ledger.unconfirmedOf := by
    funext key
    simp [SpendLedger.unconfirmedOf, unconfirmed]
  refine ⟨?_, ?_, ?_, ?_, ?_, ?_, ?_, ?_, ?_⟩
  · simpa only [pending, entries] using accounted.pending
  · simpa only [writing, entries] using accounted.writing
  · simpa only [unknownOf, entries] using accounted.unknown
  · intro key
    simpa only [SpendLedger.unconfirmedAmount, unconfirmedOf, pending, writing, unknownOf] using
      accounted.unconfirmed key
  · simpa only [tasks, writer] using accounted.others
  · simpa only [tasks, writer] using accounted.live
  · simpa only [writing, task] using accounted.batch
  · simpa only [task] using accounted.sound
  · simpa only [entries, task] using accounted.appliedOnce

variable {task : ℕ} {state : WriteTask}

section

variable (accounted : Accounted world)

include accounted

theorem Accounted.writer_of_live
    (found : world.tasks[task]? = some state) (running : state ≠ .ended) :
    world.ledger.writer = some task ∧ world.writerTask = state := by
  have writer : world.ledger.writer = some task := by
    by_contra other
    exact running (accounted.others task state found other)
  exact ⟨writer, by simp [writerTask, writer, found]⟩

theorem Accounted.startWrite (loop : Bool) : Accounted (world.startWrite loop) := by
  unfold SpendWorld.startWrite
  split_ifs with busy waiting stopped
  · exact accounted
  · exact accounted
  · exact accounted
  · have idle : world.ledger.writer = none := by simpa using busy
    have before : world.writerTask = .ended := by simp [writerTask, idle]
    have allOver : ∀ (task : ℕ) (state : WriteTask), world.tasks[task]? = some state →
        state = .ended := by
      intro task state found
      exact accounted.others task state found (by simp [idle])
    refine ⟨accounted.pending, accounted.writing, accounted.unknown, accounted.unconfirmed, ?_, ?_,
      ?_, ?_, ?_⟩
    · intro task state found notWriter
      rcases getElem?_concat_cases found with earlier | ⟨last, -⟩
      · exact allOver task state earlier
      · simp [last] at notWriter
    · intro task writer
      simp only [Option.some.injEq] at writer
      subst writer
      exact ⟨.created, by simp, by simp⟩
    · have batch := accounted.batch
      rw [before] at batch
      simp only [writerTask, Option.bind_some, List.getElem?_concat_length, Option.getD_some]
      exact batch
    · simp [writerTask, WriteTask.Sound]
    · have appliedOnce := accounted.appliedOnce
      rw [before] at appliedOnce
      simp only [writerTask, Option.bind_some, List.getElem?_concat_length, Option.getD_some]
      exact appliedOnce

theorem Accounted.of_task (after : WriteTask)
    (found : world.tasks[task]? = some state) (running : state ≠ .ended) (going : after ≠ .ended)
    (tasks : next.tasks = world.tasks.set task after)
    (writer : next.ledger.writer = world.ledger.writer)
    (pending : ∀ key, next.ledger.pending.read key = held Place.isPending key next.entries)
    (writing : ∀ key, next.ledger.writing.read key = held Place.isWriting key next.entries)
    (unknown : ∀ key, next.ledger.unknownOf key = held Place.isUnknown key next.entries)
    (unconfirmed : next.ledger.Balanced)
    (batch : next.ledger.writing = after.batch) (sound : after.Sound)
    (appliedOnce : ∀ entry ∈ next.entries, entry.AppliedOnce after) : Accounted next := by
  have isWriter := (accounted.writer_of_live found running).1
  have nextTask : next.writerTask = after := by
    simp [writerTask, writer, isWriter, tasks, getElem?_set_of_some found]
  refine ⟨pending, writing, unknown, unconfirmed, ?_, ?_, nextTask ▸ batch, nextTask ▸ sound,
    nextTask ▸ appliedOnce⟩
  · intro other otherState otherFound notWriter
    rw [writer] at notWriter
    rw [tasks, getElem?_set_of_some found] at otherFound
    split_ifs at otherFound with same
    · rw [← same] at notWriter
      exact absurd isWriter notWriter
    · exact accounted.others other otherState otherFound notWriter
  · intro other otherWriter
    rw [writer, isWriter, Option.some.injEq] at otherWriter
    subst otherWriter
    exact ⟨after, by simp [tasks, getElem?_set_of_some found], going⟩

theorem Accounted.unconfirmedAmount_eq_zero {key : CostKey}
    (nothing : (world.ledger.unconfirmedAmount key).sum.count ≤ 0) :
    (world.ledger.unconfirmedAmount key).sum = {} := by
  have none : (world.ledger.unconfirmedAmount key).requests = 0 := by
    simp only [Amount.sum] at nothing
    omega
  simp only [SpendLedger.unconfirmedAmount, accounted.pending, accounted.writing,
    accounted.unknown, Amount.add_requests] at none ⊢
  rw [held_eq_zero_of_requests (by omega), held_eq_zero_of_requests (by omega),
    held_eq_zero_of_requests (by omega)]
  simp [Amount.sum]

theorem Accounted.record (userId : String) (costUsd : ℚ)
    (apiKeyId : Option ℤ) (day : Day) (loop : Bool) :
    Accounted (world.record userId costUsd apiKeyId day loop) := by
  unfold SpendWorld.record
  split_ifs with ignored
  · exact accounted
  · dsimp only
    apply Accounted.startWrite
    generalize { userId := userId, keyId := apiKeyId, day := day : CostKey } = key
    have entered : ∀ other, (world.ledger.enter key costUsd).pending.read other =
        world.ledger.pending.read other + if key = other then
          { cost := costUsd, counted := countedAmount costUsd, requests := 1 } else 0 := by
      intro other
      simp only [SpendLedger.enter, SpendLedger.addPending, Dict.read_insert]
      by_cases same : other = key
      · simp [same]
      · simp [same, Ne.symm same]
    refine ⟨?_, ?_, ?_, ?_, accounted.others, accounted.live, accounted.batch, accounted.sound, ?_⟩
    · intro other
      rw [entered, held_append, accounted.pending]
      simp [Place.isPending, Entry.amount]
    · intro other
      rw [held_append, ← accounted.writing]
      simp [Place.isWriting, SpendLedger.enter]
    · intro other
      rw [held_append, ← accounted.unknown]
      simp [Place.isUnknown, SpendLedger.enter, SpendLedger.unknownOf]
    · intro other
      have amount : (world.ledger.enter key costUsd).unconfirmedAmount other =
          world.ledger.unconfirmedAmount other + if key = other then
            { cost := costUsd, counted := countedAmount costUsd, requests := 1 } else 0 := by
        simp only [SpendLedger.unconfirmedAmount, entered]
        abel
      rw [SpendLedger.enter_unconfirmedOf, amount]
      by_cases same : other = key
      · subst same
        have added := CountedSum.entry_add costUsd
          (Int.natCast_nonneg (world.ledger.unconfirmedAmount other).requests)
          (accounted.unconfirmedAmount_eq_zero)
        rw [if_pos rfl, if_pos rfl, accounted.unconfirmed, ← added]
        rfl
      · rw [if_neg same, if_neg (Ne.symm same), accounted.unconfirmed, add_zero]
    · intro entry member
      rcases List.mem_append.mp member with earlier | last
      · exact accounted.appliedOnce entry earlier
      · rw [List.mem_singleton.mp last]
        rfl

end

theorem held_move_same {places : Place → Bool} {key : CostKey} {source target : Place}
    (entries : List Entry) (left : places source = false) (unreached : places target = false) :
    held places key (entries.map (Entry.move source target)) = held places key entries := by
  apply held_map_same (move_key source target) (move_cost source target)
  intro entry
  rw [move_place]
  split_ifs with moved
  · rw [unreached, moved, left]
  · rfl

theorem held_move_source {places : Place → Bool} {key : CostKey} {source target : Place}
    (entries : List Entry) (only : ∀ place, places place = true → place = source)
    (unreached : places target = false) :
    held places key (entries.map (Entry.move source target)) = 0 := by
  apply held_eq_zero
  intro entry member
  rcases List.mem_map.mp member with ⟨old, -, rfl⟩
  rw [move_place]
  split_ifs with moved
  · exact unreached
  · cases here : places old.place
    · rfl
    · exact absurd (only _ here) moved

theorem isPending_only (place : Place) (holds : place.isPending = true) : place = .pending := by
  cases place <;> simp_all [Place.isPending]

theorem isWriting_only (place : Place) (holds : place.isWriting = true) : place = .writing := by
  cases place <;> simp_all [Place.isWriting]

theorem unconfirmAll_parts (ledger : SpendLedger) (keys : List CostKey)
    (batch : Dict CostKey Amount) :
    (ledger.unconfirmAll keys batch).pending = ledger.pending ∧
      (ledger.unconfirmAll keys batch).writing = ledger.writing ∧
      (ledger.unconfirmAll keys batch).unknown = ledger.unknown ∧
      (ledger.unconfirmAll keys batch).writer = ledger.writer := by
  rw [SpendLedger.unconfirmAll_eq]
  exact ⟨rfl, rfl, rfl, rfl⟩

theorem unconfirmAll_unconfirmedAmount (ledger : SpendLedger) (keys : List CostKey)
    (batch : Dict CostKey Amount) (key : CostKey) :
    (ledger.unconfirmAll keys batch).unconfirmedAmount key = ledger.unconfirmedAmount key := by
  rw [SpendLedger.unconfirmAll_eq]
  rfl

theorem Accounted.take (accounted : Accounted world) {after : WriteTask}
    (found : world.tasks[task]? = some .created) (going : after ≠ .ended)
    (batch : after.batch = world.ledger.pending) (sound : after.Sound)
    (unapplied : after.applied = []) :
    Accounted
      { world with
        ledger := { world.ledger.takePending with writing := world.ledger.pending }
        tasks := world.tasks.set task after
        entries := world.entries.map (Entry.move .pending .writing) } := by
  rcases accounted.writer_of_live found (by simp) with ⟨-, current⟩
  have nothing : world.ledger.writing = ∅ := by
    have old := accounted.batch
    rwa [current] at old
  refine accounted.of_task after found (by simp) going (by rfl) (by rfl) ?_ ?_ ?_ ?_ ?_ ?_ ?_
  · intro key
    rw [held_move_source _ isPending_only rfl]
    rfl
  · intro key
    have moved : held Place.isWriting key (world.entries.map (Entry.move .pending .writing)) =
        held Place.isWriting key world.entries +
          if True then held Place.isPending key world.entries else 0 := by
      apply held_map (move_key _ _) (move_cost _ _)
      · intro entry _
        rw [move_place]
        cases entry.place <;> simp [Place.isWriting, Place.isPending]
      · intro place writing
        rw [isWriting_only place writing]
        rfl
    rw [moved, if_pos trivial, ← accounted.pending, ← accounted.writing, nothing]
    simp
  · intro key
    rw [held_move_same _ rfl rfl]
    exact accounted.unknown key
  · intro key
    have unconfirmed := accounted.unconfirmed key
    simp only [SpendLedger.unconfirmedAmount, nothing, Dict.read_empty, add_zero] at unconfirmed
    simp only [SpendLedger.unconfirmedAmount, SpendLedger.takePending, Dict.read_empty, zero_add]
    exact unconfirmed
  · exact batch.symm
  · exact sound
  · intro entry member
    rcases List.mem_map.mp member with ⟨old, stored, rfl⟩
    have once := accounted.appliedOnce old stored
    rw [current] at once
    unfold Entry.AppliedOnce at once ⊢
    rw [move_place, move_appliedAs, move_key, unapplied]
    cases place : old.place <;> simp_all [WriteTask.applied]

theorem Accounted.drop (accounted : Accounted world) (found : world.tasks[task]? = some .created) :
    Accounted
      { world with
        ledger := world.ledger.takePending.unconfirmAll world.ledger.pending.keys
          world.ledger.pending
        tasks := world.tasks.set task .done
        entries := world.entries.map (Entry.move .pending .dropped) } := by
  rcases accounted.writer_of_live found (by simp) with ⟨-, current⟩
  have nothing : world.ledger.writing = ∅ := by
    have old := accounted.batch
    rwa [current] at old
  have distinct : world.ledger.pending.keys.Nodup := world.ledger.pending.nodupKeys
  have parts := unconfirmAll_parts world.ledger.takePending world.ledger.pending.keys
    world.ledger.pending
  refine accounted.of_task .done found (by simp) (by simp) (by rfl) parts.2.2.2 ?_ ?_ ?_ ?_ ?_
    trivial ?_
  · intro key
    rw [held_move_source _ isPending_only rfl, parts.1]
    rfl
  · intro key
    rw [held_move_same _ rfl rfl, parts.2.1]
    exact accounted.writing key
  · intro key
    rw [held_move_same _ rfl rfl, ← accounted.unknown key]
    simp only [SpendLedger.unknownOf, parts.2.2.1]
    rfl
  · apply accounted.unconfirmed.of_removed _
      (SpendLedger.unconfirmAll_unconfirmedOf distinct world.ledger.takePending)
    intro key
    have left : world.ledger.takePending.unconfirmedAmount key = world.ledger.unknownOf key := by
      simp only [SpendLedger.unconfirmedAmount, SpendLedger.takePending, nothing, Dict.read_empty,
        zero_add]
      rfl
    rw [unconfirmAll_unconfirmedAmount, left]
    simp only [SpendLedger.unconfirmedAmount, nothing, Dict.read_empty, add_zero]
    split_ifs with pending
    · abel
    · rw [Dict.read_eq_zero_of_not_mem pending, zero_add, add_zero]
  · rw [parts.2.1]
    exact nothing
  · intro entry member
    rcases List.mem_map.mp member with ⟨old, stored, rfl⟩
    have once := accounted.appliedOnce old stored
    rw [current] at once
    unfold Entry.AppliedOnce at once ⊢
    rw [move_place, move_appliedAs, move_key]
    cases place : old.place <;> simp_all [WriteTask.applied]

theorem Accounted.begin (accounted : Accounted world) (store : StoreRef)
    (found : world.tasks[task]? = some .created) : Accounted (world.begin task store) := by
  unfold SpendWorld.begin
  dsimp only
  split_ifs with empty
  · have emptied : world.ledger.takePending = world.ledger := by
      simp only [SpendLedger.takePending, ← Dict.eq_empty_of_keys_isEmpty empty]
    rcases accounted.writer_of_live found (by simp) with ⟨-, current⟩
    have batch := accounted.batch
    have appliedOnce := accounted.appliedOnce
    rw [current] at batch appliedOnce
    rw [emptied]
    exact accounted.of_task .done found (by simp) (by simp) (by rfl) (by rfl) accounted.pending
      accounted.writing accounted.unknown accounted.unconfirmed batch trivial appliedOnce
  · cases store with
    | gone => exact accounted.drop found
    | atomic => exact accounted.take found (by simp) (by rfl) trivial (by rfl)
    | oneByOne => exact accounted.take found (by simp) (by rfl) (List.Perm.refl _) (by rfl)

theorem held_apply {places : Place → Bool} {key : CostKey} (atomic : Bool) (keys : List CostKey)
    (entries : List Entry) :
    held places key (entries.map (Entry.apply atomic keys)) = held places key entries := by
  apply held_map_same
  · intro entry
    exact (apply_fields atomic keys entry).1
  · intro entry
    exact (apply_fields atomic keys entry).2.1
  · intro entry
    rw [(apply_fields atomic keys entry).2.2]

def timesApplied (state : WriteTask) (keys : List CostKey) (key : CostKey) : ℕ :=
  (if key ∈ state.applied then 1 else 0) + if key ∈ keys then 1 else 0

theorem apply_writing {entry : Entry} (once : entry.AppliedOnce state) (keys : List CostKey)
    (writing : entry.place = .writing) :
    (entry.apply state.isAtomic keys).appliedAs =
      List.replicate (timesApplied state keys entry.key) (entry.added state.isAtomic) := by
  unfold Entry.AppliedOnce at once
  unfold Entry.apply timesApplied
  split_ifs with chosen inKeys inKeys inKeys <;> simp_all [List.replicate_succ]

section Resolve

variable (applied unknown : List CostKey) (atomic : Bool) (now : ℚ) (entries : List Entry)
  (key : CostKey)

theorem held_resolve_pending :
    held Place.isPending key (entries.map (Entry.resolve applied unknown atomic now)) =
      held Place.isPending key entries +
        if key ∉ applied ∧ key ∉ unknown then held Place.isWriting key entries else 0 := by
  apply held_map
  · exact fun entry => (resolve_fields applied unknown atomic now entry).1
  · exact fun entry => (resolve_fields applied unknown atomic now entry).2.1
  · intro entry same
    rw [resolve_place, same]
    cases entry.place <;> simp [Place.isPending, Place.isWriting]
    split_ifs <;> simp_all
  · intro place pending
    rw [isPending_only place pending]
    rfl

theorem held_resolve_unknown :
    held Place.isUnknown key (entries.map (Entry.resolve applied unknown atomic now)) =
      held Place.isUnknown key entries +
        if key ∉ applied ∧ key ∈ unknown then held Place.isWriting key entries else 0 := by
  apply held_map
  · exact fun entry => (resolve_fields applied unknown atomic now entry).1
  · exact fun entry => (resolve_fields applied unknown atomic now entry).2.1
  · intro entry same
    rw [resolve_place, same]
    cases entry.place <;> simp [Place.isUnknown, Place.isWriting]
    split_ifs <;> simp_all
  · intro place marked
    cases place <;> simp_all [Place.isUnknown, Place.isWriting]

theorem held_resolve_writing :
    held Place.isWriting key (entries.map (Entry.resolve applied unknown atomic now)) = 0 := by
  apply held_eq_zero
  intro entry member
  rcases List.mem_map.mp member with ⟨old, -, rfl⟩
  rw [resolve_place]
  split_ifs with writing
  · rfl
  · rfl
  · rfl
  · cases here : old.place.isWriting
    · rfl
    · exact absurd (isWriting_only _ here) writing

end Resolve

theorem resolve_appliedOnce {entry : Entry} (once : entry.AppliedOnce state) (keys : List CostKey)
    {applied unknown : List CostKey} (now : ℚ)
    (landedOnce : entry.key ∈ applied → timesApplied state keys entry.key = 1)
    (unknownOnce : entry.key ∈ unknown → timesApplied state keys entry.key ≤ 1)
    (neverElse : entry.key ∉ applied → entry.key ∉ unknown →
      timesApplied state keys entry.key = 0) :
    ((entry.apply state.isAtomic keys).resolve applied unknown state.isAtomic now).AppliedOnce
      .done := by
  by_cases writing : entry.place = .writing
  · have times := apply_writing once keys writing
    rcases apply_fields state.isAtomic keys entry with ⟨key, cost, place⟩
    have added : (entry.apply state.isAtomic keys).added state.isAtomic =
        entry.added state.isAtomic := by
      rw [Entry.added, cost, Entry.added]
    unfold Entry.AppliedOnce
    rw [resolve_place, (resolve_fields applied unknown state.isAtomic now _).2.2, place,
      if_pos writing, key, times, added]
    by_cases inApplied : entry.key ∈ applied
    · simp [inApplied, landedOnce inApplied]
    · by_cases inUnknown : entry.key ∈ unknown
      · simpa [inApplied, inUnknown] using unknownOnce inUnknown
      · simp [inApplied, inUnknown, neverElse inApplied inUnknown]
  · rw [apply_elsewhere state.isAtomic keys writing]
    unfold Entry.resolve
    rw [if_neg writing]
    unfold Entry.AppliedOnce at once ⊢
    cases place : entry.place <;> simp_all

theorem Accounted.finish (accounted : Accounted world)
    (found : world.tasks[task]? = some state) (running : state ≠ .ended) (keys : List CostKey)
    {applied failed unknown : List CostKey} (now : ℚ)
    (answered : (applied ++ failed ++ unknown).Perm state.batch.keys)
    (landedOnce : ∀ key ∈ applied, timesApplied state keys key = 1)
    (unknownOnce : ∀ key ∈ unknown, timesApplied state keys key ≤ 1)
    (neverElse : ∀ key, key ∉ applied → key ∉ unknown → timesApplied state keys key = 0) :
    Accounted ((world.applyEntries state.batch state.isAtomic keys).finish task state.batch applied
      failed unknown state.isAtomic now) := by
  rcases accounted.writer_of_live found running with ⟨-, current⟩
  have batch : world.ledger.writing = state.batch := current ▸ accounted.batch
  rcases SpendLedger.answered_cases answered with
    ⟨appliedDistinct, failedDistinct, unknownDistinct, failedApart, appliedApart, absent⟩
  rcases SpendLedger.settleWrite_kept world.ledger state.batch applied failed unknown now with
    ⟨emptied, writer⟩
  have taken (key : CostKey) :
      held Place.isWriting key (world.entries.map (Entry.apply state.isAtomic keys)) =
        state.batch.read key := by
    rw [held_apply, ← accounted.writing, batch]
  refine accounted.of_task .done found running (by simp) (by rfl) writer ?_ ?_ ?_ ?_ emptied trivial
    ?_
  · intro key
    change (world.ledger.settleWrite state.batch applied failed unknown now).pending.read key =
      held Place.isPending key ((world.entries.map (Entry.apply state.isAtomic keys)).map _)
    rw [held_resolve_pending, held_apply, ← accounted.pending, taken,
      SpendLedger.settleWrite_pending failedDistinct]
    by_cases inFailed : key ∈ failed
    · simp [inFailed, failedApart key inFailed]
    · rw [if_neg inFailed]
      split_ifs with neither
      · rw [absent key neither.1 inFailed neither.2]
      · rfl
  · intro key
    change (world.ledger.settleWrite state.batch applied failed unknown now).writing.read key =
      held Place.isWriting key ((world.entries.map (Entry.apply state.isAtomic keys)).map _)
    rw [held_resolve_writing, emptied]
    rfl
  · intro key
    change (world.ledger.settleWrite state.batch applied failed unknown now).unknownOf key =
      held Place.isUnknown key ((world.entries.map (Entry.apply state.isAtomic keys)).map _)
    rw [held_resolve_unknown, held_apply, ← accounted.unknown, taken,
      SpendLedger.settleWrite_unknownOf unknownDistinct]
    by_cases inUnknown : key ∈ unknown
    · have notApplied : key ∉ applied := fun inApplied => appliedApart key inApplied inUnknown
      simp [inUnknown, notApplied]
    · simp [inUnknown]
  · apply accounted.unconfirmed.of_removed applied
      (SpendLedger.settleWrite_unconfirmedOf appliedDistinct world.ledger failed unknown now)
    exact SpendLedger.settleWrite_unconfirmedAmount answered batch now
  · intro entry member
    rcases List.mem_map.mp member with ⟨middle, inMiddle, rfl⟩
    rcases List.mem_map.mp inMiddle with ⟨old, stored, rfl⟩
    have once := accounted.appliedOnce old stored
    rw [current] at once
    exact resolve_appliedOnce once keys now (landedOnce old.key) (unknownOnce old.key)
      (neverElse old.key)

variable {batch : Dict CostKey Amount}

theorem Accounted.answerAtomic (accounted : Accounted world)
    (found : world.tasks[task]? = some (.atomic batch)) (now : ℚ)
    (answer : AtomicAnswer) : Accounted (world.answerAtomic task batch now answer) := by
  cases answer with
  | applied =>
    refine accounted.finish found (by simp) batch.keys now ?_ ?_ ?_ ?_
    · simp [WriteTask.batch]
    · simp +contextual [timesApplied, WriteTask.applied]
    · simp
    · simp +contextual [timesApplied, WriteTask.applied]
  | failed =>
    rw [← applyEntries_nil world batch true]
    refine accounted.finish found (by simp) [] now ?_ ?_ ?_ ?_
    · simp [WriteTask.batch]
    · simp
    · simp
    · simp [timesApplied, WriteTask.applied]
  | unknown reallyApplied =>
    refine accounted.finish found (by simp) (if reallyApplied then batch.keys else []) now
      ?_ ?_ ?_ ?_
    · simp [WriteTask.batch]
    · simp
    · cases reallyApplied <;> simp +contextual [timesApplied, WriteTask.applied]
    · cases reallyApplied <;> simp +contextual [timesApplied, WriteTask.applied]

section

variable {applied failed todo : List CostKey} {key : CostKey}
  (sound : (applied ++ failed ++ todo).Perm batch.keys) (inTodo : key ∈ todo) (success : Bool)

include sound inTodo

theorem answered_perm : ((if success then applied ++ [key] else applied) ++
      (if success then failed else failed ++ [key]) ++ todo.erase key).Perm batch.keys := by
  refine List.Perm.trans ?_ sound
  have split : todo.Perm (key :: todo.erase key) := List.perm_cons_erase inTodo
  rw [List.perm_iff_count] at split ⊢
  intro other
  have counted := split other
  rw [List.count_cons] at counted
  cases success <;> simp only [if_true, if_false, Bool.false_eq_true, List.count_append,
    List.count_singleton] <;> omega

theorem answered_once (other : CostKey) :
    timesApplied (.oneByOne batch applied failed todo) (if success then [key] else []) other =
      if other ∈ (if success then applied ++ [key] else applied) then 1 else 0 := by
  have distinct : (applied ++ failed ++ todo).Nodup := sound.nodup_iff.mpr batch.nodupKeys
  have fresh : key ∉ applied := by
    intro inApplied
    rw [List.append_assoc, List.nodup_append] at distinct
    exact distinct.2.2 key inApplied key (List.mem_append_right _ inTodo) rfl
  unfold timesApplied
  cases success with
  | false =>
    by_cases inApplied : other ∈ applied <;> simp [WriteTask.applied, inApplied]
  | true =>
    by_cases same : other = key
    · simp [WriteTask.applied, same, fresh]
    · by_cases inApplied : other ∈ applied <;> simp [WriteTask.applied, same, inApplied]

end

section

variable (accounted : Accounted world)

include accounted

theorem Accounted.answerEntry {applied failed todo : List CostKey}
    {key : CostKey} (found : world.tasks[task]? = some (.oneByOne batch applied failed todo))
    (inTodo : key ∈ todo) (success : Bool) (now : ℚ) :
    Accounted (world.answerEntry task batch applied failed todo key success now) := by
  rcases accounted.writer_of_live found (by simp) with ⟨-, current⟩
  have sound : (applied ++ failed ++ todo).Perm batch.keys := by
    have old := accounted.sound
    rwa [current] at old
  have answered := answered_perm sound inTodo success
  have once := answered_once sound inTodo success
  unfold SpendWorld.answerEntry
  dsimp only
  generalize (if success = true then applied ++ [key] else applied) = nowApplied at answered once ⊢
  generalize (if success = true then failed else failed ++ [key]) = nowFailed at answered once ⊢
  generalize (if success = true then [key] else []) = keys at once ⊢
  by_cases last : (todo.erase key).isEmpty = true
  · rw [if_pos last]
    rw [List.isEmpty_iff.mp last] at answered
    refine accounted.finish found (by simp) keys now answered ?_ ?_ ?_
    · intro other inApplied
      rw [once, if_pos inApplied]
    · simp
    · intro other notApplied _
      rw [once, if_neg notApplied]
  · rw [if_neg last]
    have batchTaken : world.ledger.writing = batch := by
      have old := accounted.batch
      rwa [current] at old
    refine accounted.of_task (.oneByOne batch nowApplied nowFailed (todo.erase key)) found (by simp)
      (by simp) (by rfl) (by rfl) ?_ ?_ ?_ accounted.unconfirmed batchTaken answered ?_
    · intro other
      exact (accounted.pending other).trans (held_apply false keys world.entries).symm
    · intro other
      exact (accounted.writing other).trans (held_apply false keys world.entries).symm
    · intro other
      exact (accounted.unknown other).trans (held_apply false keys world.entries).symm
    · intro entry member
      rcases List.mem_map.mp member with ⟨old, stored, rfl⟩
      have before := accounted.appliedOnce old stored
      rw [current] at before
      by_cases writing : old.place = .writing
      · have times := apply_writing before keys writing
        rcases apply_fields false keys old with ⟨sameKey, sameCost, place⟩
        have added : (old.apply false keys).added false = old.added false := by
          rw [Entry.added, sameCost, Entry.added]
        unfold Entry.AppliedOnce
        rw [place, writing]
        refine times.trans ?_
        rw [once, sameKey]
        simp only [WriteTask.applied, WriteTask.isAtomic, added]
        split_ifs <;> rfl
      · rw [apply_elsewhere false keys writing]
        unfold Entry.AppliedOnce at before ⊢
        cases place : old.place <;> simp_all

theorem Accounted.cancelWrite
    (found : world.tasks[task]? = some state) (running : state ≠ .ended) (keys : List CostKey)
    (once : ∀ key, timesApplied state keys key ≤ 1) :
    Accounted (world.cancelWrite task state.batch state.isAtomic keys) := by
  rcases accounted.writer_of_live found running with ⟨-, current⟩
  have batch : world.ledger.writing = state.batch := current ▸ accounted.batch
  have distinct : state.batch.keys.Nodup := state.batch.nodupKeys
  have taken (key : CostKey) : held Place.isWriting key world.entries = state.batch.read key := by
    rw [← accounted.writing, batch]
  have marked (key : CostKey) :
      (world.ledger.markUnknown state.batch.keys state.batch).unknownOf key =
        world.ledger.unknownOf key + state.batch.read key := by
    rw [SpendLedger.markUnknown_unknownOf distinct]
    split_ifs with inBatch
    · rfl
    · rw [Dict.read_eq_zero_of_not_mem inBatch]
  refine accounted.of_task .done found running (by simp) (by rfl) (by rfl) ?_ ?_ ?_ ?_ (by rfl)
    trivial ?_
  · intro key
    change _ = held Place.isPending key
      ((world.entries.map (Entry.apply state.isAtomic keys)).map (Entry.move .writing .unknown))
    rw [held_move_same _ rfl rfl, held_apply]
    exact accounted.pending key
  · intro key
    change _ = held Place.isWriting key
      ((world.entries.map (Entry.apply state.isAtomic keys)).map (Entry.move .writing .unknown))
    rw [held_move_source _ isWriting_only rfl]
    rfl
  · intro key
    have moved : held Place.isUnknown key
        ((world.entries.map (Entry.apply state.isAtomic keys)).map (Entry.move .writing .unknown)) =
        held Place.isUnknown key (world.entries.map (Entry.apply state.isAtomic keys)) +
          if True then
            held Place.isWriting key (world.entries.map (Entry.apply state.isAtomic keys))
          else 0 := by
      apply held_map (move_key _ _) (move_cost _ _)
      · intro entry _
        rw [move_place]
        cases entry.place <;> simp [Place.isWriting, Place.isUnknown]
      · intro place unknown
        cases place <;> simp_all [Place.isUnknown, Place.isWriting]
    refine Eq.trans ?_ moved.symm
    rw [if_pos trivial, held_apply, held_apply, taken, ← accounted.unknown]
    exact marked key
  · intro key
    have amount :
        (world.cancelWrite task state.batch state.isAtomic keys).ledger.unconfirmedAmount key =
          world.ledger.unconfirmedAmount key := by
      change world.ledger.pending.read key + 0 +
        (world.ledger.markUnknown state.batch.keys state.batch).unknownOf key = _
      rw [marked, SpendLedger.unconfirmedAmount, batch]
      abel
    rw [amount]
    exact accounted.unconfirmed key
  · intro entry member
    rcases List.mem_map.mp member with ⟨middle, inMiddle, rfl⟩
    rcases List.mem_map.mp inMiddle with ⟨old, stored, rfl⟩
    have before := accounted.appliedOnce old stored
    rw [current] at before
    by_cases writing : old.place = .writing
    · have times := apply_writing before keys writing
      rcases apply_fields state.isAtomic keys old with ⟨sameKey, -, place⟩
      unfold Entry.AppliedOnce
      rw [move_place, move_appliedAs, place, if_pos writing, times]
      simpa using once old.key
    · rw [apply_elsewhere state.isAtomic keys writing]
      unfold Entry.move
      rw [if_neg writing]
      unfold Entry.AppliedOnce at before ⊢
      cases place : old.place <;> simp_all

theorem Accounted.cancelCreated (found : world.tasks[task]? = some .created) :
    Accounted { world with tasks := world.tasks.set task .done } := by
  rcases accounted.writer_of_live found (by simp) with ⟨-, current⟩
  have batch := accounted.batch
  have appliedOnce := accounted.appliedOnce
  rw [current] at batch appliedOnce
  exact accounted.of_task .done found (by simp) (by simp) (by rfl) (by rfl) accounted.pending
    accounted.writing accounted.unknown accounted.unconfirmed batch trivial appliedOnce

theorem Accounted.writeFinished
    (found : world.tasks[task]? = some .done) : Accounted (world.writeFinished task) := by
  apply Accounted.startWrite
  rcases accounted.writer_of_live found (by simp) with ⟨writer, current⟩
  have batch := accounted.batch
  have appliedOnce := accounted.appliedOnce
  rw [current] at batch appliedOnce
  refine ⟨accounted.pending, accounted.writing, accounted.unknown, accounted.unconfirmed, ?_, ?_,
    batch, trivial, appliedOnce⟩
  · intro other state otherFound _
    rw [getElem?_set_of_some found] at otherFound
    split_ifs at otherFound with same
    · simpa using otherFound.symm
    · apply accounted.others other state otherFound
      rw [writer]
      simpa using same
  · intro other impossible
    cases impossible

theorem Accounted.flush : Accounted world.flush := by
  unfold SpendWorld.flush
  split_ifs
  · exact accounted
  · exact accounted
  · exact accounted.of_same rfl rfl rfl rfl rfl rfl rfl
  · exact accounted.startWrite true

theorem Accounted.admitRequest (check : SpendCheck) (amount : ℚ)
    (today : Day) (now : ℚ) : Accounted (world.admitRequest check amount today now) := by
  unfold SpendWorld.admitRequest SpendLedger.admitRequest
  cases world.ledger.refusal check today now with
  | none | some refusal =>
    exact accounted.of_same rfl rfl rfl rfl rfl rfl rfl

theorem Accounted.release (index : ℕ) (reservation : Reservation) :
    Accounted (world.release index reservation) := by
  unfold SpendWorld.release
  split_ifs
  · exact accounted.of_same rfl rfl rfl rfl rfl rfl rfl
  · exact accounted

theorem Accounted.cancelOneByOne {applied failed todo keys : List CostKey}
    (found : world.tasks[task]? = some (.oneByOne batch applied failed todo))
    (underWay : keys = [] ∨ ∃ key ∈ todo, keys = [key]) :
    Accounted (world.cancelWrite task batch false keys) := by
  rcases accounted.writer_of_live found (by simp) with ⟨-, current⟩
  have sound : (applied ++ failed ++ todo).Perm batch.keys := by
    have old := accounted.sound
    rwa [current] at old
  apply accounted.cancelWrite found (by simp)
  intro other
  rcases underWay with rfl | ⟨key, inTodo, rfl⟩
  · simp only [timesApplied, List.not_mem_nil, if_false, Nat.add_zero]
    split_ifs <;> omega
  · have once := answered_once sound inTodo true other
    simp only [if_true] at once
    rw [once]
    split_ifs <;> omega

theorem Accounted.cancelAtomic {keys : List CostKey}
    (found : world.tasks[task]? = some (.atomic batch)) :
    Accounted (world.cancelWrite task batch true keys) := by
  apply accounted.cancelWrite found (by simp)
  intro other
  simp only [timesApplied, WriteTask.applied, List.not_mem_nil, if_false, Nat.zero_add]
  split_ifs <;> omega

/-- One step keeps ledger and counters in account. -/
theorem Accounted.step {opening : SpendCheck → Limit → ℚ} {event : SpendEvent}
    (stepped : world.step opening event = some next) :
    Accounted next := by
  cases stepped_of_step opening stepped with
  | record userId costUsd apiKeyId day loop =>
    exact accounted.record userId costUsd apiKeyId day loop
  | begin store found =>
    exact accounted.begin store found
  | answerAtomic answer found later =>
    exact accounted.answerAtomic found _ answer
  | answerEntry success found later inTodo =>
    exact accounted.answerEntry found inTodo success _
  | cancelCreated keys found =>
    exact accounted.cancelCreated found
  | cancelAtomic found all =>
    exact accounted.cancelAtomic found
  | cancelOneByOne found underWay =>
    exact accounted.cancelOneByOne found underWay
  | writeFinished found =>
    exact accounted.writeFinished found
  | retryNow waiting =>
    apply Accounted.startWrite
    exact accounted.of_same rfl rfl rfl rfl rfl rfl rfl
  | flush =>
    exact accounted.flush
  | check later taken enough =>
    exact accounted.of_same rfl rfl rfl rfl rfl rfl rfl
  | admitRequest amount today found later =>
    exact accounted.admitRequest _ amount today _
  | release found =>
    exact accounted.release _ _

end

theorem run_accounted {opening : SpendCheck → Limit → ℚ} {events : List SpendEvent}
    (ran : (spendMachine opening).run {} events = some world) : Accounted world := by
  have preserved : ∀ state event next, Accounted state →
      (spendMachine opening).step state event = some next → Accounted next :=
    fun _ _ _ accounted stepped => accounted.step stepped
  exact Machine.run_invariant preserved Accounted.fresh ran

end SpendWorld

end HybridInference.Spend
