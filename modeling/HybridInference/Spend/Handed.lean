import HybridInference.Library.Numerals
import HybridInference.Spend.Accounting
import Mathlib.Algebra.Group.Prod

/-!
# What the writes hand the store

A store that applies batches atomically is handed the counted amount of every
entry, any other store the plain sum of its costs. Only the writes that were
really applied count, and they have handed over what their costs were applied
as: none of the costs twice.

The sums of a ledger are doubles. Those of one user, key and day are repeated
with the rounding of each addition, where they come apart.
-/

namespace HybridInference.Spend

open Library

namespace Amount

variable {atomic : Bool}

theorem handed_zero : (0 : Amount).handed atomic = 0 := by
  cases atomic <;> rfl

theorem handed_add (first second : Amount) :
    (first + second).handed atomic = first.handed atomic + second.handed atomic := by
  cases atomic <;> rfl

end Amount

/-- What a cost has been applied as, and how often. -/
def Entry.applied (entry : Entry) : ℚ × ℕ :=
  (entry.appliedAs.sum, entry.appliedAs.length)

/-- What the costs of a key have been applied as. -/
def appliedTo (key : CostKey) (entries : List Entry) : ℚ × ℕ :=
  tally (fun entry : Entry => if entry.key = key then entry.applied else 0) entries

section Applied

variable {key : CostKey} {entries : List Entry}

theorem appliedTo_map {change : Entry → Entry} (keyed : ∀ entry, (change entry).key = entry.key)
    (kept : ∀ entry, (change entry).appliedAs = entry.appliedAs) :
    appliedTo key (entries.map change) = appliedTo key entries := by
  simp only [appliedTo, tally_map, Entry.applied, keyed, kept]

theorem Entry.applied_apply (atomic : Bool) (keys : List CostKey) (entry : Entry) :
    (entry.apply atomic keys).applied = entry.applied +
      if entry.place = .writing ∧ entry.key ∈ keys then entry.amount.handed atomic else 0 := by
  unfold Entry.apply
  split_ifs
  · simp [Entry.applied, Entry.added, Entry.amount, Amount.handed]
  · rw [add_zero]

theorem handed_held (atomic : Bool) : (held Place.isWriting key entries).handed atomic =
      tally (fun entry : Entry =>
        if entry.place = .writing ∧ entry.key = key then entry.amount.handed atomic else 0)
        entries := by
  induction entries with
  | nil => exact Amount.handed_zero
  | cons entry rest ih =>
    have here : (Place.isWriting entry.place && entry.key = key) =
        decide (entry.place = .writing ∧ entry.key = key) := by
      cases entry.place <;> simp [Place.isWriting]
    rw [held, tally_cons, Amount.handed_add, here]
    congr 1
    simp only [decide_eq_true_eq]
    split_ifs
    · rfl
    · exact Amount.handed_zero

/-- Applying the entries of some keys adds what the writes hand over for them. -/
theorem appliedTo_apply (atomic : Bool) (keys : List CostKey) :
    appliedTo key (entries.map (Entry.apply atomic keys)) = appliedTo key entries +
      if key ∈ keys then (held Place.isWriting key entries).handed atomic else 0 := by
  rw [appliedTo, tally_map, handed_held, ← tally_if, appliedTo, ← tally_add]
  apply tally_congr
  intro entry _
  rw [(SpendWorld.apply_fields atomic keys entry).1, Entry.applied_apply]
  by_cases same : entry.key = key
  · subst same
    by_cases inKeys : entry.key ∈ keys <;> simp [inKeys]
  · simp [same]

end Applied

namespace SpendWorld

/-- What the writes that were really applied handed the store for a key. -/
def handedTo (world : SpendWorld) (key : CostKey) : ℚ × ℕ :=
  tally (fun increment : CostKey × ℚ × ℕ => if key = increment.1 then increment.2 else 0)
    world.handed

/-- The store was handed, key by key, what the costs were applied as, each as its
counted amount or as its plain cost. -/
structure HandsOver (world : SpendWorld) : Prop where
  sums : ∀ key, world.handedTo key = appliedTo key world.entries
  amounts : ∀ entry ∈ world.entries, ∀ amount ∈ entry.appliedAs,
    ∃ atomic, amount = entry.added atomic

variable {world next : SpendWorld} {task : ℕ} {state : WriteTask}

theorem HandsOver.fresh : HandsOver {} :=
  ⟨fun _ => rfl, nofun⟩

section

variable (handsOver : HandsOver world)

include handsOver

theorem HandsOver.of_same (handed : next.handed = world.handed)
    (entries : next.entries = world.entries) : HandsOver next := by
  refine ⟨fun key => ?_, ?_⟩
  · rw [handedTo, handed, entries]
    exact handsOver.sums key
  · rw [entries]
    exact handsOver.amounts

theorem HandsOver.of_map {change : Entry → Entry}
    (handed : next.handed = world.handed) (entries : next.entries = world.entries.map change)
    (same : ∀ entry, (change entry).key = entry.key ∧ (change entry).cost = entry.cost ∧
      (change entry).appliedAs = entry.appliedAs) : HandsOver next := by
  refine ⟨fun key => ?_, ?_⟩
  · rw [handedTo, handed, entries, appliedTo_map (fun entry => (same entry).1) fun entry =>
      (same entry).2.2]
    exact handsOver.sums key
  · rw [entries]
    intro entry member
    rcases List.mem_map.mp member with ⟨old, stored, rfl⟩
    simp only [Entry.added, same]
    exact handsOver.amounts old stored

theorem HandsOver.startWrite (loop : Bool) : HandsOver (world.startWrite loop) := by
  rcases startWrite_eq world loop with ⟨tasks, writer, started⟩
  rw [started]
  exact handsOver.of_same rfl rfl

theorem HandsOver.record (userId : String) (costUsd : ℚ)
    (apiKeyId : Option ℤ) (day : Day) (loop : Bool) :
    HandsOver (world.record userId costUsd apiKeyId day loop) := by
  unfold SpendWorld.record
  split_ifs
  · exact handsOver
  · apply HandsOver.startWrite
    refine ⟨fun key => ?_, ?_⟩
    · have sums := handsOver.sums key
      unfold appliedTo at sums ⊢
      rw [tally_append, ← sums, tally_singleton, Entry.applied]
      simp [handedTo]
    · intro entry member
      rcases List.mem_append.mp member with earlier | last
      · exact handsOver.amounts entry earlier
      · rw [List.mem_singleton.mp last]
        nofun

theorem HandsOver.begin (store : StoreRef) : HandsOver (world.begin task store) := by
  have moved (target : Place) (entry : Entry) : (entry.move .pending target).key = entry.key ∧
        (entry.move .pending target).cost = entry.cost ∧
          (entry.move .pending target).appliedAs = entry.appliedAs :=
    ⟨move_key _ _ entry, move_cost _ _ entry, move_appliedAs _ _ entry⟩
  unfold SpendWorld.begin
  dsimp only
  split_ifs
  · exact handsOver.of_same rfl rfl
  · cases store with
    | gone => exact handsOver.of_map rfl rfl (moved .dropped)
    | atomic | oneByOne =>
      exact handsOver.of_map rfl rfl (moved .writing)

/-- The store applies some entries of the batch in flight: the amounts it was
handed for them are what their costs are applied as. -/
theorem HandsOver.apply (accounted : Accounted world)
    (found : world.tasks[task]? = some state) (running : state ≠ .ended) (atomic : Bool)
    {keys : List CostKey} (distinct : keys.Nodup) :
    HandsOver (world.applyEntries state.batch atomic keys) := by
  have batch : world.ledger.writing = state.batch :=
    (accounted.writer_of_live found running).2 ▸ accounted.batch
  refine ⟨fun key => ?_, ?_⟩
  · have more := tally_at distinct key ((held Place.isWriting key world.entries).handed atomic)
    unfold handedTo applyEntries
    rw [tally_append, tally_map, appliedTo_apply, ← more]
    congr 1
    · exact handsOver.sums key
    · apply tally_congr
      intro other _
      split_ifs with same
      · rw [← accounted.writing, batch, same]
      · rfl
  · intro entry member
    rcases List.mem_map.mp member with ⟨old, stored, rfl⟩
    have earlier := handsOver.amounts old stored
    unfold Entry.apply
    split_ifs
    · intro amount applied
      rcases List.mem_append.mp applied with before | now
      · exact earlier amount before
      · exact ⟨atomic, List.mem_singleton.mp now⟩
    · exact earlier

theorem HandsOver.finish (batch : Dict CostKey Amount)
    (applied failed unknown : List CostKey) (atomic : Bool) (now : ℚ) :
    HandsOver (world.finish task batch applied failed unknown atomic now) :=
  handsOver.of_map rfl rfl (resolve_fields applied unknown atomic now)

theorem HandsOver.cancelWrite (accounted : Accounted world)
    (found : world.tasks[task]? = some state) (running : state ≠ .ended) (atomic : Bool)
    {keys : List CostKey} (distinct : keys.Nodup) :
    HandsOver (world.cancelWrite task state.batch atomic keys) := by
  refine (handsOver.apply accounted found running atomic distinct).of_map rfl rfl fun entry => ?_
  exact ⟨move_key _ _ entry, move_cost _ _ entry, move_appliedAs _ _ entry⟩

/-- No step hands the store an amount that its costs are not applied as. -/
theorem HandsOver.step {opening : SpendCheck → Limit → ℚ} {event : SpendEvent}
    (accounted : Accounted world)
    (stepped : world.step opening event = some next) : HandsOver next := by
  cases stepped_of_step opening stepped with
  | record userId costUsd apiKeyId day loop =>
    exact handsOver.record userId costUsd apiKeyId day loop
  | begin store found =>
    exact handsOver.begin store
  | @answerAtomic task batch now answer found later =>
    have applied {keys : List CostKey} (distinct : keys.Nodup) :
        HandsOver (world.applyEntries batch true keys) :=
      handsOver.apply accounted found (by simp) true distinct
    cases answer with
    | applied => exact (applied batch.nodupKeys).finish batch _ _ _ true now
    | failed => exact handsOver.finish batch _ _ _ true now
    | unknown reallyApplied =>
      refine (applied ?_).finish batch _ _ _ true now
      cases reallyApplied
      · exact List.nodup_nil
      · exact batch.nodupKeys
  | @answerEntry task batch applied failed todo key now success found later inTodo =>
    have distinct : (if success then [key] else []).Nodup := by
      cases success <;> simp
    have answered := handsOver.apply accounted found (by simp) false distinct
    unfold SpendWorld.answerEntry
    dsimp only
    by_cases last : (todo.erase key).isEmpty = true
    · rw [if_pos last]
      exact answered.finish batch _ _ _ false now
    · rw [if_neg last]
      exact answered.of_same rfl rfl
  | cancelCreated keys found | check later taken enough =>
    exact handsOver.of_same rfl rfl
  | @cancelAtomic task batch keys found all =>
    refine handsOver.cancelWrite accounted found (by simp) true ?_
    rcases all with rfl | rfl
    · exact List.nodup_nil
    · exact batch.nodupKeys
  | cancelOneByOne found underWay =>
    refine handsOver.cancelWrite accounted found (by simp) false ?_
    rcases underWay with rfl | ⟨key, -, rfl⟩
    · exact List.nodup_nil
    · exact List.nodup_singleton key
  | writeFinished found | retryNow waiting =>
    apply HandsOver.startWrite
    exact handsOver.of_same rfl rfl
  | flush =>
    unfold SpendWorld.flush
    split_ifs
    · exact handsOver
    · exact handsOver
    · exact handsOver.of_same rfl rfl
    · exact handsOver.startWrite true
  | admitRequest amount today found later =>
    unfold SpendWorld.admitRequest
    split <;> exact handsOver.of_same rfl rfl
  | release found =>
    unfold SpendWorld.release
    split_ifs
    · exact handsOver.of_same rfl rfl
    · exact handsOver

end

theorem run_handsOver {opening : SpendCheck → Limit → ℚ} {events : List SpendEvent}
    (ran : (spendMachine opening).run {} events = some world) : HandsOver world := by
  have preserved : ∀ state event next, Accounted state ∧ HandsOver state →
      (spendMachine opening).step state event = some next → Accounted next ∧ HandsOver next :=
    fun _ _ _ both stepped => ⟨both.1.step stepped, both.2.step both.1 stepped⟩
  exact (Machine.run_invariant preserved ⟨Accounted.fresh, HandsOver.fresh⟩ ran).2

end SpendWorld

def recordedAmount (key : CostKey) (events : List SpendEvent) : Amount :=
  tally (fun cost : CostKey × ℚ =>
      if cost.1 = key then
        { cost := cost.2, counted := countedAmount cost.2, requests := 1 }
      else 0)
    (events.filterMap SpendEvent.recorded)

theorem held_eq_recordedAmount {opening : SpendCheck → Limit → ℚ} {events : List SpendEvent}
    {world : SpendWorld} (ran : (spendMachine opening).run {} events = some world)
    (key : CostKey) : held (fun _ => true) key world.entries = recordedAmount key events := by
  unfold recordedAmount held
  rw [← SpendWorld.run_recordedBy ran]
  unfold tally
  rw [List.map_map]
  congr 1
  apply List.map_congr_left
  intro entry _
  by_cases same : entry.key = key <;> simp [Entry.cause, Entry.amount, same]

/-- Every recorded cost is in exactly one place and applied at most once, as its
counted amount or its plain cost; the store was handed what the costs were applied as,
the unconfirmed costs are exactly those not known to be in the counters, and at most
one write task is not over. -/
theorem costs_accounted_exactly_once {opening : SpendCheck → Limit → ℚ}
    {events : List SpendEvent} {world : SpendWorld}
    (ran : (spendMachine opening).run {} events = some world) :
    (∀ key, recordedAmount key events =
      held Place.isLanded key world.entries + world.ledger.pending.read key +
        world.ledger.writing.read key + world.ledger.unknownOf key +
          held Place.isDropped key world.entries) ∧
    (∀ entry ∈ world.entries,
      (entry.appliedAs = [] ∨ ∃ atomic, entry.appliedAs = [entry.added atomic]) ∧
      (entry.place.isLanded = true → ∃ atomic, entry.appliedAs = [entry.added atomic]) ∧
      (entry.place = .pending ∨ entry.place = .dropped → entry.appliedAs = [])) ∧
    (∀ key, world.handedTo key = appliedTo key world.entries) ∧
    (∀ key, world.ledger.unconfirmedOf key =
      let unconfirmed := world.ledger.pending.read key + world.ledger.writing.read key +
        world.ledger.unknownOf key
      if unconfirmed.requests = 0 then none
      else some { total := unconfirmed.cost, count := unconfirmed.requests }) ∧
    ∀ (first second : ℕ) (firstTask secondTask : WriteTask),
      world.tasks[first]? = some firstTask → world.tasks[second]? = some secondTask →
      firstTask ≠ .ended → secondTask ≠ .ended → first = second := by
  have accounted := SpendWorld.run_accounted ran
  have handsOver := SpendWorld.run_handsOver ran
  refine ⟨?_, ?_, handsOver.sums, ?_, ?_⟩
  · intro key
    rw [← held_eq_recordedAmount ran, held_everywhere, accounted.pending, accounted.writing,
      accounted.unknown]
  · intro entry member
    have once := accounted.appliedOnce entry member
    have single {amount : ℚ} (applied : entry.appliedAs = [amount]) :
        ∃ atomic, entry.appliedAs = [entry.added atomic] := by
      rcases handsOver.amounts entry member amount (by simp [applied]) with ⟨atomic, rfl⟩
      exact ⟨atomic, applied⟩
    unfold Entry.AppliedOnce at once
    cases place : entry.place with
    | pending | dropped =>
      rw [place] at once
      exact ⟨Or.inl once, nofun, fun _ => once⟩
    | writing =>
      rw [place] at once
      refine ⟨?_, nofun, nofun⟩
      dsimp only at once
      split_ifs at once
      · exact Or.inr ⟨_, once⟩
      · exact Or.inl once
    | landed confirmedAt added =>
      rw [place] at once
      exact ⟨Or.inr (single once), fun _ => single once, nofun⟩
    | unknown =>
      rw [place] at once
      refine ⟨?_, nofun, nofun⟩
      dsimp only at once
      cases applied : entry.appliedAs with
      | nil => exact Or.inl rfl
      | cons amount rest =>
        have alone : rest = [] := by simpa [applied] using once
        rw [alone] at applied ⊢
        exact Or.inr (applied ▸ single applied)
  · intro key
    rw [accounted.unconfirmed]
    exact Amount.entry_sum _
  · intro first second firstTask secondTask firstFound secondFound firstRunning secondRunning
    have firstWriter := (accounted.writer_of_live firstFound firstRunning).1
    have secondWriter := (accounted.writer_of_live secondFound secondRunning).1
    rw [firstWriter] at secondWriter
    exact Option.some.inj secondWriter

/-- A write to a plain store that fails for one of two users while that user's next
cost comes in, and the write after it to a store that applies batches atomically. -/
theorem costs_accounted_exactly_once_failed_entry :
    let day : Day := { year := 2026, month := 1, day := 1 }
    let first : CostKey := { userId := "first", keyId := none, day := day }
    let second : CostKey := { userId := "second", keyId := some 7, day := day }
    let events : List SpendEvent :=
      [.record "first" (1 / 3000) none day true, .record "second" (2 / 3000) (some 7) day true,
        .begin 0 .oneByOne, .answerEntry 0 first true 1,
        .record "second" (3 / 100) (some 7) day true, .answerEntry 0 second false 2,
        .writeFinished 0, .retryNow, .begin 1 .atomic, .answerAtomic 1 .applied 3]
    ∃ world, (spendMachine fun _ _ => 0).run {} events = some world ∧
      appliedTo first world.entries = (1 / 3000, 1) ∧
      appliedTo second world.entries = (30667 / 1000000, 2) ∧
      recordedAmount second events =
        held Place.isLanded second world.entries + world.ledger.pending.read second +
          world.ledger.writing.read second + world.ledger.unknownOf second +
            held Place.isDropped second world.entries ∧
      ∀ entry ∈ world.entries,
        entry.appliedAs = [] ∨ ∃ atomic, entry.appliedAs = [entry.added atomic] := by
  intro day first second events
  have checked : (((spendMachine fun _ _ => 0).run {} events).any fun world =>
      decide (world.handedTo first = (1 / 3000, 1) ∧
        world.handedTo second = (30667 / 1000000, 2))) = true := by
    decide +kernel
  rcases (Option.any_eq_true _ _).mp checked with ⟨world, ran, facts⟩
  rcases of_decide_eq_true facts with ⟨plain, counted⟩
  rcases costs_accounted_exactly_once ran with ⟨everywhere, once, handed, -⟩
  refine ⟨world, ran, ?_, ?_, everywhere second, fun entry member => (once entry member).1⟩
  · rw [← handed, plain]
  · rw [← handed, counted]

/-- `_Amount` without its counted sum, and `_Unconfirmed`, where every sum is rounded to a
double. -/
structure DoubleAmount where
  cost : ℚ := 0
  requests : ℕ := 0
  deriving DecidableEq

/-- What a ledger keeps for one user, key and day, in doubles. -/
structure DoubleLedger where
  pending : Option DoubleAmount := none
  writing : Option DoubleAmount := none
  unknown : Option DoubleAmount := none
  unconfirmed : Option DoubleAmount := none
  deriving DecidableEq

namespace DoubleLedger

def add (entry : Option DoubleAmount) (amount : DoubleAmount) : DoubleAmount where
  cost := PyFloat.nearest ((entry.getD {}).cost + amount.cost)
  requests := (entry.getD {}).requests + amount.requests

/-- `record`, of a positive cost. -/
def record (ledger : DoubleLedger) (costUsd : ℚ) : DoubleLedger :=
  let amount : DoubleAmount := { cost := costUsd, requests := 1 }
  { ledger with
    pending := some (add ledger.pending amount)
    unconfirmed := some (add ledger.unconfirmed amount) }

/-- `_write_pending` up to its call of the store. -/
def begin (ledger : DoubleLedger) : DoubleLedger :=
  { ledger with pending := none, writing := ledger.pending }

/-- `_land`, of the batch in flight. -/
def land (ledger : DoubleLedger) : DoubleLedger :=
  match ledger.writing, ledger.unconfirmed with
  | some amount, some entry =>
    { ledger with
      writing := none
      unconfirmed :=
        if entry.requests ≤ amount.requests then none
        else
          some
            { cost := PyFloat.nearest (entry.cost - amount.cost)
              requests := entry.requests - amount.requests } }
  | _, _ => { ledger with writing := none }

end DoubleLedger

/-- A cost of 0.1 is written while one of 0.2 comes in: the unconfirmed cost that is
left is not the pending one. -/
theorem unconfirmed_doubles_leave_the_pending_ones :
    let oneTenth := PyFloat.nearest (1 / 10)
    let twoTenths := PyFloat.nearest (2 / 10)
    let ledger := ((({} : DoubleLedger).record oneTenth).begin.record twoTenths).land
    ledger.writing = none ∧ ledger.unknown = none ∧
      ledger.pending = some { cost := twoTenths, requests := 1 } ∧
      ledger.unconfirmed ≠ ledger.pending := by
  decide +kernel

end HybridInference.Spend
