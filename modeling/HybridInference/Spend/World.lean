import HybridInference.Library.Machine
import HybridInference.Spend.Ledger

/-!
# The ledger among its callers

A `SpendLedger` with the write tasks it starts, the store's answers to them and
the gates that admit requests. Every block that runs without suspending is one
step. The world also keeps each cost ever recorded, where it is, and the writes
that truly applied it to the counters; the ledger never looks at these.

A write to a store that applies batches atomically ends in one answer, which may
say that nobody can tell whether it was applied. Any other store answers for one
entry after the other. A cancelled write may or may not have been applied, as
far as it was under way.
-/

namespace HybridInference.Spend

open Library

def CostKey.against (check : SpendCheck) (today : Day) (limit : Limit) (key : CostKey) : Bool :=
  countsFor check.keyId today key.keyId key.day limit && match limit with
    | .accountDay | .accountMonth => key.userId = check.userId
    | .keyDay | .keyMonth => true

inductive Place where
  | pending
  | writing
  | landed (confirmedAt added : ℚ)
  | unknown
  | dropped
  deriving DecidableEq

/-- A recorded cost, where it is, and what each write that truly applied it added to a counter. -/
structure Entry where
  key : CostKey
  cost : ℚ
  place : Place := .pending
  appliedAs : List ℚ := []
  deriving DecidableEq

/-- What `_write` hands the store for an entry of the batch, with the number of requests: the
counted amount to a store that applies batches atomically, the sum of the costs to any other. -/
def Amount.handed (atomic : Bool) (amount : Amount) : ℚ × ℕ :=
  (if atomic then amount.counted else amount.cost, amount.requests)

namespace Entry

def amount (entry : Entry) : Amount where
  cost := entry.cost
  counted := countedAmount entry.cost
  requests := 1

def move (source target : Place) (entry : Entry) : Entry :=
  if entry.place = source then { entry with place := target } else entry

def added (atomic : Bool) (entry : Entry) : ℚ :=
  if atomic then countedAmount entry.cost else entry.cost

def apply (atomic : Bool) (keys : List CostKey) (entry : Entry) : Entry :=
  if entry.place = .writing ∧ entry.key ∈ keys then
    { entry with appliedAs := entry.appliedAs ++ [entry.added atomic] }
  else entry

def resolve (applied unknown : List CostKey) (atomic : Bool) (now : ℚ) (entry : Entry) : Entry :=
  if entry.place = .writing then
    { entry with
      place :=
        if entry.key ∈ applied then .landed now (entry.added atomic)
        else if entry.key ∈ unknown then .unknown
        else .pending }
  else entry

def confirmedBefore (time : ℚ) (entry : Entry) : ℚ :=
  match entry.place with
  | .landed confirmedAt added => if confirmedAt < time then added else 0
  | _ => 0

end Entry

inductive WriteTask where
  | created
  | atomic (batch : Dict CostKey Amount)
  | oneByOne (batch : Dict CostKey Amount) (applied failed todo : List CostKey)
  | done
  | ended
  deriving DecidableEq

inductive StoreRef where
  | gone
  | atomic
  | oneByOne
  deriving DecidableEq

inductive AtomicAnswer where
  | applied
  | failed
  | unknown (reallyApplied : Bool)
  deriving DecidableEq

/-- The ledger among its callers; `handed` is what the writes that were truly applied handed the
store. -/
structure SpendWorld where
  ledger : SpendLedger := {}
  tasks : List WriteTask := []
  entries : List Entry := []
  handed : List (CostKey × ℚ × ℕ) := []
  checks : List SpendCheck := []
  reservations : List Reservation := []
  clock : ℚ := 0
  deriving DecidableEq

inductive SpendEvent where
  | record (userId : String) (costUsd : ℚ) (apiKeyId : Option ℤ) (day : Day) (loop : Bool)
  | begin (task : ℕ) (store : StoreRef)
  | answerAtomic (task : ℕ) (answer : AtomicAnswer) (now : ℚ)
  | answerEntry (task : ℕ) (key : CostKey) (applied : Bool) (now : ℚ)
  | cancel (task : ℕ) (reallyApplied : List CostKey)
  | writeFinished (task : ℕ)
  | retryNow
  | flush
  | check (check : SpendCheck) (today : Day) (now : ℚ)
  | admitRequest (check : ℕ) (amount : ℚ) (today : Day) (now : ℚ)
  | release (reservation : ℕ)

namespace SpendWorld

def startWrite (world : SpendWorld) (loop : Bool) : SpendWorld :=
  if world.ledger.writer.isSome then world
  else if world.ledger.retry || world.ledger.pending.keys.isEmpty then world
  else if !loop then world
  else
    { world with
      ledger := { world.ledger with writer := some world.tasks.length }
      tasks := world.tasks ++ [.created] }

def record (world : SpendWorld) (userId : String) (costUsd : ℚ) (apiKeyId : Option ℤ) (day : Day)
    (loop : Bool) : SpendWorld :=
  if userId = "" ∨ ¬0 < costUsd then world
  else
    let key : CostKey := { userId := userId, keyId := apiKeyId, day := day }
    startWrite
      { world with
        ledger := world.ledger.enter key costUsd
        entries := world.entries ++ [{ key := key, cost := costUsd }] }
      loop

/-- `_write_pending` up to its call of the store. -/
def begin (world : SpendWorld) (task : ℕ) (store : StoreRef) : SpendWorld :=
  let batch := world.ledger.pending
  let taken := world.ledger.takePending
  if batch.keys.isEmpty then { world with ledger := taken, tasks := world.tasks.set task .done }
  else
    match store with
    | .gone =>
      { world with
        ledger := taken.unconfirmAll batch.keys batch
        tasks := world.tasks.set task .done
        entries := world.entries.map (Entry.move .pending .dropped) }
    | .atomic =>
      { world with
        ledger := { taken with writing := batch }
        tasks := world.tasks.set task (.atomic batch)
        entries := world.entries.map (Entry.move .pending .writing) }
    | .oneByOne =>
      { world with
        ledger := { taken with writing := batch }
        tasks := world.tasks.set task (.oneByOne batch [] [] batch.keys)
        entries := world.entries.map (Entry.move .pending .writing) }

/-- The store applies the entries of a batch that it was handed. -/
def applyEntries (world : SpendWorld) (batch : Dict CostKey Amount) (atomic : Bool)
    (keys : List CostKey) : SpendWorld :=
  { world with
    entries := world.entries.map (Entry.apply atomic keys)
    handed := world.handed ++ keys.map fun key => (key, (batch.read key).handed atomic) }

/-- `_write_pending` from the store's answer on. -/
def finish (world : SpendWorld) (task : ℕ) (batch : Dict CostKey Amount)
    (applied failed unknown : List CostKey) (atomic : Bool) (now : ℚ) : SpendWorld :=
  { world with
    ledger := world.ledger.settleWrite batch applied failed unknown now
    tasks := world.tasks.set task .done
    entries := world.entries.map (Entry.resolve applied unknown atomic now)
    clock := now }

/-- `increment_user_costs` answers. -/
def answerAtomic (world : SpendWorld) (task : ℕ) (batch : Dict CostKey Amount) (now : ℚ) :
    AtomicAnswer → SpendWorld
  | .applied =>
    (world.applyEntries batch true batch.keys).finish task batch batch.keys [] [] true now
  | .failed => world.finish task batch [] batch.keys [] true now
  | .unknown reallyApplied =>
    (world.applyEntries batch true (if reallyApplied then batch.keys else [])).finish task batch
      [] [] batch.keys true now

/-- `increment_user_cost` answers for one entry; after the last one the write
ends. -/
def answerEntry (world : SpendWorld) (task : ℕ) (batch : Dict CostKey Amount)
    (applied failed todo : List CostKey) (key : CostKey) (success : Bool) (now : ℚ) : SpendWorld :=
  let answered := world.applyEntries batch false (if success then [key] else [])
  let nowApplied := if success then applied ++ [key] else applied
  let nowFailed := if success then failed else failed ++ [key]
  if (todo.erase key).isEmpty then answered.finish task batch nowApplied nowFailed [] false now
  else
    { answered with
      tasks := answered.tasks.set task (.oneByOne batch nowApplied nowFailed (todo.erase key))
      clock := now }

def cancelWrite (world : SpendWorld) (task : ℕ) (batch : Dict CostKey Amount) (atomic : Bool)
    (reallyApplied : List CostKey) : SpendWorld :=
  let answered := world.applyEntries batch atomic reallyApplied
  { answered with
    ledger := { answered.ledger.markUnknown batch.keys batch with writing := ∅ }
    tasks := answered.tasks.set task .done
    entries := answered.entries.map (Entry.move .writing .unknown) }

def writeFinished (world : SpendWorld) (task : ℕ) : SpendWorld :=
  startWrite
    { world with
      ledger := { world.ledger with writer := none }
      tasks := world.tasks.set task .ended }
    true

def retryNow (world : SpendWorld) : SpendWorld :=
  startWrite { world with ledger := { world.ledger with retry := false } } true

/-- One round of the loop of `flush`. -/
def flush (world : SpendWorld) : SpendWorld :=
  if world.ledger.writer.isSome then world
  else if world.ledger.pending.keys.isEmpty then world
  else if world.ledger.retry then { world with ledger := { world.ledger with retry := false } }
  else world.startWrite true

def readsAtLeast (world : SpendWorld) (opening : SpendCheck → Limit → ℚ) (check : SpendCheck)
    (today : Day) : Prop :=
  ∀ limit ∈ limits, (check.limitUsd limit).isSome → opening check limit +
      tally (fun entry : Entry =>
        if entry.key.against check today limit then entry.confirmedBefore check.readAt else 0)
        world.entries ≤ check.spentUsd limit

instance (world : SpendWorld) (opening : SpendCheck → Limit → ℚ) (check : SpendCheck)
    (today : Day) : Decidable (world.readsAtLeast opening check today) :=
  inferInstanceAs (Decidable (∀ limit ∈ limits, _))

def admitRequest (world : SpendWorld) (check : SpendCheck) (amount : ℚ) (today : Day) (now : ℚ) :
    SpendWorld :=
  match world.ledger.admitRequest check amount today now with
  | (ledger, .error _) => { world with ledger := ledger, clock := now }
  | (ledger, .ok reservation) =>
    { world with
      ledger := ledger
      reservations := world.reservations ++ [reservation]
      clock := now }

def release (world : SpendWorld) (index : ℕ) (reservation : Reservation) : SpendWorld :=
  if reservation.isOpen then
    { world with
      ledger := world.ledger.unreserve reservation
      reservations := world.reservations.set index { reservation with isOpen := false } }
  else world

variable (opening : SpendCheck → Limit → ℚ)

def step (world : SpendWorld) : SpendEvent → Option SpendWorld
  | .record userId costUsd apiKeyId day loop =>
    some (world.record userId costUsd apiKeyId day loop)
  | .begin task store =>
    match world.tasks[task]? with
    | some .created => some (world.begin task store)
    | _ => none
  | .answerAtomic task answer now =>
    match world.tasks[task]? with
    | some (.atomic batch) =>
      if world.clock ≤ now then some (world.answerAtomic task batch now answer) else none
    | _ => none
  | .answerEntry task key success now =>
    match world.tasks[task]? with
    | some (.oneByOne batch applied failed todo) =>
      if world.clock ≤ now ∧ key ∈ todo then
        some (world.answerEntry task batch applied failed todo key success now)
      else none
    | _ => none
  | .cancel task reallyApplied =>
    match world.tasks[task]? with
    | some .created => some { world with tasks := world.tasks.set task .done }
    | some (.atomic batch) =>
      if reallyApplied = [] ∨ reallyApplied = batch.keys then
        some (world.cancelWrite task batch true reallyApplied)
      else none
    | some (.oneByOne batch _ _ todo) =>
      if reallyApplied = [] ∨ ∃ key ∈ todo, reallyApplied = [key] then
        some (world.cancelWrite task batch false reallyApplied)
      else none
    | _ => none
  | .writeFinished task =>
    match world.tasks[task]? with
    | some .done => some (world.writeFinished task)
    | _ => none
  | .retryNow => if world.ledger.retry then some world.retryNow else none
  | .flush => some world.flush
  | .check check today now =>
    if world.clock ≤ now ∧ check.readAt ≤ now ∧ world.readsAtLeast opening check today then
      some { world with checks := world.checks ++ [check], clock := now }
    else none
  | .admitRequest index amount today now =>
    match world.checks[index]? with
    | some check =>
      if world.clock ≤ now then some (world.admitRequest check amount today now) else none
    | none => none
  | .release index =>
    match world.reservations[index]? with
    | some reservation => some (world.release index reservation)
    | none => none

inductive Stepped (world : SpendWorld) : SpendEvent → SpendWorld → Prop
  | record (userId : String) (costUsd : ℚ) (apiKeyId : Option ℤ) (day : Day) (loop : Bool) :
      Stepped world (.record userId costUsd apiKeyId day loop)
        (world.record userId costUsd apiKeyId day loop)
  | begin {task : ℕ} (store : StoreRef) (found : world.tasks[task]? = some .created) :
      Stepped world (.begin task store) (world.begin task store)
  | answerAtomic {task : ℕ} {batch : Dict CostKey Amount} {now : ℚ} (answer : AtomicAnswer)
      (found : world.tasks[task]? = some (.atomic batch)) (later : world.clock ≤ now) :
      Stepped world (.answerAtomic task answer now) (world.answerAtomic task batch now answer)
  | answerEntry {task : ℕ} {batch : Dict CostKey Amount} {applied failed todo : List CostKey}
      {key : CostKey} {now : ℚ} (success : Bool)
      (found : world.tasks[task]? = some (.oneByOne batch applied failed todo))
      (later : world.clock ≤ now) (inTodo : key ∈ todo) :
      Stepped world (.answerEntry task key success now)
        (world.answerEntry task batch applied failed todo key success now)
  | cancelCreated {task : ℕ} (keys : List CostKey) (found : world.tasks[task]? = some .created) :
      Stepped world (.cancel task keys) { world with tasks := world.tasks.set task .done }
  | cancelAtomic {task : ℕ} {batch : Dict CostKey Amount} {keys : List CostKey}
      (found : world.tasks[task]? = some (.atomic batch)) (all : keys = [] ∨ keys = batch.keys) :
      Stepped world (.cancel task keys) (world.cancelWrite task batch true keys)
  | cancelOneByOne {task : ℕ} {batch : Dict CostKey Amount} {applied failed todo : List CostKey}
      {keys : List CostKey}
      (found : world.tasks[task]? = some (.oneByOne batch applied failed todo))
      (underWay : keys = [] ∨ ∃ key ∈ todo, keys = [key]) :
      Stepped world (.cancel task keys) (world.cancelWrite task batch false keys)
  | writeFinished {task : ℕ} (found : world.tasks[task]? = some .done) :
      Stepped world (.writeFinished task) (world.writeFinished task)
  | retryNow (waiting : world.ledger.retry = true) : Stepped world .retryNow world.retryNow
  | flush : Stepped world .flush world.flush
  | check {check : SpendCheck} {today : Day} {now : ℚ} (later : world.clock ≤ now)
      (taken : check.readAt ≤ now) (enough : world.readsAtLeast opening check today) :
      Stepped world (.check check today now)
        { world with checks := world.checks ++ [check], clock := now }
  | admitRequest {index : ℕ} {check : SpendCheck} {now : ℚ} (amount : ℚ) (today : Day)
      (found : world.checks[index]? = some check) (later : world.clock ≤ now) :
      Stepped world (.admitRequest index amount today now)
        (world.admitRequest check amount today now)
  | release {index : ℕ} {reservation : Reservation}
      (found : world.reservations[index]? = some reservation) :
      Stepped world (.release index) (world.release index reservation)

theorem stepped_of_step {world next : SpendWorld} {event : SpendEvent}
    (stepped : world.step opening event = some next) : world.Stepped opening event next := by
  unfold step at stepped
  cases event with
  | record userId costUsd apiKeyId day loop =>
    cases stepped
    exact .record userId costUsd apiKeyId day loop
  | begin task store =>
    dsimp only at stepped
    split at stepped
    · rename_i found
      cases stepped
      exact .begin store found
    · cases stepped
  | answerAtomic task answer now =>
    dsimp only at stepped
    split at stepped
    · rename_i batch found
      split_ifs at stepped with later
      cases stepped
      exact .answerAtomic answer found later
    · cases stepped
  | answerEntry task key success now =>
    dsimp only at stepped
    split at stepped
    · rename_i batch applied failed todo found
      split_ifs at stepped with allowed
      cases stepped
      exact .answerEntry success found allowed.1 allowed.2
    · cases stepped
  | cancel task keys =>
    dsimp only at stepped
    split at stepped
    · rename_i found
      cases stepped
      exact .cancelCreated keys found
    · rename_i batch found
      split_ifs at stepped with allowed
      cases stepped
      exact .cancelAtomic found allowed
    · rename_i batch applied failed todo found
      split_ifs at stepped with allowed
      cases stepped
      exact .cancelOneByOne found allowed
    · cases stepped
  | writeFinished task =>
    dsimp only at stepped
    split at stepped
    · rename_i found
      cases stepped
      exact .writeFinished found
    · cases stepped
  | retryNow =>
    dsimp only at stepped
    split_ifs at stepped with waiting
    cases stepped
    exact .retryNow waiting
  | flush =>
    cases stepped
    exact .flush
  | check check today now =>
    dsimp only at stepped
    split_ifs at stepped with allowed
    cases stepped
    exact .check allowed.1 allowed.2.1 allowed.2.2
  | admitRequest index amount today now =>
    dsimp only at stepped
    split at stepped
    · rename_i check found
      split_ifs at stepped with later
      cases stepped
      exact .admitRequest amount today found later
    · cases stepped
  | release index =>
    dsimp only at stepped
    split at stepped
    · rename_i reservation found
      cases stepped
      exact .release found
    · cases stepped

end SpendWorld

/-- A ledger whose store's counters started from `opening`. -/
def spendMachine (opening : SpendCheck → Limit → ℚ) : Machine SpendWorld SpendEvent where
  step := SpendWorld.step opening

end HybridInference.Spend
