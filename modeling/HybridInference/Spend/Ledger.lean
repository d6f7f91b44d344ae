import HybridInference.Library.CountedSum
import HybridInference.Library.Dict
import HybridInference.Spend.Quota
import Mathlib.Data.Rat.Floor

/-!
# The spend ledger

The state of `SpendLedger` and the blocks of its methods that run without
suspending. Costs are exact. A dictionary is walked in an order that nothing
below depends on.
-/

namespace HybridInference.Spend

open Library

structure Day where
  year : ℕ
  month : ℕ
  day : ℕ
  deriving DecidableEq

/-- `day.startswith(month)`, for the month of `today`. -/
def Day.inMonthOf (day today : Day) : Bool :=
  day.year = today.year && day.month = today.month

structure CostKey where
  userId : String
  keyId : Option ℤ
  day : Day
  deriving DecidableEq

/-- `counted_amount`: the nearest whole micro-dollar, half away from zero. -/
def countedAmount (costUsd : ℚ) : ℚ :=
  if 0 ≤ costUsd then ⌊costUsd * 1000000 + 1 / 2⌋ / 1000000
  else -(⌊-costUsd * 1000000 + 1 / 2⌋ / 1000000)

@[ext]
structure Amount where
  cost : ℚ := 0
  counted : ℚ := 0
  requests : ℕ := 0
  deriving DecidableEq

namespace Amount

instance : Zero Amount := ⟨{}⟩

instance : Add Amount :=
  ⟨fun first second =>
    { cost := first.cost + second.cost
      counted := first.counted + second.counted
      requests := first.requests + second.requests }⟩

@[simp]
theorem zero_cost : (0 : Amount).cost = 0 := rfl

@[simp]
theorem zero_counted : (0 : Amount).counted = 0 := rfl

@[simp]
theorem zero_requests : (0 : Amount).requests = 0 := rfl

@[simp]
theorem add_cost (first second : Amount) : (first + second).cost = first.cost + second.cost := rfl

@[simp]
theorem add_counted (first second : Amount) :
    (first + second).counted = first.counted + second.counted := rfl

@[simp]
theorem add_requests (first second : Amount) :
    (first + second).requests = first.requests + second.requests := rfl

instance : AddCommMonoid Amount where
  add_assoc first second third := by ext <;> simp [add_assoc]
  zero_add amount := by ext <;> simp
  add_zero amount := by ext <;> simp
  add_comm first second := by ext <;> simp [add_comm]
  nsmul := nsmulRec

end Amount

structure Landed where
  confirmedAt : ℚ
  byUser : Dict String (List (Option ℤ × Day × ℚ))
  deriving DecidableEq

/-- `SpendLedger`. The writer is the task that carries a write, and `retry` says
that a timer is set. -/
structure SpendLedger where
  reservedUsers : Dict String CountedSum := ∅
  reservedKeys : Dict ℤ CountedSum := ∅
  pending : Dict CostKey Amount := ∅
  writing : Dict CostKey Amount := ∅
  unconfirmed : Dict String (Dict (Option ℤ × Day) CountedSum) := ∅
  landed : List Landed := []
  unknown : List (CostKey × Amount) := []
  writer : Option ℕ := none
  retry : Bool := false
  retryDelay : ℚ := 0
  deriving DecidableEq

def landedWindowSeconds : ℚ := 300

def retryFirstSeconds : ℚ := 1 / 2

def retryMaxSeconds : ℚ := 30

/-- `SpendCheck`, of a gate that has a ledger. -/
structure SpendCheck where
  userId : String
  keyId : Option ℤ
  readAt : ℚ
  accountQuotaUsd : ℚ
  accountSpentUsd : ℚ
  accountQuotaMonthlyUsd : Option ℚ := none
  accountSpentMonthUsd : ℚ := 0
  keyBudgetDailyUsd : Option ℚ := none
  keyBudgetMonthlyUsd : Option ℚ := none
  keySpentTodayUsd : ℚ := 0
  keySpentMonthUsd : ℚ := 0
  keyPrefix : Option String := none
  keyLabel : Option String := none
  deriving DecidableEq

namespace SpendCheck

def limitUsd (check : SpendCheck) : Limit → Option ℚ
  | .accountDay => some check.accountQuotaUsd
  | .accountMonth => check.accountQuotaMonthlyUsd
  | .keyDay => check.keyBudgetDailyUsd
  | .keyMonth => check.keyBudgetMonthlyUsd

def spentUsd (check : SpendCheck) : Limit → ℚ
  | .accountDay => check.accountSpentUsd
  | .accountMonth => check.accountSpentMonthUsd
  | .keyDay => check.keySpentTodayUsd
  | .keyMonth => check.keySpentMonthUsd

end SpendCheck

structure Reservation where
  userId : String
  keyId : Option ℤ
  amount : ℚ
  isOpen : Bool := true
  deriving DecidableEq

/-- Whether a cost counts against a limit of a gate, as `count` in `_extra`
decides. -/
def countsFor (keyId : Option ℤ) (today : Day) (costKey : Option ℤ) (day : Day) : Limit → Bool
  | .accountDay => day.inMonthOf today && day = today
  | .accountMonth => day.inMonthOf today
  | .keyDay => day.inMonthOf today && (keyId.isSome && costKey = keyId) && day = today
  | .keyMonth => day.inMonthOf today && (keyId.isSome && costKey = keyId)

namespace SpendLedger

def addReserved {Who : Type} [DecidableEq Who] (table : Dict Who CountedSum) (who : Who)
    (amount : ℚ) : Dict Who CountedSum :=
  table.insert who (((table.find who).getD {}).add amount)

def removeReserved {Who : Type} [DecidableEq Who] (table : Dict Who CountedSum) (who : Who)
    (amount : ℚ) : Dict Who CountedSum :=
  match table.find who with
  | none => table
  | some entry =>
    if entry.count - 1 ≤ 0 then table.erase who
    else table.insert who (entry.remove amount 1)

def forgetLanded (ledger : SpendLedger) (now : ℚ) : SpendLedger :=
  { ledger with
    landed := ledger.landed.dropWhile fun write => write.confirmedAt < now - landedWindowSeconds }

/-- The costs that `_extra` goes through: what is not confirmed for the user, and
the writes confirmed since the gate read, newest first. -/
def extraCosts (ledger : SpendLedger) (userId : String) (readAt now : ℚ) :
    List (Option ℤ × Day × ℚ) :=
  let stale : Bool := readAt < now - landedWindowSeconds
  let fresh := ledger.landed.reverse.takeWhile fun write => !(write.confirmedAt < readAt && !stale)
  (((ledger.unconfirmed.find userId).getD ∅).entries.map fun entry =>
      (entry.1.1, entry.1.2, entry.2.total)) ++
    fresh.flatMap fun write => (write.byUser.find userId).getD []

/-- What `_extra` adds for the reservations in flight. -/
def reservedFor (ledger : SpendLedger) (userId : String) (keyId : Option ℤ) : Limit → ℚ
  | .accountDay | .accountMonth => ((ledger.reservedUsers.find userId).getD {}).total
  | .keyDay | .keyMonth =>
    match keyId with
    | none => 0
    | some key => ((ledger.reservedKeys.find key).getD {}).total

/-- `_extra`, once the writes that are too old are forgotten. -/
def extra (ledger : SpendLedger) (userId : String) (keyId : Option ℤ) (readAt : ℚ) (today : Day)
    (now : ℚ) (limit : Limit) : ℚ :=
  (ledger.extraCosts userId readAt now).foldl (fun total cost =>
        total + if countsFor keyId today cost.1 cost.2.1 limit then cost.2.2 else 0) 0 +
    ledger.reservedFor userId keyId limit

def refusal (ledger : SpendLedger) (check : SpendCheck) (today : Day) (now : ℚ) :
    Option BudgetRefusal :=
  firstRefusal check.limitUsd (fun limit =>
      check.spentUsd limit +
        (ledger.forgetLanded now).extra check.userId check.keyId check.readAt today now limit)
    check.keyPrefix check.keyLabel

/-- `admit`: the ledger after it, and the reservation or the limit that refuses. -/
def admitRequest (ledger : SpendLedger) (check : SpendCheck) (amount : ℚ) (today : Day) (now : ℚ) :
    SpendLedger × Except BudgetRefusal Reservation :=
  let forgotten := ledger.forgetLanded now
  match ledger.refusal check today now with
  | some refusal => (forgotten, .error refusal)
  | none =>
    ({ forgotten with
        reservedUsers := addReserved forgotten.reservedUsers check.userId amount
        reservedKeys :=
          match check.keyId with
          | none => forgotten.reservedKeys
          | some key => addReserved forgotten.reservedKeys key amount },
      .ok { userId := check.userId, keyId := check.keyId, amount := amount })

def unreserve (ledger : SpendLedger) (reservation : Reservation) : SpendLedger :=
  { ledger with
    reservedUsers := removeReserved ledger.reservedUsers reservation.userId reservation.amount
    reservedKeys :=
      match reservation.keyId with
      | none => ledger.reservedKeys
      | some key => removeReserved ledger.reservedKeys key reservation.amount }

/-- `pending.setdefault(key, _Amount()).add(...)`. -/
def addPending (pending : Dict CostKey Amount) (key : CostKey) (amount : Amount) :
    Dict CostKey Amount :=
  pending.insert key (pending.read key + amount)

/-- The entries of `record`. -/
def enter (ledger : SpendLedger) (key : CostKey) (costUsd : ℚ) : SpendLedger :=
  let perUser := (ledger.unconfirmed.find key.userId).getD ∅
  { ledger with
    pending := addPending ledger.pending key
      { cost := costUsd, counted := countedAmount costUsd, requests := 1 }
    unconfirmed := ledger.unconfirmed.insert key.userId (perUser.insert (key.keyId, key.day)
        (((perUser.find (key.keyId, key.day)).getD {}).add costUsd)) }

def keepUser (unconfirmed : Dict String (Dict (Option ℤ × Day) CountedSum)) (userId : String)
    (perUser : Dict (Option ℤ × Day) CountedSum) : Dict String (Dict (Option ℤ × Day) CountedSum) :=
  if perUser.keys.isEmpty then unconfirmed.erase userId else unconfirmed.insert userId perUser

def unconfirm (ledger : SpendLedger) (key : CostKey) (amount : Amount) : SpendLedger :=
  match ledger.unconfirmed.find key.userId with
  | none => ledger
  | some perUser =>
    match perUser.find (key.keyId, key.day) with
    | none => ledger
    | some entry =>
      let left := entry.remove amount.cost amount.requests
      if left.count ≤ 0 then
        { ledger with
          unconfirmed :=
            keepUser ledger.unconfirmed key.userId (perUser.erase (key.keyId, key.day)) }
      else
        { ledger with
          unconfirmed := ledger.unconfirmed.insert key.userId
            (perUser.insert (key.keyId, key.day) left) }

def takePending (ledger : SpendLedger) : SpendLedger :=
  { ledger with pending := ∅ }

/-- `_unconfirm` for each of some keys of a batch. -/
def unconfirmAll (ledger : SpendLedger) (keys : List CostKey) (batch : Dict CostKey Amount) :
    SpendLedger :=
  keys.foldl (fun ledger key => ledger.unconfirm key (batch.read key)) ledger

def landedByUser (keys : List CostKey) (batch : Dict CostKey Amount) :
    Dict String (List (Option ℤ × Day × ℚ)) :=
  keys.foldl (fun byUser key =>
      byUser.insert key.userId
        (((byUser.find key.userId).getD []) ++ [(key.keyId, key.day, (batch.read key).cost)]))
    ∅

def land (ledger : SpendLedger) (keys : List CostKey) (batch : Dict CostKey Amount) (now : ℚ) :
    SpendLedger :=
  let unconfirmed := ledger.unconfirmAll keys batch
  forgetLanded
    { unconfirmed with
      landed := unconfirmed.landed ++ [{ confirmedAt := now, byUser := landedByUser keys batch }] }
    now

def markUnknown (ledger : SpendLedger) (keys : List CostKey) (batch : Dict CostKey Amount) :
    SpendLedger :=
  { ledger with unknown := ledger.unknown ++ keys.map fun key => (key, batch.read key) }

def handBack (ledger : SpendLedger) (keys : List CostKey) (batch : Dict CostKey Amount) :
    SpendLedger :=
  { ledger with
    pending := keys.foldl (fun pending key => addPending pending key (batch.read key))
      ledger.pending }

/-- `_schedule_retry`, in a task of a running loop. -/
def scheduleRetry (ledger : SpendLedger) : SpendLedger :=
  if ledger.retry then ledger
  else
    { ledger with
      retryDelay := min retryMaxSeconds (max retryFirstSeconds (ledger.retryDelay * 2))
      retry := true }

/-- `_write_pending` after the store has answered: which keys of the batch were
applied, which failed and which may be either. -/
def settleWrite (ledger : SpendLedger) (batch : Dict CostKey Amount)
    (applied failed unknown : List CostKey) (now : ℚ) : SpendLedger :=
  let written := { ledger with writing := ∅ }
  let landed := if applied.isEmpty then written else written.land applied batch now
  let marked := if unknown.isEmpty then landed else landed.markUnknown unknown batch
  if failed.isEmpty then { marked with retryDelay := 0 }
  else (marked.handBack failed batch).scheduleRetry

def unwritten (ledger : SpendLedger) : ℚ × ℕ :=
  let amounts := ledger.pending.entries.map (fun entry => entry.2) ++
    ledger.writing.entries.map (fun entry => entry.2) ++ ledger.unknown.map Prod.snd
  ((amounts.map Amount.cost).sum, (amounts.map Amount.requests).sum)

end SpendLedger

end HybridInference.Spend
