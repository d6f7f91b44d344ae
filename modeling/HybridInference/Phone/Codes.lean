import HybridInference.Library.Dict
import HybridInference.Library.ListUpdate
import HybridInference.Library.Machine

/-!
# Phone codes

`reserve_phone_code`, `activate_phone_code`, `invalidate_phone_code` and
`consume_phone_code` of `serving.storage.phone_auth`, transaction by transaction.
Times are in microseconds; `NOW()` is fixed when a transaction begins, so a later
one may commit first. A transaction that counts has both of its advisory locks, and
a row that was selected for update or deleted is locked until the transaction ends.

A transaction may end at any moment without effect: its owner is not active, its
connection is lost, or it waits too long. Challenge ids are drawn afresh by the
callers. The history of what was committed is kept besides the tables; the code
reads none of it.
-/

namespace HybridInference.Phone

open Library

def minute : ℤ := 60 * 1000000

def hour : ℤ := 60 * minute

def day : ℤ := 24 * hour

inductive Kind where
  | send
  | verify
  deriving DecidableEq

/-- A row of `phone_auth_attempts`. -/
structure Attempt where
  id : ℕ
  phone : String
  ip : String
  kind : Kind
  createdAt : ℤ
  deriving DecidableEq

/-- The primary key of `phone_auth_codes`; no account is the empty text. -/
structure CodeKey where
  phone : String
  purpose : String
  userId : String
  deriving DecidableEq

structure CodeRow where
  challengeId : String
  codeHash : String
  expiresAt : ℤ
  attempts : ℕ := 0
  active : Bool := false
  consumedAt : Option ℤ := none
  deriving DecidableEq

structure Limits where
  cooldown : ℤ
  expire : ℤ
  phoneHour : ℕ
  phoneDay : ℕ
  ipHour : ℕ
  ipDay : ℕ
  maxAttempts : ℕ
  verifyPerPhone : ℕ
  verifyPerIp : ℕ

structure Reserve where
  key : CodeKey
  challengeId : String
  codeHash : String
  ip : String
  now : ℤ
  deriving DecidableEq

structure Consume where
  key : CodeKey
  codeHash : String
  ip : String
  now : ℤ
  deriving DecidableEq

inductive Transaction where
  | reserving (reserve : Reserve)
  | reserveAdmitted (reserve : Reserve)
  | reserveSwept (reserve : Reserve) (attempts : List ℕ) (codes : List CodeKey)
  | consuming (consume : Consume)
  | consumeAdmitted (consume : Consume)
  | consumeSelected (consume : Consume) (row : Option CodeRow)
  | ended
  deriving DecidableEq

inductive Entry where
  | admitted (attempt : Attempt)
  | swept (now : ℤ)
  | reserved (key : CodeKey) (challengeId codeHash : String) (expiresAt : ℤ)
  | activated (challengeId : String)
  | compared (key : CodeKey) (challengeId : String) (now : ℤ) (codeHash : String) (ok : Bool)
  deriving DecidableEq

structure Store where
  attempts : List Attempt := []
  nextId : ℕ := 0
  codes : Dict CodeKey CodeRow := ∅
  transactions : List Transaction := []
  history : List Entry := []

def Transaction.lock : Transaction → Option (Kind × String × String)
  | .reserveAdmitted reserve => some (.send, reserve.key.phone, reserve.ip)
  | .reserveSwept reserve _ _ => some (.send, reserve.key.phone, reserve.ip)
  | .consumeAdmitted consume => some (.verify, consume.key.phone, consume.ip)
  | .consumeSelected consume _ => some (.verify, consume.key.phone, consume.ip)
  | .reserving _ | .consuming _ | .ended => none

def Transaction.holds (transaction : Transaction) (kind : Kind) (phone ip : String) : Bool :=
  match transaction.lock with
  | some (otherKind, otherPhone, otherIp) =>
    otherKind = kind && (otherPhone = phone || otherIp = ip)
  | none => false

def Transaction.rowLocks : Transaction → List CodeKey
  | .reserveSwept _ _ codes => codes
  | .consumeSelected consume (some _) => [consume.key]
  | _ => []

def Transaction.challenge : Transaction → Option String
  | .reserving reserve => some reserve.challengeId
  | .reserveAdmitted reserve => some reserve.challengeId
  | .reserveSwept reserve _ _ => some reserve.challengeId
  | .consuming _ | .consumeAdmitted _ | .consumeSelected _ _ | .ended => none

def Entry.challenge? : Entry → Option String
  | .reserved _ challengeId _ _ => some challengeId
  | .admitted _ | .swept _ | .activated _ | .compared _ _ _ _ _ => none

section Counts

variable (limits : Limits) (attempts : List Attempt) (phone ip : String) (now : ℤ)

/-- The rows of the last day that `reserve_phone_code` looks at. -/
def sendRows : List Attempt :=
  attempts.filter fun attempt =>
    attempt.kind = .send && now - day < attempt.createdAt &&
      (attempt.phone = phone || attempt.ip = ip)

def sinceLast : Option ℤ :=
  (((sendRows attempts phone ip now).filter fun attempt => attempt.phone = phone).map
    Attempt.createdAt).max?.map fun last => now - last

/-- Whether `reserve_phone_code` goes on after its statistics. -/
def admitsSend : Bool :=
  let rows := sendRows attempts phone ip now
  let phoneHour := rows.countP fun attempt =>
    attempt.phone = phone && now - hour < attempt.createdAt
  let phoneDay := rows.countP fun attempt => attempt.phone = phone
  let ipHour := rows.countP fun attempt => attempt.ip = ip && now - hour < attempt.createdAt
  let ipDay := rows.countP fun attempt => attempt.ip = ip
  !(sinceLast attempts phone ip now).any (fun since => since < limits.cooldown) &&
    phoneHour < limits.phoneHour && phoneDay < limits.phoneDay &&
    ipHour < limits.ipHour && ipDay < limits.ipDay

/-- Whether `consume_phone_code` goes on after its statistics. -/
def admitsVerify : Bool :=
  let rows := attempts.filter fun attempt =>
    attempt.kind = .verify && now - hour < attempt.createdAt &&
      (attempt.phone = phone || attempt.ip = ip)
  let phoneCount := rows.countP fun attempt =>
    attempt.phone = phone && now - 15 * minute < attempt.createdAt
  let ipCount := rows.countP fun attempt => attempt.ip = ip
  phoneCount < limits.verifyPerPhone && ipCount < limits.verifyPerIp

end Counts

def CodeRow.comparable (limits : Limits) (now : ℤ) (row : CodeRow) : Bool :=
  row.active && now < row.expiresAt && row.consumedAt.isNone && row.attempts < limits.maxAttempts

inductive Step where
  | beginReserve (reserve : Reserve)
  | beginConsume (consume : Consume)
  /-- Both advisory locks are taken and the statistics are read. -/
  | count (place : ℕ)
  | sweep (place : ℕ)
  | select (place : ℕ)
  | commit (place : ℕ)
  | abandon (place : ℕ)
  | activate (challengeId : String) (now : ℤ)
  | invalidate (challengeId : String)

namespace Store

def anotherOne (store : Store) (place : ℕ) (property : Transaction → Bool) : Bool :=
  (store.transactions.eraseIdx place).any property

def setTransaction (store : Store) (place : ℕ) (transaction : Transaction) : Store :=
  { store with transactions := store.transactions.set place transaction }

def isLocked (store : Store) (place : ℕ) (key : CodeKey) : Bool :=
  store.anotherOne place fun other => key ∈ other.rowLocks

def count (limits : Limits) (store : Store) (place : ℕ) : Option Store :=
  match store.transactions[place]? with
  | some (.reserving reserve) =>
    if store.anotherOne place (fun other => other.holds .send reserve.key.phone reserve.ip) then
      none
    else if admitsSend limits store.attempts reserve.key.phone reserve.ip reserve.now then
      some (store.setTransaction place (.reserveAdmitted reserve))
    else some (store.setTransaction place .ended)
  | some (.consuming consume) =>
    if store.anotherOne place (fun other => other.holds .verify consume.key.phone consume.ip) then
      none
    else if admitsVerify limits store.attempts consume.key.phone consume.ip consume.now then
      some (store.setTransaction place (.consumeAdmitted consume))
    else some (store.setTransaction place .ended)
  | _ => none

/-- The two `DELETE` statements of `reserve_phone_code`. -/
def sweep (store : Store) (place : ℕ) : Option Store :=
  match store.transactions[place]? with
  | some (.reserveAdmitted reserve) =>
    let codes := store.codes.keysWhere fun row => row.expiresAt < reserve.now - day
    if codes.any (store.isLocked place) then none
    else
      some (store.setTransaction place (.reserveSwept reserve ((store.attempts.filter fun attempt =>
          attempt.createdAt < reserve.now - 2 * day).map Attempt.id) codes))
  | _ => none

/-- `SELECT ... FOR UPDATE`; a row that is not there is not locked. -/
def select (store : Store) (place : ℕ) : Option Store :=
  match store.transactions[place]? with
  | some (.consumeAdmitted consume) =>
    if (store.codes.find consume.key).isSome && store.isLocked place consume.key then none
    else
      some (store.setTransaction place (.consumeSelected consume (store.codes.find consume.key)))
  | _ => none

def newAttempt (store : Store) (phone ip : String) (kind : Kind) (now : ℤ) : Attempt :=
  ⟨store.nextId, phone, ip, kind, now⟩

/-- The two inserts of `reserve_phone_code`, and what it deleted, are committed. -/
def commitReserve (limits : Limits) (store : Store) (place : ℕ) (reserve : Reserve)
    (attempts : List ℕ) (codes : List CodeKey) : Store :=
  let attempt := store.newAttempt reserve.key.phone reserve.ip .send reserve.now
  { store.setTransaction place .ended with
    attempts := (store.attempts.filter fun old => old.id ∉ attempts) ++ [attempt]
    nextId := store.nextId + 1
    codes := (store.codes.eraseAll codes).insert reserve.key
      { challengeId := reserve.challengeId
        codeHash := reserve.codeHash
        expiresAt := reserve.now + limits.expire }
    history := store.history ++ [.swept reserve.now, .admitted attempt,
        .reserved reserve.key reserve.challengeId reserve.codeHash (reserve.now + limits.expire)] }

/-- The attempt of `consume_phone_code` is committed, and the comparison where there was
one. -/
def commitConsume (limits : Limits) (store : Store) (place : ℕ) (consume : Consume)
    (row : Option CodeRow) : Store :=
  let attempt := store.newAttempt consume.key.phone consume.ip .verify consume.now
  let counted := { store.setTransaction place .ended with
    attempts := store.attempts ++ [attempt]
    nextId := store.nextId + 1
    history := store.history ++ [.admitted attempt] }
  match row with
  | some row =>
    if row.comparable limits consume.now then
      { counted with
        codes := store.codes.insert consume.key
          { row with
            attempts := row.attempts + 1
            consumedAt :=
              if row.codeHash = consume.codeHash then some consume.now else row.consumedAt }
        history := counted.history ++
          [.compared consume.key row.challengeId consume.now consume.codeHash
            (row.codeHash = consume.codeHash)] }
    else counted
  | none => counted

def commit (limits : Limits) (store : Store) (place : ℕ) : Option Store :=
  match store.transactions[place]? with
  | some (.reserveSwept reserve attempts codes) =>
    if store.isLocked place reserve.key then none
    else some (store.commitReserve limits place reserve attempts codes)
  | some (.consumeSelected consume row) => some (store.commitConsume limits place consume row)
  | _ => none

def challengeFree (store : Store) (challengeId : String) : Bool :=
  store.transactions.all fun transaction => transaction.rowLocks.all fun key =>
    !(store.codes.find key).any fun row => row.challengeId = challengeId

def activatePhoneCode (store : Store) (challengeId : String) (now : ℤ) : Option Store :=
  let matching (row : CodeRow) : Bool :=
    row.challengeId = challengeId && now < row.expiresAt && row.consumedAt.isNone
  if !store.challengeFree challengeId then none
  else if (store.codes.keysWhere matching).isEmpty then some store
  else
    some { store with
      codes := store.codes.updateWhere matching fun row => { row with active := true }
      history := store.history ++ [.activated challengeId] }

def invalidatePhoneCode (store : Store) (challengeId : String) : Option Store :=
  if !store.challengeFree challengeId then none
  else
    some { store with
      codes := store.codes.eraseAll
        (store.codes.keysWhere fun row => row.challengeId = challengeId) }

def isFresh (store : Store) (challengeId : String) : Bool :=
  store.transactions.all (fun transaction => transaction.challenge ≠ some challengeId) &&
    store.history.all fun entry => entry.challenge? ≠ some challengeId

def step (limits : Limits) (store : Store) : Step → Option Store
  | .beginReserve reserve =>
    if store.isFresh reserve.challengeId then
      some { store with transactions := store.transactions ++ [.reserving reserve] }
    else none
  | .beginConsume consume =>
    some { store with transactions := store.transactions ++ [.consuming consume] }
  | .count place => store.count limits place
  | .sweep place => store.sweep place
  | .select place => store.select place
  | .commit place => store.commit limits place
  | .abandon place =>
    if place < store.transactions.length then some (store.setTransaction place .ended) else none
  | .activate challengeId now => store.activatePhoneCode challengeId now
  | .invalidate challengeId => store.invalidatePhoneCode challengeId

def machine (limits : Limits) : Machine Store Step where
  step := step limits

inductive Stepped (limits : Limits) (store : Store) : Step → Store → Prop where
  | beginReserve (reserve : Reserve) (fresh : store.isFresh reserve.challengeId = true) :
      Stepped limits store (.beginReserve reserve)
        { store with transactions := store.transactions ++ [.reserving reserve] }
  | beginConsume (consume : Consume) :
      Stepped limits store (.beginConsume consume)
        { store with transactions := store.transactions ++ [.consuming consume] }
  | admitReserve (place : ℕ) (reserve : Reserve)
      (found : store.transactions[place]? = some (.reserving reserve))
      (free : store.anotherOne place
        (fun other => other.holds .send reserve.key.phone reserve.ip) = false)
      (admits : admitsSend limits store.attempts reserve.key.phone reserve.ip reserve.now = true) :
      Stepped limits store (.count place) (store.setTransaction place (.reserveAdmitted reserve))
  | admitConsume (place : ℕ) (consume : Consume)
      (found : store.transactions[place]? = some (.consuming consume))
      (free : store.anotherOne place
        (fun other => other.holds .verify consume.key.phone consume.ip) = false)
      (admits : admitsVerify limits store.attempts consume.key.phone consume.ip consume.now =
        true) :
      Stepped limits store (.count place) (store.setTransaction place (.consumeAdmitted consume))
  | sweep (place : ℕ) (reserve : Reserve)
      (found : store.transactions[place]? = some (.reserveAdmitted reserve))
      (free : ((store.codes.keysWhere fun row => row.expiresAt < reserve.now - day).any
        (store.isLocked place)) = false) :
      Stepped limits store (.sweep place) (store.setTransaction place (.reserveSwept reserve
          ((store.attempts.filter fun attempt =>
            attempt.createdAt < reserve.now - 2 * day).map Attempt.id)
          (store.codes.keysWhere fun row => row.expiresAt < reserve.now - day)))
  | select (place : ℕ) (consume : Consume)
      (found : store.transactions[place]? = some (.consumeAdmitted consume))
      (free : ((store.codes.find consume.key).isSome && store.isLocked place consume.key) = false) :
      Stepped limits store (.select place)
        (store.setTransaction place (.consumeSelected consume (store.codes.find consume.key)))
  | commitReserve (place : ℕ) (reserve : Reserve) (attempts : List ℕ) (codes : List CodeKey)
      (found : store.transactions[place]? = some (.reserveSwept reserve attempts codes))
      (free : store.isLocked place reserve.key = false) :
      Stepped limits store (.commit place) (store.commitReserve limits place reserve attempts codes)
  | commitConsume (place : ℕ) (consume : Consume) (row : Option CodeRow)
      (found : store.transactions[place]? = some (.consumeSelected consume row)) :
      Stepped limits store (.commit place) (store.commitConsume limits place consume row)
  | ends (step : Step) (place : ℕ) (transaction : Transaction)
      (found : store.transactions[place]? = some transaction) :
      Stepped limits store step (store.setTransaction place .ended)
  | unchanged (step : Step) : Stepped limits store step store
  | activate (challengeId : String) (now : ℤ)
      (free : store.challengeFree challengeId = true)
      (some_ : (store.codes.keysWhere fun row =>
        row.challengeId = challengeId && now < row.expiresAt && row.consumedAt.isNone).isEmpty =
          false) :
      Stepped limits store (.activate challengeId now)
        { store with
          codes := store.codes.updateWhere
            (fun row => row.challengeId = challengeId && now < row.expiresAt &&
              row.consumedAt.isNone) fun row => { row with active := true }
          history := store.history ++ [.activated challengeId] }
  | invalidate (challengeId : String) (free : store.challengeFree challengeId = true) :
      Stepped limits store (.invalidate challengeId)
        { store with
          codes := store.codes.eraseAll
            (store.codes.keysWhere fun row => row.challengeId = challengeId) }

theorem stepped_of_step {limits : Limits} {store next : Store} {event : Step}
    (stepped : store.step limits event = some next) : Stepped limits store event next := by
  cases event with
  | beginReserve reserve =>
    simp only [step] at stepped
    split_ifs at stepped with fresh
    cases stepped
    exact .beginReserve reserve fresh
  | beginConsume consume =>
    cases stepped
    exact .beginConsume consume
  | count place =>
    simp only [step, count] at stepped
    split at stepped
    next reserve found =>
      split_ifs at stepped with taken admits <;> cases stepped
      · exact .admitReserve place reserve found (by simpa using taken) admits
      · exact .ends _ place _ found
    next consume found =>
      split_ifs at stepped with taken admits <;> cases stepped
      · exact .admitConsume place consume found (by simpa using taken) admits
      · exact .ends _ place _ found
    · cases stepped
  | sweep place =>
    simp only [step, sweep] at stepped
    split at stepped
    next reserve found =>
      split_ifs at stepped with taken
      cases stepped
      exact .sweep place reserve found (by simpa using taken)
    · cases stepped
  | select place =>
    simp only [step, select] at stepped
    split at stepped
    next consume found =>
      split_ifs at stepped with taken
      cases stepped
      exact .select place consume found (by simpa using taken)
    · cases stepped
  | commit place =>
    simp only [step, commit] at stepped
    split at stepped
    next reserve attempts codes found =>
      split_ifs at stepped with taken
      cases stepped
      exact .commitReserve place reserve attempts codes found (by simpa using taken)
    next consume row found =>
      cases stepped
      exact .commitConsume place consume row found
    · cases stepped
  | abandon place =>
    simp only [step] at stepped
    split_ifs at stepped with inside
    cases stepped
    exact .ends _ place _ (List.getElem?_eq_getElem inside)
  | activate challengeId now =>
    simp only [step, activatePhoneCode] at stepped
    split_ifs at stepped with taken nothing <;> cases stepped
    · exact .unchanged _
    · exact .activate challengeId now (by simpa using taken) (by simpa using nothing)
  | invalidate challengeId =>
    simp only [step, invalidatePhoneCode] at stepped
    split_ifs at stepped with taken
    cases stepped
    exact .invalidate challengeId (by simpa using taken)

theorem anotherOne_eq_false_iff {store : Store} {place : ℕ} {property : Transaction → Bool} :
    store.anotherOne place property = false ↔
      ∀ other transaction, store.transactions[other]? = some transaction → other ≠ place →
        property transaction = false :=
  any_eraseIdx_eq_false_iff

theorem setTransaction_cases {store : Store} {place other : ℕ} {moved before found : Transaction}
    (was : store.transactions[place]? = some before)
    (isFound : (store.setTransaction place moved).transactions[other]? = some found) :
    other = place ∧ found = moved ∨ other ≠ place ∧ store.transactions[other]? = some found :=
  getElem?_set_cases was isFound

end Store

end HybridInference.Phone
