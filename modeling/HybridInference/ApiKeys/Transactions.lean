import HybridInference.Library.ListUpdate
import HybridInference.Library.Machine
import HybridInference.Library.ReadCommitted
import Mathlib.Data.List.Sort
import Mathlib.Data.Rat.Floor

/-!
# The transactions that write API keys

`create_key`, `update_key`, `rotate_key`, `regenerate_key`, `revoke_key`,
`suspend_user`, `delete_user` and `apply_role_quota` of
`serving.storage.postgres_operational`, statement by statement at the isolation
level READ COMMITTED. A write to the keys of one account holds the lock of all
accounts in shared mode and the lock of the account; a write that spans accounts
holds the former in exclusive mode; `regenerate_key` takes neither.

A transaction may end at any moment without effect: a constraint or the range of a
column is violated, its connection is lost, or it is the victim of a deadlock.
-/

namespace HybridInference.ApiKeys

open Library

/-- A value as a column of type `DECIMAL(10, 4)` keeps it. -/
def decimal (value : ℚ) : ℚ :=
  if 0 ≤ value then ⌊value * 10000 + 1 / 2⌋ / 10000 else -⌊-value * 10000 + 1 / 2⌋ / 10000

structure Quota where
  daily : Option ℚ
  monthly : Option ℚ
  deriving DecidableEq

def Quota.stored (quota : Quota) : Quota :=
  ⟨quota.daily.map decimal, quota.monthly.map decimal⟩

/-- A row of `api_keys`. -/
structure ApiKey where
  id : ℕ
  keyHash : String
  keyPrefix : String
  userId : String
  accountId : Option String
  status : String
  quota : Quota
  createdAt : ℤ
  deriving DecidableEq

def ApiKey.isLive (key : ApiKey) : Bool := key.status ≠ "revoked"

def ApiKey.isActive (key : ApiKey) : Bool := key.status = "active"

structure User where
  role : String
  status : String
  deriving DecidableEq

structure Create where
  userId : String
  accountId : Option String := none
  keyHash : String
  keyPrefix : String
  quota : Quota
  inheritAccountQuota : Bool := false
  maxActiveKeys : Option ℕ := none
  now : ℤ
  deriving DecidableEq

/-- The columns of `update_key` that another statement reads; a column it leaves out is
unchanged. -/
structure KeyFields where
  daily : Option (Option ℚ) := none
  monthly : Option (Option ℚ) := none
  status : Option String := none
  accountId : Option (Option String) := none
  deriving DecidableEq

def KeyFields.quota (fields : KeyFields) (quota : Quota) : Quota :=
  ⟨(fields.daily.map (Option.map decimal)).getD quota.daily,
    (fields.monthly.map (Option.map decimal)).getD quota.monthly⟩

inductive Request where
  | createKey (create : Create)
  | updateKey (userId : String) (fields : KeyFields)
  | rotateKey (accountId : String) (keyPrefix : Option String) (newHash newPrefix : String)
  | regenerateKey (userId newHash newPrefix : String)
  | revokeKey (userId : String) (hardDelete : Bool)
  | suspendUser (userId : String)
  | deleteUser (userId : String) (selfService : Bool)
  | applyRoleQuota (role : String) (quota : ℚ)
  deriving DecidableEq

inductive Lock where
  | account (accountId : String)
  | allAccounts
  deriving DecidableEq

def Lock.conflicts : Lock → Lock → Bool
  | .account first, .account second => first = second
  | _, _ => true

/-- `_lock_account_keys` and `_lock_all_account_keys`. -/
def Request.lock : Request → Option Lock
  | .createKey create => some (.account create.userId)
  | .updateKey userId _ => some (.account userId)
  | .rotateKey accountId _ _ _ => some (.account accountId)
  | .regenerateKey _ _ _ => none
  | .revokeKey userId _ => some (.account userId)
  | .suspendUser userId => some (.account userId)
  | .deleteUser userId _ => some (.account userId)
  | .applyRoleQuota _ _ => some .allAccounts

inductive Stage where
  | waiting
  | locked
  /-- `create_key` found a free slot, or `delete_user` an account that may go. -/
  | checked
  | named (keyPrefix : String)
  | seeded (quota : Quota)
  | inserted (quota : Quota) (id : ℕ)
  | selecting (candidates : List ℕ)
  | chosen (id : ℕ)
  | visiting (update : RowUpdate ApiKey) (remaining : List ℕ)
  | ended

structure Transaction where
  request : Request
  stage : Stage := .waiting
  writes : Dict ℕ (Option ApiKey) := ∅

structure Store where
  keys : Dict ℕ ApiKey := ∅
  nextId : ℕ := 0
  users : Dict String User := ∅
  transactions : List Transaction := []

/-- The row that `create_key` inserts. -/
def Create.row (create : Create) (quota : Quota) (id : ℕ) : ApiKey where
  id := id
  keyHash := create.keyHash
  keyPrefix := create.keyPrefix
  userId := create.userId
  accountId := some (create.accountId.getD create.userId)
  status := "active"
  quota := quota.stored
  createdAt := create.now

def syncAccountQuota (userId : String) (quota : Quota) (exceptId : ℕ) : RowUpdate ApiKey where
  matching key := key.userId = userId && key.isLive && key.id ≠ exceptId &&
    (key.quota.daily ≠ quota.daily || key.quota.monthly ≠ quota.monthly)
  change key := some { key with quota := quota.stored }

def updateKey (userId : String) (fields : KeyFields) : RowUpdate ApiKey where
  matching key := key.userId = userId && key.isLive
  change key := some { key with
    quota := fields.quota key.quota
    status := fields.status.getD key.status
    accountId := fields.accountId.getD key.accountId }

def rotateKey (accountId keyPrefix newHash newPrefix : String) : RowUpdate ApiKey where
  matching key := key.accountId = some accountId && key.keyPrefix = keyPrefix && key.isActive
  change key := some { key with keyHash := newHash, keyPrefix := newPrefix }

def regenerateKey (id : ℕ) (newHash newPrefix : String) : RowUpdate ApiKey where
  matching key := key.id = id
  change key := some { key with keyHash := newHash, keyPrefix := newPrefix }

def revokeKey (userId : String) (hardDelete : Bool) : RowUpdate ApiKey where
  matching key := key.userId = userId
  change key := if hardDelete then none else some { key with status := "revoked" }

def deleteUser (userId : String) : RowUpdate ApiKey where
  matching key := (key.accountId = some userId || key.userId = userId) && key.isActive
  change key := some { key with status := "revoked" }

def applyRoleQuota (members : List String) (quota : ℚ) : RowUpdate ApiKey where
  matching key := key.isLive && members.contains key.userId
  change key := some { key with quota := { key.quota with daily := some (decimal quota) } }

inductive Event where
  | begin (request : Request)
  | lock (place : ℕ)
  /-- The next statement is begun, and ended unless it has rows to lock. -/
  | advance (place : ℕ)
  | visit (place : ℕ) (id : ℕ)
  | commit (place : ℕ)
  | abandon (place : ℕ)
  /-- Another function writes a row of `users`. -/
  | setUser (userId : String) (user : User)

def Transaction.held (transaction : Transaction) : Option Lock :=
  match transaction.stage with
  | .waiting | .ended => none
  | _ => transaction.request.lock

def Transaction.hasRow (transaction : Transaction) (id : ℕ) : Bool :=
  (transaction.writes.find id).isSome ||
    match transaction.stage with
    | .chosen chosen => chosen = id
    | _ => false

namespace Store

def set (store : Store) (place : ℕ) (transaction : Transaction) : Store :=
  { store with transactions := store.transactions.set place transaction }

def anotherOne (store : Store) (place : ℕ) (property : Transaction → Bool) : Bool :=
  (store.transactions.eraseIdx place).any property

def view (store : Store) (transaction : Transaction) : Dict ℕ ApiKey :=
  store.keys.overlay transaction.writes

def rowsWhere (keys : Dict ℕ ApiKey) (test : ApiKey → Bool) : List ApiKey :=
  (keys.keysWhere test).filterMap keys.find

def activeCount (keys : Dict ℕ ApiKey) (userId : String) : ℕ :=
  (keys.keysWhere fun key => key.userId = userId && key.isActive).length

/-- `ORDER BY created_at, id`. -/
def inOrder (keys : List ApiKey) : List ApiKey :=
  keys.insertionSort fun first second =>
    first.createdAt < second.createdAt ∨ first.createdAt = second.createdAt ∧ first.id ≤ second.id

def seed (keys : Dict ℕ ApiKey) (create : Create) : Quota :=
  if create.inheritAccountQuota then
    match (inOrder (rowsWhere keys fun key => key.userId = create.userId && key.isLive)).head? with
    | some current => current.quota
    | none => create.quota
  else create.quota

/-- The candidates of the `SELECT ... FOR UPDATE` of `regenerate_key`, newest first. -/
def candidates (keys : Dict ℕ ApiKey) (userId : String) : List ℕ :=
  ((inOrder (rowsWhere keys fun key => key.userId = userId && key.isActive)).map ApiKey.id).reverse

def members (store : Store) (role : String) : List String :=
  store.users.keysWhere fun user => user.role = role

def visiting (store : Store) (transaction : Transaction) (update : RowUpdate ApiKey) :
    Transaction :=
  { transaction with
    stage := .visiting update (update.targets store.keys transaction.writes) }

def advanced (store : Store) (transaction : Transaction) : Option (Transaction × ℕ) :=
  let become (stage : Stage) : Option (Transaction × ℕ) :=
    some ({ transaction with stage := stage }, store.nextId)
  let run (update : RowUpdate ApiKey) : Option (Transaction × ℕ) :=
    some (store.visiting transaction update, store.nextId)
  match transaction.stage, transaction.request with
  | .locked, .createKey create =>
    if create.maxActiveKeys.any
        (fun limit => limit ≤ activeCount (store.view transaction) create.userId) then
      become .ended
    else become .checked
  | .checked, .createKey create => become (.seeded (seed (store.view transaction) create))
  | .seeded quota, .createKey create =>
    some ({ transaction with
        stage := .inserted quota store.nextId
        writes := transaction.writes.insert store.nextId (some (create.row quota store.nextId)) },
      store.nextId + 1)
  | .inserted quota id, .createKey create => run (syncAccountQuota create.userId quota id)
  | .locked, .updateKey userId fields => run (updateKey userId fields)
  | .locked, .rotateKey accountId (some keyPrefix) newHash newPrefix =>
    run (rotateKey accountId keyPrefix newHash newPrefix)
  | .locked, .rotateKey accountId none _ _ =>
    match rowsWhere (store.view transaction)
        (fun key => key.accountId = some accountId && key.isActive) with
    | [key] => become (.named key.keyPrefix)
    | _ => become .ended
  | .named keyPrefix, .rotateKey accountId _ newHash newPrefix =>
    run (rotateKey accountId keyPrefix newHash newPrefix)
  | .locked, .regenerateKey userId _ _ =>
    become (.selecting (candidates (store.view transaction) userId))
  | .chosen id, .regenerateKey _ newHash newPrefix =>
    some ({ transaction with
        stage := .visiting (regenerateKey id newHash newPrefix) []
        writes := (regenerateKey id newHash newPrefix).visit store.keys transaction.writes id },
      store.nextId)
  | .locked, .revokeKey userId hardDelete => run (revokeKey userId hardDelete)
  | .locked, .suspendUser userId => run (revokeKey userId false)
  | .locked, .deleteUser userId selfService =>
    if selfService && !(store.users.find userId).any
        (fun owner => owner.status = "active" && owner.role ≠ "admin") then
      become .ended
    else become .checked
  | .checked, .deleteUser userId _ => run (deleteUser userId)
  | .locked, .applyRoleQuota role quota => run (applyRoleQuota (store.members role) quota)
  | _, _ => none

/-- `FOR UPDATE` locks its candidates in order, and takes the first that still matches. -/
def selected (store : Store) (place : ℕ) (transaction : Transaction) : Option Transaction :=
  match transaction.stage, transaction.request with
  | .selecting (id :: rest), .regenerateKey userId _ _ =>
    if store.anotherOne place (fun other => other.hasRow id) then none
    else if (store.keys.find id).any (fun key => key.userId = userId && key.isActive) then
      some { transaction with stage := .chosen id }
    else some { transaction with stage := .selecting rest }
  | .selecting [], .regenerateKey _ _ _ => some { transaction with stage := .ended }
  | _, _ => none

def visited (store : Store) (place id : ℕ) (transaction : Transaction) : Option Transaction :=
  match transaction.stage with
  | .visiting update remaining =>
    if id ∈ remaining && !store.anotherOne place (fun other => other.hasRow id) then
      some { transaction with
        stage := .visiting update (remaining.erase id)
        writes := update.visit store.keys transaction.writes id }
    else none
  | _ => none

/-- What a transaction that commits has written to `users`. -/
def committedUsers (users : Dict String User) : Request → Dict String User
  | .suspendUser userId => users.modify (fun user => { user with status := "suspended" }) userId
  | .deleteUser userId _ => users.modify (fun user => { user with status := "deleted" }) userId
  | _ => users

def ended (transaction : Transaction) : Transaction :=
  { transaction with stage := .ended, writes := ∅ }

def step (store : Store) : Event → Option Store
  | .begin request =>
    some { store with transactions := store.transactions ++ [{ request }] }
  | .lock place =>
    match store.transactions[place]? with
    | some transaction =>
      match transaction.stage with
      | .waiting =>
        if store.anotherOne place (fun other =>
            (transaction.request.lock.any fun lock => other.held.any lock.conflicts)) then
          none
        else some (store.set place { transaction with stage := .locked })
      | _ => none
    | none => none
  | .advance place =>
    match store.transactions[place]? with
    | some transaction =>
      match store.advanced transaction with
      | some (next, nextId) => some { store.set place next with nextId }
      | none => (store.selected place transaction).map (store.set place)
    | none => none
  | .visit place id =>
    match store.transactions[place]? with
    | some transaction => (store.visited place id transaction).map (store.set place)
    | none => none
  | .commit place =>
    match store.transactions[place]? with
    | some transaction =>
      match transaction.stage with
      | .visiting _ [] =>
        some { store.set place (ended transaction) with
          keys := store.keys.overlay transaction.writes
          users := committedUsers store.users transaction.request }
      | _ => none
    | none => none
  | .abandon place =>
    match store.transactions[place]? with
    | some transaction => some (store.set place (ended transaction))
    | none => none
  | .setUser userId user => some { store with users := store.users.insert userId user }

def machine : Machine Store Event where
  step := step

end Store

end HybridInference.ApiKeys
