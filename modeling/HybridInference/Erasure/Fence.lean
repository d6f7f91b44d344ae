import HybridInference.Library.ListUpdate
import HybridInference.Library.Machine
import Mathlib.Algebra.Group.Nat.Defs
import Mathlib.Data.List.Dedup
import Mathlib.Data.List.Sort

/-!
# The erasure fence

The writers of `api_logs` and the transactions that hard-delete an account, statement by
statement: a statement reads what was committed when it began, and its locks are held to
the end of its transaction. The digest of an account is left open; it is a number of 256
bits, whose hexadecimal texts sort as the numbers do.
-/

namespace HybridInference.Erasure

open Library

abbrev Digest := Fin (2 ^ 256)

/-- `fence_account_advisory_key`: the first 64 bits, signed. -/
def fenceAccountAdvisoryKey (digest : Digest) : ℤ :=
  (BitVec.ofNat 64 (digest.val / 2 ^ 192)).toInt

/-- A row of `api_logs`, as far as it names accounts. -/
structure LogRow where
  requestId : String
  userId : Option String
  credentialOwnerId : Option String
  deriving DecidableEq

namespace LogRow

def mentions (row : LogRow) (account : String) : Bool :=
  row.userId = some account || row.credentialOwnerId = some account

def Names (row : LogRow) (account : String) : Prop :=
  account ≠ "" ∧ row.mentions account = true

end LogRow

def apiLogsFenceKeys (digest : String → Digest) (row : LogRow) : List Digest :=
  let user := row.userId.filter (· ≠ "")
  let owner := row.credentialOwnerId.filter fun owner => owner ≠ "" && some owner ≠ row.userId
  ((user.map digest).toList ++ (owner.map digest).toList).dedup.insertionSort (· ≤ ·)

inductive WriterStage where
  /-- The statement that takes the shared locks, in order. -/
  | locking (held wanted : List Digest)
  /-- The statement that checks and inserts has begun; `hit` is what it reads of the fence. -/
  | inserting (hit : Bool)
  /-- It has ended: the row was suppressed, written, or left out for one with its id. -/
  | finished (fenced wrote : Bool)
  | committed (fenced : Bool)
  | rolledBack
  deriving DecidableEq

structure Writer where
  row : LogRow
  stage : WriterStage

inductive DeleteStage where
  | waiting
  | locked
  | tombstoned
  /-- The purge has begun, with the rows it sees. -/
  | purging (seen : List LogRow)
  | purged (seen : List LogRow)
  | committed
  | rolledBack
  deriving DecidableEq

structure HardDelete where
  account : String
  stage : DeleteStage

structure FenceStore where
  rows : List LogRow := []
  tombstones : List Digest := []
  writers : List Writer := []
  deletes : List HardDelete := []
  erased : List String := []

inductive FenceEvent where
  | beginWriter (row : LogRow)
  | lockShared (place : ℕ)
  | beginInsert (place : ℕ)
  | insert (place : ℕ)
  | commitWriter (place : ℕ)
  | rollbackWriter (place : ℕ)
  | beginDelete (account : String)
  | lockExclusive (place : ℕ)
  | establishFence (place : ℕ)
  | beginPurge (place : ℕ)
  | purge (place : ℕ)
  | commitDelete (place : ℕ)
  | rollbackDelete (place : ℕ)

section Store

variable (digest : String → Digest)

def Writer.held (writer : Writer) : List Digest :=
  match writer.stage with
  | .locking held _ => held
  | .inserting _ | .finished _ _ => apiLogsFenceKeys digest writer.row
  | .committed _ | .rolledBack => []

def Writer.holds (writer : Writer) (key : ℤ) : Bool :=
  (writer.held digest).any fun other => fenceAccountAdvisoryKey other = key

def HardDelete.holds (delete : HardDelete) (key : ℤ) : Bool :=
  match delete.stage with
  | .locked | .tombstoned | .purging _ | .purged _ =>
    fenceAccountAdvisoryKey (digest delete.account) = key
  | .waiting | .committed | .rolledBack => false

def HardDelete.removed (delete : HardDelete) : List LogRow :=
  match delete.stage with
  | .purged seen => seen
  | _ => []

def Writer.hasWritten (writer : Writer) (requestId : String) : Bool :=
  writer.row.requestId = requestId && writer.stage = .finished false true

namespace FenceStore

def setWriter (store : FenceStore) (place : ℕ) (row : LogRow) (stage : WriterStage) : FenceStore :=
  { store with writers := store.writers.set place ⟨row, stage⟩ }

def setDelete (store : FenceStore) (place : ℕ) (account : String) (stage : DeleteStage) :
    FenceStore :=
  { store with deletes := store.deletes.set place ⟨account, stage⟩ }

def isPending (store : FenceStore) (requestId : String) : Bool :=
  store.writers.any (fun writer => writer.hasWritten requestId) ||
    store.deletes.any fun delete => delete.removed.any fun row => row.requestId = requestId

def step (store : FenceStore) : FenceEvent → Option FenceStore
  | .beginWriter row =>
    some { store with
      writers := store.writers ++ [⟨row, .locking [] (apiLogsFenceKeys digest row)⟩] }
  | .lockShared place =>
    match store.writers[place]? with
    | some ⟨row, .locking held (next :: wanted)⟩ =>
      if store.deletes.any fun delete => delete.holds digest (fenceAccountAdvisoryKey next) then
        none
      else some (store.setWriter place row (.locking (held ++ [next]) wanted))
    | _ => none
  | .beginInsert place =>
    match store.writers[place]? with
    | some ⟨row, .locking held []⟩ =>
      some (store.setWriter place row
        (.inserting (held.any fun key => store.tombstones.any fun tombstone => tombstone = key)))
    | _ => none
  | .insert place =>
    match store.writers[place]? with
    | some ⟨row, .inserting true⟩ => some (store.setWriter place row (.finished true false))
    | some ⟨row, .inserting false⟩ =>
      if store.isPending row.requestId then none
      else
        some (store.setWriter place row
          (.finished false (store.rows.all fun other => other.requestId ≠ row.requestId)))
    | _ => none
  | .commitWriter place =>
    match store.writers[place]? with
    | some ⟨row, .finished fenced wrote⟩ =>
      some { store.setWriter place row (.committed fenced) with
        rows := if wrote then store.rows ++ [row] else store.rows }
    | _ => none
  | .rollbackWriter place =>
    match store.writers[place]? with
    | some ⟨_, .committed _⟩ => none
    | some ⟨row, _⟩ => some (store.setWriter place row .rolledBack)
    | none => none
  | .beginDelete account =>
    some { store with deletes := store.deletes ++ [⟨account, .waiting⟩] }
  | .lockExclusive place =>
    match store.deletes[place]? with
    | some ⟨account, .waiting⟩ =>
      let key := fenceAccountAdvisoryKey (digest account)
      if store.writers.any (fun writer => writer.holds digest key) ||
          store.deletes.any fun delete => delete.holds digest key then none
      else some (store.setDelete place account .locked)
    | _ => none
  | .establishFence place =>
    match store.deletes[place]? with
    | some ⟨account, .locked⟩ => some (store.setDelete place account .tombstoned)
    | _ => none
  | .beginPurge place =>
    match store.deletes[place]? with
    | some ⟨account, .tombstoned⟩ =>
      some (store.setDelete place account
        (.purging (store.rows.filter fun row => row.mentions account)))
    | _ => none
  | .purge place =>
    match store.deletes[place]? with
    | some ⟨account, .purging seen⟩ => some (store.setDelete place account (.purged seen))
    | _ => none
  | .commitDelete place =>
    match store.deletes[place]? with
    | some ⟨account, .purged seen⟩ =>
      some { store.setDelete place account .committed with
        rows := store.rows.filter fun row => row ∉ seen
        tombstones :=
          if digest account ∈ store.tombstones then store.tombstones
          else store.tombstones ++ [digest account]
        erased := store.erased ++ [account] }
    | _ => none
  | .rollbackDelete place =>
    match store.deletes[place]? with
    | some ⟨_, .committed⟩ => none
    | some ⟨account, _⟩ => some (store.setDelete place account .rolledBack)
    | none => none

def machine : Machine FenceStore FenceEvent where
  step := step digest

end FenceStore

end Store

end HybridInference.Erasure
