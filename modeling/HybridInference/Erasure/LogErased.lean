import HybridInference.Erasure.Erased

/-!
# Erased accounts in the request log

What holds in every state that the writers and the deletes reach. A writer
waits for a lock that is greater than all it holds, so no two wait for each other.
-/

namespace HybridInference.Erasure

open Library

variable {digest : String → Digest}

inductive Moves (store next : FenceStore) : FenceEvent → Prop
  | beginWriter (row : LogRow) (stage : WriterStage)
      (writers : next.writers = store.writers ++ [⟨row, stage⟩])
      (deletes : next.deletes = store.deletes) (erased : next.erased = store.erased) :
      Moves store next (.beginWriter row)
  | beginDelete (account : String) (writers : next.writers = store.writers)
      (deletes : next.deletes = store.deletes ++ [⟨account, .waiting⟩])
      (erased : next.erased = store.erased) : Moves store next (.beginDelete account)
  | writer {event : FenceEvent} (place : ℕ) (row : LogRow) (stage later : WriterStage)
      (found : store.writers[place]? = some ⟨row, stage⟩)
      (writers : next.writers = store.writers.set place ⟨row, later⟩)
      (deletes : next.deletes = store.deletes) (erased : next.erased = store.erased) :
      Moves store next event
  | delete {event : FenceEvent} (place : ℕ) (account : String) (stage later : DeleteStage)
      (found : store.deletes[place]? = some ⟨account, stage⟩) (going : stage ≠ .committed)
      (writers : next.writers = store.writers)
      (deletes : next.deletes = store.deletes.set place ⟨account, later⟩)
      (erased : next.erased =
        if later = .committed then store.erased ++ [account] else store.erased) :
      Moves store next event

theorem moves_of_step {store next : FenceStore} {event : FenceEvent}
    (stepped : (FenceStore.machine digest).step store event = some next) :
    Moves store next event := by
  cases event with
  | beginWriter row =>
    cases stepped
    exact .beginWriter row _ rfl rfl rfl
  | beginDelete account =>
    cases stepped
    exact .beginDelete account rfl rfl rfl
  | lockShared place | beginInsert place | insert place | commitWriter place
  | rollbackWriter place =>
    simp only [FenceStore.machine, FenceStore.step] at stepped
    split at stepped <;> try split_ifs at stepped
    all_goals first
      | cases stepped; exact .writer _ _ _ _ (by assumption) rfl rfl rfl
      | cases stepped
  | lockExclusive place | establishFence place | beginPurge place | purge place
  | commitDelete place =>
    simp only [FenceStore.machine, FenceStore.step] at stepped
    split at stepped <;> try split_ifs at stepped
    all_goals first
      | cases stepped; exact .delete _ _ _ _ (by assumption) (by simp) rfl rfl rfl
      | cases stepped
  | rollbackDelete place =>
    simp only [FenceStore.machine, FenceStore.step] at stepped
    split at stepped <;> cases stepped
    next account stage going found => exact .delete _ _ _ _ found going rfl rfl rfl

def FenceEvent.accounts : FenceEvent → Set String
  | .beginWriter row => { account | row.Names account }
  | .beginDelete account => {account}
  | _ => ∅

/-- The transactions are about known accounts only, and the erased ones are those whose delete
has committed. -/
structure Recorded (accounts : Set String) (store : FenceStore) : Prop where
  named : ∀ writer ∈ store.writers, ∀ account, writer.row.Names account → account ∈ accounts
  deleted : ∀ delete ∈ store.deletes, delete.account ∈ accounts
  erased : ∀ account, account ∈ store.erased ↔ ⟨account, .committed⟩ ∈ store.deletes

/-- The erased accounts are those whose delete has committed. -/
theorem Recorded.step {accounts : Set String} {store next : FenceStore} {event : FenceEvent}
    (recorded : Recorded accounts store) (known : event.accounts ⊆ accounts)
    (moves : Moves store next event) : Recorded accounts next := by
  cases moves with
  | beginWriter row stage writers deletes erased =>
    refine ⟨?_, deletes ▸ recorded.deleted, ?_⟩
    · intro writer member account names
      rw [writers, List.mem_append, List.mem_singleton] at member
      rcases member with earlier | rfl
      · exact recorded.named writer earlier account names
      · exact known names
    · rw [deletes, erased]
      exact recorded.erased
  | beginDelete account writers deletes erased =>
    refine ⟨writers ▸ recorded.named, ?_, ?_⟩
    · intro delete member
      rw [deletes, List.mem_append, List.mem_singleton] at member
      rcases member with earlier | rfl
      · exact recorded.deleted delete earlier
      · exact known rfl
    · intro other
      rw [deletes, erased, recorded.erased]
      simp
  | writer place row stage later found writers deletes erased =>
    refine ⟨?_, deletes ▸ recorded.deleted, ?_⟩
    · intro writer member account names
      rw [writers] at member
      rcases List.mem_or_eq_of_mem_set member with earlier | rfl
      · exact recorded.named writer earlier account names
      · exact recorded.named _ (List.mem_of_getElem? found) account names
    · rw [deletes, erased]
      exact recorded.erased
  | delete place account stage later found going writers deletes erased =>
    refine ⟨writers ▸ recorded.named, ?_, ?_⟩
    · intro delete member
      rw [deletes] at member
      rcases List.mem_or_eq_of_mem_set member with earlier | rfl
      · exact recorded.deleted delete earlier
      · have known := recorded.deleted _ (List.mem_of_getElem? found)
        exact known
    · intro other
      have different : HardDelete.mk other .committed ≠ ⟨account, stage⟩ := by
        simp only [ne_eq, HardDelete.mk.injEq, not_and]
        exact fun _ same => going same.symm
      rw [deletes, erased, mem_set_iff_of_ne found different, ← recorded.erased]
      split_ifs with commits
      · simp [commits]
      · simp [Ne.symm commits]

theorem recorded_initial {accounts : Set String} {rows : List LogRow} :
    Recorded accounts { rows := rows } := by
  refine ⟨?_, ?_, ?_⟩ <;> simp

/-- A writer waits for another: for a lock it holds (unless the writer has it), behind a waiting
delete, or for a row with its id. -/
def Waits (digest : String → Digest) (store : FenceStore) (waiting other : Writer) : Prop :=
  other ∈ store.writers ∧ ((∃ held next wanted, waiting.stage = .locking held (next :: wanted) ∧
        waiting.holds digest (fenceAccountAdvisoryKey next) = false ∧
        other.holds digest (fenceAccountAdvisoryKey next) = true) ∨
      waiting.stage = .inserting false ∧ other.hasWritten waiting.row.requestId = true)

def fencePrefix (key : Digest) : ℕ := key.val / 2 ^ 192

theorem fencePrefix_lt (key : Digest) : fencePrefix key < 2 ^ 64 := by
  unfold fencePrefix
  omega

variable {key other : Digest}

theorem fencePrefix_mono (le : key ≤ other) : fencePrefix key ≤ fencePrefix other :=
  Nat.div_le_div_right le

theorem fencePrefix_eq_of_advisoryKey
    (same : fenceAccountAdvisoryKey key = fenceAccountAdvisoryKey other) :
    fencePrefix key = fencePrefix other := by
  have bits := BitVec.eq_of_toInt_eq same
  have values := congrArg BitVec.toNat bits
  simp only [BitVec.toNat_ofNat] at values
  have first := fencePrefix_lt key
  have second := fencePrefix_lt other
  unfold fencePrefix at first second ⊢
  rwa [Nat.mod_eq_of_lt first, Nat.mod_eq_of_lt second] at values

theorem advisoryKey_eq_of_fencePrefix (same : fencePrefix key = fencePrefix other) :
    fenceAccountAdvisoryKey key = fenceAccountAdvisoryKey other := by
  unfold fencePrefix at same
  rw [fenceAccountAdvisoryKey, same, fenceAccountAdvisoryKey]

def Writer.rank (digest : String → Digest) (writer : Writer) : ℕ :=
  match writer.stage with
  | .locking _ wanted =>
    ((wanted.find? fun key => !writer.holds digest (fenceAccountAdvisoryKey key)).map
      fencePrefix).getD (2 ^ 64)
  | .inserting _ => 2 ^ 64
  | _ => 2 ^ 64 + 1

variable {store : FenceStore}

theorem fencePrefix_lt_rank {writer : Writer}
    (fenced : Fenced digest store) (member : writer ∈ store.writers)
    (holds : writer.holds digest (fenceAccountAdvisoryKey key) = true) :
    fencePrefix key < writer.rank digest := by
  have bound := fencePrefix_lt key
  rcases stageIs : writer.stage with ⟨held, wanted⟩ | _ | _ | _ | _
  · simp only [Writer.rank, stageIs]
    rcases lacking : wanted.find? fun key => !writer.holds digest (fenceAccountAdvisoryKey key) with
      _ | later
    · simpa using bound
    · have isLater := List.mem_of_find?_eq_some lacking
      have lacks := List.find?_some lacking
      have known := holds
      simp only [Writer.holds, Writer.held, stageIs, List.any_eq_true, decide_eq_true_eq] at known
      rcases known with ⟨earlier, isHeld, same⟩
      have sorted : (held ++ wanted).Pairwise (· ≤ ·) := by
        rw [fenced.keys writer member held wanted stageIs]
        exact apiLogsFenceKeys_sorted
      have le := fencePrefix_mono
        ((List.pairwise_append.mp sorted).2.2 earlier isHeld later isLater)
      rw [fencePrefix_eq_of_advisoryKey same] at le
      apply lt_of_le_of_ne le
      intro equal
      rw [← advisoryKey_eq_of_fencePrefix equal, holds] at lacks
      cases lacks
  all_goals
    simp only [Writer.rank, stageIs]
    omega

theorem rank_lt_of_waits {waiting other : Writer}
    (fenced : Fenced digest store) (waits : Waits digest store waiting other) :
    waiting.rank digest < other.rank digest := by
  rcases waits with ⟨member, ⟨held, next, wanted, stage, lacks, holds⟩ | ⟨stage, written⟩⟩
  · have lower := fencePrefix_lt_rank fenced member holds
    simpa [Writer.rank, stage, lacks] using lower
  · simp only [Writer.hasWritten, Bool.and_eq_true, decide_eq_true_eq] at written
    simp [Writer.rank, stage, written.2]

theorem rank_lt_of_transGen {waiting other : Writer} (fenced : Fenced digest store)
    (waits : Relation.TransGen (Waits digest store) waiting other) :
    waiting.rank digest < other.rank digest := by
  induction waits with
  | single waits => exact rank_lt_of_waits fenced waits
  | tail _ waits ih => exact ih.trans (rank_lt_of_waits fenced waits)

def FenceEvent.advances : FenceEvent → Bool
  | .lockShared _ | .beginInsert _ | .insert _ | .commitWriter _ => true
  | _ => false

/-- With no delete in between some writer can go on. -/
theorem writers_advance {writer : Writer}
    (calm : ∀ delete ∈ store.deletes, delete.stage = .committed ∨ delete.stage = .rolledBack)
    (member : writer ∈ store.writers)
    (going : writer.stage ≠ .rolledBack ∧ ∀ fenced, writer.stage ≠ .committed fenced) :
    ∃ event : FenceEvent, event.advances = true ∧
      ((FenceStore.machine digest).step store event).isSome = true := by
  have finishes {row : LogRow} {told wrote : Bool}
      (member : ⟨row, .finished told wrote⟩ ∈ store.writers) :
      ∃ event : FenceEvent, event.advances = true ∧
        ((FenceStore.machine digest).step store event).isSome = true := by
    rcases List.mem_iff_getElem?.mp member with ⟨place, found⟩
    exact ⟨.commitWriter place, rfl, by simp [FenceStore.machine, FenceStore.step, found]⟩
  rcases writer with ⟨row, stage⟩
  rcases List.mem_iff_getElem?.mp member with ⟨place, found⟩
  cases stage with
  | locking held wanted =>
    cases wanted with
    | nil =>
      exact ⟨.beginInsert place, rfl, by
        simp [FenceStore.machine, FenceStore.step, found]⟩
    | cons next wanted =>
      have free : (store.deletes.any fun delete =>
          delete.holds digest (fenceAccountAdvisoryKey next)) = false := by
        rw [List.any_eq_false]
        intro delete isDelete
        rcases calm delete isDelete with stage | stage <;> simp [HardDelete.holds, stage]
      exact ⟨.lockShared place, rfl, by
        simp [FenceStore.machine, FenceStore.step, found, free]⟩
  | inserting hit =>
    cases hit with
    | true =>
      exact ⟨.insert place, rfl, by simp [FenceStore.machine, FenceStore.step, found]⟩
    | false =>
      rcases pending : store.isPending row.requestId with _ | _
      · exact ⟨.insert place, rfl, by
          simp [FenceStore.machine, FenceStore.step, found, pending]⟩
      · simp only [FenceStore.isPending, Bool.or_eq_true, List.any_eq_true] at pending
        rcases pending with ⟨⟨other, stage⟩, isOther, written⟩ | ⟨delete, isDelete, removed⟩
        · simp only [Writer.hasWritten, Bool.and_eq_true, decide_eq_true_eq] at written
          rw [written.2] at isOther
          exact finishes isOther
        · rcases calm delete isDelete with stage | stage <;>
            simp [HardDelete.removed, stage] at removed
  | finished told wrote => exact finishes member
  | committed told => exact absurd rfl (going.2 told)
  | rolledBack => exact absurd rfl going.1

/-- What the log keeps of erased accounts, and that its writers always go on. -/
structure LogErased (digest : String → Digest) (store : FenceStore) : Prop where
  rows : ∀ account, ⟨account, .committed⟩ ∈ store.deletes → ∀ row ∈ store.rows, ¬ row.Names account
  inserts : ∀ account, ⟨account, .committed⟩ ∈ store.deletes →
    ∀ writer ∈ store.writers, writer.stage = .finished false true → ¬ writer.row.Names account
  suppressed : ∀ writer ∈ store.writers,
    ((∃ wrote, writer.stage = .finished true wrote) ∨ writer.stage = .committed true) →
    ∃ account, writer.row.Names account ∧ ⟨account, .committed⟩ ∈ store.deletes ∧
      digest account ∈ store.tombstones
  acyclic : ∀ writer, ¬ Relation.TransGen (Waits digest store) writer writer
  advance : (∀ delete ∈ store.deletes, delete.stage = .committed ∨ delete.stage = .rolledBack) →
    ∀ writer ∈ store.writers,
      writer.stage ≠ .rolledBack → (∀ fenced, writer.stage ≠ .committed fenced) →
      ∃ event : FenceEvent, event.advances = true ∧
        ((FenceStore.machine digest).step store event).isSome = true

/-- In every run under digests that tell the accounts apart, the log keeps nothing of an erased
account and its writers go on. -/
theorem hard_deleted_stays_erased (digest : String → Digest) (accounts : Set String)
    (injective : Set.InjOn digest accounts) (rows : List LogRow) (events : List FenceEvent)
    (known : ∀ event ∈ events, event.accounts ⊆ accounts) (store : FenceStore)
    (ran : (FenceStore.machine digest).run { rows := rows } events = some store) :
    LogErased digest store := by
  have fenced : Fenced digest store :=
    Machine.run_invariant (fun _ _ _ fenced stepped => fenced.step stepped) fenced_initial ran
  have recorded : Recorded accounts store :=
    Machine.run_invariant_along (fun _ event => event.accounts ⊆ accounts)
      (fun _ _ _ recorded known stepped => recorded.step known (moves_of_step stepped))
      recorded_initial (Machine.along_of_forall_mem _ known) ran
  refine ⟨?_, ?_, ?_, ?_, ?_⟩
  · intro account committed row isRow
    exact fenced.clean row isRow account ((recorded.erased account).mpr committed)
  · intro account committed writer isWriter written
    exact fenced.passed writer isWriter (Or.inr ⟨true, written⟩) account
      ((recorded.erased account).mpr committed)
  · intro writer isWriter suppressed
    rcases fenced.suppressed writer isWriter (Or.inr suppressed) with
      ⟨account, isErased, named, names, same⟩
    have committed := (recorded.erased account).mp isErased
    have equal : account = named :=
      injective (recorded.deleted _ committed) (recorded.named writer isWriter named names) same
    exact ⟨account, equal ▸ names, committed, (fenced.tombstones _).mpr ⟨account, isErased, rfl⟩⟩
  · intro writer waits
    exact lt_irrefl _ (rank_lt_of_transGen fenced waits)
  · intro calm writer isWriter notRolledBack notCommitted
    exact writers_advance calm isWriter ⟨notRolledBack, notCommitted⟩

def twoDigests (account : String) : Digest :=
  if account = "alice" then ⟨2 ^ 200, by decide⟩ else ⟨2 ^ 201, by decide⟩

def lateWrite : List FenceEvent :=
  [.beginWriter ⟨"first", some "alice", none⟩, .lockShared 0, .beginInsert 0, .insert 0,
    .beginDelete "alice", .commitWriter 0, .lockExclusive 0,
    .beginWriter ⟨"second", some "bob", some "alice"⟩,
    .establishFence 0, .beginPurge 0, .purge 0, .commitDelete 0,
    .lockShared 1, .lockShared 1, .beginInsert 1, .insert 1, .commitWriter 1]

theorem late_write_is_suppressed :
    ∃ store, (FenceStore.machine twoDigests).run { rows := [] } lateWrite = some store ∧
      store.rows = [] ∧ store.writers.map Writer.stage = [.committed false, .committed true] ∧
      LogErased twoDigests store := by
  have ends : ((FenceStore.machine twoDigests).run { rows := [] } lateWrite).map
      (fun store => (store.rows, store.writers.map Writer.stage)) =
      some ([], [.committed false, .committed true]) := by
    decide +kernel
  rcases Option.map_eq_some_iff.mp ends with ⟨store, ran, values⟩
  simp only [Prod.mk.injEq] at values
  refine ⟨store, ran, values.1, values.2, ?_⟩
  apply hard_deleted_stays_erased twoDigests {"alice", "bob"} ?_ [] lateWrite ?_ store ran
  · rintro first (rfl | rfl) second (rfl | rfl) same
    · rfl
    · exact absurd same (by decide)
    · exact absurd same (by decide)
    · rfl
  · intro event member account isAccount
    simp only [lateWrite, List.mem_cons, List.not_mem_nil, or_false] at member
    rcases member with rfl | rfl | rfl | rfl | rfl | rfl | rfl | rfl | rfl | rfl | rfl | rfl | rfl |
      rfl | rfl | rfl | rfl <;>
      simp [FenceEvent.accounts, LogRow.Names, LogRow.mentions] at isAccount ⊢ <;> tauto

end HybridInference.Erasure
