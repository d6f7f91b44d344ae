import HybridInference.Batch.Transactions
import HybridInference.Library.ListUpdate
import HybridInference.Library.Tally

/-!
# The caps of a user

Creations and staged chunks of one user are serialized by its admission lock and
checked against two caps; nothing else checks them. An admission is two steps
here, the check under the lock and the commit, and every other transaction may
come between them.

A file batch that failed or expired while a request of it still runs is in no
status and no phase that `count_active_batches` counts, and it is counted again
once its last request reports and it is sealed.
-/

namespace HybridInference.Batch

open Library

def BatchStatus.active (status : BatchStatus) : Bool :=
  status = .validating || status = .inProgress || status = .cancelling

namespace Job

/-- The condition of `count_active_batches`. -/
def active (job : Job) : Bool :=
  !job.deleteRequested && (job.status.active || (job.phase = .validating || job.phase = .sealing))

/-- What a batch adds to the queued total of `_check_user_caps`. -/
def queued (job : Job) : ℕ :=
  if !job.deleteRequested && job.status.active &&
      (job.phase = .validating || job.phase = .runnable) then
    job.requestCount - job.completedCount - job.failedCount - job.cancelledCount
  else 0

def leftRunning (job : Job) : Bool :=
  !job.deleteRequested && job.apiSurface = .openaiFile && job.phase = .runnable &&
    (job.status = .failed || job.status = .expired)

def unsealed (job : Job) : Bool :=
  job.active || job.leftRunning

end Job

structure BatchRow where
  id : String
  user : String
  batch : StoredBatch

structure Creation where
  surface : Surface
  expiresAt : Option ℚ
  requests : Option (List StoredBatch.NewItem)

def Creation.requested (creation : Creation) : ℕ :=
  match creation.requests with
  | none => 0
  | some requests => (StoredBatch.admitted requests).length

def Creation.stored (creation : Creation) (now : ℚ) : StoredBatch :=
  match creation.requests with
  | none => .createForValidation creation.surface creation.expiresAt now
  | some requests => .create creation.surface creation.expiresAt requests now

inductive Admission where
  | create (creation : Creation)
  | stage (batchId worker : String) (modelIds : List String)

def Admission.batches : Admission → ℕ
  | .create _ => 1
  | .stage _ _ _ => 0

def Admission.requested : Admission → ℕ
  | .create creation => creation.requested
  | .stage _ _ modelIds => modelIds.length

structure BatchTable where
  rows : List BatchRow
  admissions : String → Option Admission

def BatchTable.empty : BatchTable :=
  { rows := [], admissions := fun _ => none }

def countActiveBatches (rows : List BatchRow) (user : String) : ℕ :=
  rows.countP fun row => row.user = user && row.batch.job.active

def countUnsealed (rows : List BatchRow) (user : String) : ℕ :=
  rows.countP fun row => row.user = user && row.batch.job.unsealed

/-- The queued total of `_check_user_caps`. -/
def queuedRequests (rows : List BatchRow) (user : String) : ℕ :=
  tally (fun row => if row.user = user then row.batch.job.queued else 0) rows

def checkUserCaps (rows : List BatchRow) (user : String) (maxActive maxQueued : Option ℕ)
    (requested : ℕ) : Bool :=
  maxActive.all (fun cap => countActiveBatches rows user < cap) &&
    maxQueued.all fun cap => queuedRequests rows user + requested ≤ cap

inductive TableEvent where
  | beginCreate (user : String) (creation : Creation)
  | commitCreate (user batchId : String) (now : ℚ)
  | beginStage (index : ℕ) (worker : String) (modelIds : List String)
  | commitStage (index : ℕ) (now : ℚ)
  | rollback (user : String)
  | transact (index : ℕ) (transaction : Transaction)
  | delete (index : ℕ)

namespace BatchTable

def release (table : BatchTable) (user : String) : BatchTable :=
  { table with admissions := Function.update table.admissions user none }

def admitIf (table : BatchTable) (passes : Bool) (user : String) (admission : Admission) :
    Option BatchTable :=
  match table.admissions user with
  | some _ => none
  | none =>
    if passes then
      some { table with admissions := Function.update table.admissions user (some admission) }
    else some table

def write (table : BatchTable) (index : ℕ) (row : BatchRow) (batch : StoredBatch) : BatchTable :=
  { table with rows := table.rows.set index { row with batch := batch } }

section Step

variable (maxActive maxQueued : ℕ)

def step (table : BatchTable) : TableEvent → Option BatchTable
  | .beginCreate user creation =>
    table.admitIf
      (checkUserCaps table.rows user (some maxActive) (some maxQueued) creation.requested)
      user (.create creation)
  | .commitCreate user batchId now =>
    match table.admissions user with
    | some (.create creation) =>
      if table.rows.any fun row => row.id = batchId then none
      else
        some (BatchTable.release
          { table with
            rows := table.rows ++
              [{ id := batchId, user := user, batch := creation.stored now }] } user)
    | some (.stage _ _ _) | none => none
  | .beginStage index worker modelIds =>
    table.rows[index]?.bind fun row =>
      let job := row.batch.job
      table.admitIf (decide (job.workOwner = some worker ∧ job.phase = .validating ∧
            job.status = .validating ∧ !job.deleteRequested) &&
          checkUserCaps table.rows row.user none (some maxQueued) modelIds.length)
        row.user (.stage row.id worker modelIds)
  | .commitStage index now =>
    table.rows[index]?.bind fun row =>
      match table.admissions row.user with
      | some (.stage batchId worker modelIds) =>
        if row.id = batchId then
          some ((table.write index row (row.batch.stageItems worker modelIds now)).release row.user)
        else none
      | some (.create _) | none => none
  | .rollback user => some (table.release user)
  | .transact index transaction =>
    table.rows[index]?.bind fun row =>
      match transaction with
      | .stageItems _ _ _ => none
      | transaction => some (table.write index row (row.batch.after transaction))
  | .delete index => some { table with rows := table.rows.eraseIdx index }

def machine : Machine BatchTable TableEvent where
  step := step maxActive maxQueued

end Step

end BatchTable

structure Job.Wanes (before after : Job) : Prop where
  unsealed : after.unsealed = true → before.unsealed = true
  queued : after.queued ≤ before.queued

theorem Job.queued_le (job : Job) : job.queued ≤
      job.requestCount - job.completedCount - job.failedCount - job.cancelledCount := by
  unfold Job.queued
  split
  · exact le_rfl
  · exact Nat.zero_le _

theorem Job.kept_of_unsealed {job : Job} (unsealed : job.unsealed = true) :
    job.deleteRequested = false := by
  simp only [Job.unsealed, Job.active, Job.leftRunning, Bool.or_eq_true, Bool.and_eq_true,
    Bool.not_eq_true'] at unsealed
  rcases unsealed with ⟨kept, -⟩ | ⟨⟨⟨kept, -⟩, -⟩, -⟩ <;> exact kept

namespace Job.Wanes

variable {first second third before after : Job}

theorem refl (job : Job) : job.Wanes job :=
  ⟨id, le_rfl⟩

theorem trans (earlier : first.Wanes second) (later : second.Wanes third) : first.Wanes third :=
  ⟨fun unsealed => earlier.unsealed (later.unsealed unsealed), later.queued.trans earlier.queued⟩

theorem of_counted (deleted : after.deleteRequested = before.deleteRequested)
    (surface : after.apiSurface = before.apiSurface) (phase : after.phase = before.phase)
    (status : after.status = before.status) (requests : after.requestCount ≤ before.requestCount)
    (completed : before.completedCount ≤ after.completedCount)
    (failed : before.failedCount ≤ after.failedCount)
    (cancelled : before.cancelledCount ≤ after.cancelledCount) : before.Wanes after := by
  refine ⟨?_, ?_⟩
  · simp only [Job.unsealed, Job.active, Job.leftRunning, deleted, surface, phase, status]
    exact id
  · simp only [Job.queued, deleted, phase, status]
    split_ifs
    · omega
    · exact le_rfl

theorem of_running (deleted : after.deleteRequested = before.deleteRequested)
    (running : before.status.active = true)
    (phase : before.phase = .validating ∨ before.phase = .runnable)
    (requests : after.requestCount = before.requestCount)
    (completed : after.completedCount = before.completedCount)
    (failed : after.failedCount = before.failedCount)
    (cancelled : after.cancelledCount = before.cancelledCount) : before.Wanes after := by
  refine ⟨?_, ?_⟩
  · intro unsealed
    have kept := deleted ▸ Job.kept_of_unsealed unsealed
    simp [Job.unsealed, Job.active, kept, running]
  · have placed : (before.phase = .validating || before.phase = .runnable) = true := by
      simpa using phase
    simp only [Job.queued, deleted, running, placed, requests, completed, failed, cancelled,
      Bool.and_true]
    cases before.deleteRequested with
    | true => simp
    | false =>
      simp only [Bool.not_false, Bool.true_and, if_true]
      split_ifs
      · exact le_rfl
      · exact Nat.zero_le _

theorem of_left (unsealed : after.unsealed = true → before.unsealed = true)
    (left : after.phase = .sealing ∨ after.phase = .sealed) : before.Wanes after := by
  refine ⟨unsealed, ?_⟩
  have nothing : after.queued = 0 := by
    rcases left with phase | phase <;> simp [Job.queued, phase]
  omega

end Job.Wanes

namespace StoredBatch

open Job

theorem passVerdict_wanes (batch : StoredBatch) (now : ℚ) (status : BatchStatus) :
    batch.job.Wanes (batch.passVerdict now status).job := by
  cases status with
  | validating | inProgress | completed | cancelled => exact .refl _
  | cancelling =>
    exact .of_counted rfl rfl rfl rfl le_rfl le_rfl le_rfl (Nat.le_add_right _ _)
  | failed | expired =>
    exact .of_counted rfl rfl rfl rfl le_rfl le_rfl (Nat.le_add_right _ _) le_rfl

theorem finalStatus_inactive {status final : BatchStatus}
    (decided : finalStatus status = some final) :
    final.active = false ∧ (status.active = true ∨ status = .failed ∨ status = .expired) := by
  cases status <;> simp_all [finalStatus] <;> subst decided <;> simp [BatchStatus.active]

variable {batch : StoredBatch}

theorem finalize_wanes {final : BatchStatus}
    (runnable : batch.job.phase = .runnable) (decided : finalStatus batch.job.status = some final) :
    batch.job.Wanes (batch.finalize final).job := by
  rcases finalStatus_inactive decided with ⟨inactive, running⟩
  unfold finalize
  rw [if_neg (by simp [runnable])]
  split_ifs with file
  · refine .of_left ?_ (Or.inl rfl)
    intro unsealed
    have kept : batch.job.deleteRequested = false := by
      simpa [Job.unsealed, active, leftRunning] using unsealed
    rcases running with running | running | running <;>
      simp [Job.unsealed, active, leftRunning, kept, running, file, runnable]
  · refine .of_left ?_ (Or.inr rfl)
    intro unsealed
    simp [Job.unsealed, active, leftRunning, inactive] at unsealed

theorem settle_wanes {status : BatchStatus} (now : ℚ)
    (current : batch.job.status = status) : batch.job.Wanes (batch.settle now status).job := by
  have passed := passVerdict_wanes batch now status
  have phaseKept : (batch.passVerdict now status).job.phase = batch.job.phase := by
    cases status <;> rfl
  have statusKept : (batch.passVerdict now status).job.status = batch.job.status := by
    cases status <;> rfl
  unfold settle
  by_cases runnable : batch.job.phase = .runnable
  · rw [if_neg (by simp [runnable])]
    cases decided : finalStatus status with
    | none => exact passed
    | some final =>
      dsimp only
      split_ifs
      · exact passed
      · exact passed
      · exact passed.trans
          (finalize_wanes (phaseKept.trans runnable) (by rw [statusKept, current, decided]))
  · rw [if_pos runnable]
    exact .refl _

theorem stop_wanes (now : ℚ) (status : BatchStatus)
    (stoppable : batch.job.stoppable = true) : batch.job.Wanes (batch.stop now status).job := by
  simp only [Job.stoppable, Bool.and_eq_true, Bool.or_eq_true, decide_eq_true_eq] at stoppable
  rcases stoppable with ⟨running, phase⟩
  have active : batch.job.status.active = true := by
    rcases running with status | status <;> simp [BatchStatus.active, status]
  have moved : batch.job.Wanes (batch.withStatus status).job :=
    .of_running rfl active phase rfl rfl rfl rfl
  exact moved.trans (settle_wanes now rfl)

theorem publishValidated_wanes (batch : StoredBatch) (worker : String) (now : ℚ) :
    batch.job.Wanes (batch.publishValidated worker now).job := by
  unfold publishValidated
  by_cases owned : batch.job.workOwner = some worker ∧ batch.job.phase = .validating ∧
      batch.job.status = .validating ∧ !batch.job.deleteRequested
  · rw [if_pos owned]
    rcases owned with ⟨-, phase, status, -⟩
    have active : batch.job.status.active = true := by simp [BatchStatus.active, status]
    have moved : batch.job.Wanes batch.published.job :=
      .of_running rfl active (Or.inl phase) rfl rfl rfl rfl
    split_ifs
    · exact moved
    · exact moved.trans (settle_wanes now rfl)
  · rw [if_neg owned]
    exact .refl _

theorem failValidation_wanes (batch : StoredBatch) (worker : Option String) :
    batch.job.Wanes (batch.failValidation worker).job := by
  unfold failValidation
  split_ifs with owned
  · rw [finalize, if_neg (by simp [emptied])]
    have validating : batch.job.deleteRequested = false → batch.job.unsealed = true := by
      intro kept
      simp [Job.unsealed, active, kept, owned.1]
    split_ifs
    · refine .of_left ?_ (Or.inl rfl)
      intro unsealed
      have kept := kept_of_unsealed unsealed
      exact validating kept
    · refine .of_left ?_ (Or.inr rfl)
      intro unsealed
      have kept := kept_of_unsealed unsealed
      exact validating kept
  · exact .refl _

theorem guardedItemWrite_job {batch written : StoredBatch} {id : ℕ} {worker : String} {attempt : ℕ}
    {rewrite : Item → Item}
    (guarded : batch.guardedItemWrite id worker attempt rewrite = some written) :
    written.job = batch.job := by
  unfold guardedItemWrite at guarded
  split at guarded
  · cases guarded
  · split_ifs at guarded
    cases guarded
    rfl

section

variable (batch : StoredBatch)

theorem completeItem_wanes (id : ℕ) (worker : String) (attempt : ℕ)
    (report : Report) (now : ℚ) :
    batch.job.Wanes (batch.completeItem id worker attempt report now).job := by
  unfold completeItem
  split
  · exact .refl _
  · next written guarded =>
    have same := guardedItemWrite_job guarded
    have counted : batch.job.Wanes (written.recordReport id attempt report).job := by
      rw [← same]
      exact .of_counted rfl rfl rfl rfl le_rfl (Nat.le_add_right _ _) (Nat.le_add_right _ _) le_rfl
    exact counted.trans (settle_wanes now (by rw [← same]; rfl))

theorem retryItem_wanes (id : ℕ) (worker : String) (attempt : ℕ)
    (report : Report) (nextAttemptAt now : ℚ) :
    batch.job.Wanes (batch.retryItem id worker attempt report nextAttemptAt now).job := by
  unfold retryItem
  split
  · exact .refl _
  · next written guarded =>
    have same := guardedItemWrite_job guarded
    refine Job.Wanes.trans ?_ (settle_wanes now (by rw [← same]; rfl))
    rw [← same]
    exact .of_counted rfl rfl rfl rfl le_rfl le_rfl le_rfl le_rfl

theorem releaseItem_wanes (id : ℕ) (worker : String) (attempt : ℕ)
    (nextAttemptAt : Option ℚ) (dispatched : Bool) (now : ℚ) :
    batch.job.Wanes (batch.releaseItem id worker attempt nextAttemptAt dispatched now).job := by
  unfold releaseItem
  split
  · exact .refl _
  · next written guarded =>
    have same := guardedItemWrite_job guarded
    refine Job.Wanes.trans ?_ (settle_wanes now (by rw [← same]; rfl))
    rw [← same]
    exact .of_counted rfl rfl rfl rfl le_rfl le_rfl le_rfl le_rfl

theorem claimItems_wanes (worker model : String) (ids : List ℕ)
    (now leaseSeconds : ℚ) :
    batch.job.Wanes (batch.claimItems worker model ids now leaseSeconds).job := by
  unfold claimItems
  by_cases claimable : batch.job.claimable now = true
  · rw [if_pos claimable]
    simp only [Job.claimable, Bool.and_eq_true, Bool.or_eq_true, decide_eq_true_eq] at claimable
    rcases claimable with ⟨⟨⟨⟨phase, running⟩, -⟩, -⟩, -⟩
    have active : batch.job.status.active = true := by
      rcases running with status | status <;> simp [BatchStatus.active, status]
    dsimp only
    split_ifs
    · exact .of_running rfl active (Or.inr phase) rfl rfl rfl rfl
    · exact .of_running rfl active (Or.inr phase) rfl rfl rfl rfl
  · rw [if_neg claimable]
    exact .refl _

theorem after_wanes {transaction : Transaction}
    (staged : ∀ worker modelIds now, transaction ≠ .stageItems worker modelIds now) :
    batch.job.Wanes (batch.after transaction).job := by
  cases transaction with
  | stageItems worker modelIds now => exact absurd rfl (staged worker modelIds now)
  | resetStagedItems worker =>
    simp only [after, resetStagedItems]
    split_ifs
    · exact .of_counted rfl rfl rfl rfl (Nat.zero_le _) le_rfl le_rfl le_rfl
    · exact .refl _
  | publishValidated worker now => exact publishValidated_wanes batch worker now
  | failValidation worker => exact failValidation_wanes batch worker
  | claimBatchWork phase worker now leaseSeconds =>
    simp only [after, claimBatchWork]
    split_ifs <;> exact .of_counted rfl rfl rfl rfl le_rfl le_rfl le_rfl le_rfl
  | extendBatchWork phase worker now leaseSeconds =>
    simp only [after, extendBatchWork]
    split_ifs <;> exact .of_counted rfl rfl rfl rfl le_rfl le_rfl le_rfl le_rfl
  | claimItems worker model ids now leaseSeconds =>
    exact claimItems_wanes batch worker model ids now leaseSeconds
  | heartbeat worker ids now leaseSeconds => exact .refl _
  | markDispatched id worker attempt =>
    simp only [after, markDispatched]
    split_ifs <;> exact .refl _
  | completeItem id worker attempt report now =>
    exact completeItem_wanes batch id worker attempt report now
  | retryItem id worker attempt report nextAttemptAt now =>
    exact retryItem_wanes batch id worker attempt report nextAttemptAt now
  | releaseItem id worker attempt nextAttemptAt dispatched now =>
    exact releaseItem_wanes batch id worker attempt nextAttemptAt dispatched now
  | cancelBatch now =>
    simp only [after, cancelBatch, Bool.and_eq_true]
    split_ifs with stoppable
    · exact stop_wanes now .cancelling stoppable.2
    · exact .refl _
  | failBatch now =>
    simp only [after, failBatch]
    split_ifs with stoppable
    · exact stop_wanes now .failed stoppable
    · exact .refl _
  | sweepExpired now =>
    simp only [after, sweepExpired, Bool.and_eq_true]
    split_ifs with stoppable
    · exact stop_wanes now .expired stoppable.1
    · exact .refl _
  | sweepSettled now => exact settle_wanes now rfl
  | commitSeal worker generation =>
    simp only [after, commitSeal]
    split_ifs with sealing
    · refine .of_left ?_ (Or.inr rfl)
      intro unsealed
      have kept := kept_of_unsealed unsealed
      have was : batch.job.deleteRequested = false := kept
      simp [Job.unsealed, active, was, sealing.1]
    · exact .refl _
  | pause resumeAt =>
    simp only [after, pause]
    split_ifs <;> exact .of_counted rfl rfl rfl rfl le_rfl le_rfl le_rfl le_rfl
  | requestDelete now =>
    simp only [after, requestDelete]
    split_ifs
    · exact .refl _
    · exact ⟨fun unsealed => absurd (kept_of_unsealed unsealed) (by simp), by simp [Job.queued]⟩

theorem stageItems_adds (worker : String) (modelIds : List String) (now : ℚ) :
    ((batch.stageItems worker modelIds now).job.unsealed = true → batch.job.unsealed = true) ∧
      (batch.stageItems worker modelIds now).job.queued ≤ batch.job.queued + modelIds.length := by
  unfold stageItems
  split_ifs with owned
  · refine ⟨id, ?_⟩
    simp only [Job.queued]
    split_ifs
    · omega
    · exact Nat.zero_le _
  · exact ⟨id, Nat.le_add_right _ _⟩

end

end StoredBatch

theorem Creation.queued_stored (creation : Creation) (now : ℚ) :
    (creation.stored now).job.queued ≤ creation.requested := by
  have inserted (surface : Surface) (phase : Phase) (status : BatchStatus)
      (requests : List StoredBatch.NewItem) :
      (StoredBatch.inserted surface phase status creation.expiresAt requests).job.queued ≤
        (StoredBatch.admitted requests).length := by
    have all : (StoredBatch.admitted requests).length + (StoredBatch.refused requests).length =
        requests.length := by
      rw [requests.length_eq_length_filter_add fun request => request.error.isNone]
      simp [StoredBatch.admitted, StoredBatch.refused]
    have queued := (StoredBatch.inserted surface phase status creation.expiresAt
      requests).job.queued_le
    simp only [StoredBatch.inserted] at queued ⊢
    omega
  unfold stored requested
  cases creation.requests with
  | none => exact inserted creation.surface .validating .validating []
  | some requests =>
    simp only [StoredBatch.create, StoredBatch.insertBatch]
    split_ifs
    · exact (StoredBatch.settle_wanes now rfl).queued.trans (inserted _ _ _ _)
    · exact inserted _ _ _ _

section Rows

variable {rows : List BatchRow} {index : ℕ} {row : BatchRow} {batch : StoredBatch}

theorem countUnsealed_set (found : rows[index]? = some row)
    (wanes : batch.job.unsealed = true → row.batch.job.unsealed = true) (user : String) :
    countUnsealed (rows.set index { row with batch := batch }) user ≤ countUnsealed rows user := by
  have counted := countP_set_of_some
    (fun row : BatchRow => decide (row.user = user) && row.batch.job.unsealed)
    { row with batch := batch } found
  simp only [countUnsealed]
  cases unsealed : batch.job.unsealed with
  | false =>
    simp only [unsealed, Bool.and_false, Bool.false_eq_true, if_false] at counted
    omega
  | true =>
    simp only [unsealed, wanes unsealed] at counted
    omega

theorem queuedRequests_set (found : rows[index]? = some row) {added : ℕ}
    (grows : batch.job.queued ≤ row.batch.job.queued + added) (user : String) :
    queuedRequests (rows.set index { row with batch := batch }) user ≤
      queuedRequests rows user + if row.user = user then added else 0 := by
  have counted := tally_set (fun row : BatchRow => if row.user = user then row.batch.job.queued
    else 0) { row with batch := batch } found
  simp only [queuedRequests]
  dsimp only at counted
  split_ifs at counted ⊢ <;> omega

theorem queuedRequests_eraseIdx (rows : List BatchRow) (index : ℕ) (user : String) :
    queuedRequests (rows.eraseIdx index) user ≤ queuedRequests rows user := by
  apply List.Sublist.sum_le_sum
  · exact (List.eraseIdx_sublist rows index).map _
  · intro amount _
    exact Nat.zero_le amount

end Rows

namespace BatchTable

variable {maxActive maxQueued : ℕ} {table next : BatchTable}

def reservedBatches (table : BatchTable) (user : String) : ℕ :=
  (table.admissions user).elim 0 Admission.batches

def reservedRequests (table : BatchTable) (user : String) : ℕ :=
  (table.admissions user).elim 0 Admission.requested

def RequestsCapped (maxQueued : ℕ) (user : String) (table : BatchTable) : Prop :=
  queuedRequests table.rows user + table.reservedRequests user ≤ maxQueued

def BatchesCapped (maxActive : ℕ) (user : String) (table : BatchTable) : Prop :=
  countUnsealed table.rows user + table.reservedBatches user ≤ maxActive

def LeavesRoom (maxActive : ℕ) (table : BatchTable) : TableEvent → Prop
  | .beginCreate user _ =>
    countActiveBatches table.rows user < maxActive → countUnsealed table.rows user < maxActive
  | _ => True

instance (table : BatchTable) (event : TableEvent) :
    Decidable (LeavesRoom maxActive table event) :=
  match event with
  | .beginCreate user _ =>
    inferInstanceAs (Decidable (countActiveBatches table.rows user < maxActive →
      countUnsealed table.rows user < maxActive))
  | .commitCreate _ _ _ | .beginStage _ _ _ | .commitStage _ _ | .rollback _ | .transact _ _
  | .delete _ => isTrue trivial

theorem release_reserved (table : BatchTable) (user other : String) :
    (table.release user).reservedBatches other =
        (if other = user then 0 else table.reservedBatches other) ∧
      (table.release user).reservedRequests other =
        if other = user then 0 else table.reservedRequests other := by
  simp only [release, reservedBatches, reservedRequests]
  by_cases same : other = user
  · subst same
    simp
  · simp [same]

variable {admission : Admission}

theorem admitIf_cases {passes : Bool} {user : String}
    (stepped : table.admitIf passes user admission = some next) :
    next = table ∨ passes = true ∧ next.rows = table.rows ∧ (∀ other, next.reservedBatches other =
        if other = user then admission.batches else table.reservedBatches other) ∧
      ∀ other, next.reservedRequests other =
        if other = user then admission.requested else table.reservedRequests other := by
  unfold admitIf at stepped
  split at stepped
  · cases stepped
  · split_ifs at stepped with passed <;> cases stepped
    · refine Or.inr ⟨passed, rfl, ?_, ?_⟩
      · intro other
        simp only [reservedBatches, Function.update_apply]
        split_ifs <;> rfl
      · intro other
        simp only [reservedRequests, Function.update_apply]
        split_ifs <;> rfl
    · exact Or.inl rfl

/-- What one event does to what the caps count of a user: only checks of a creation raise it,
requests only where there is room. -/
structure Counts (maxActive maxQueued : ℕ) (table next : BatchTable) (event : TableEvent)
    (user : String) : Prop where
  batches : countUnsealed next.rows user + next.reservedBatches user ≤
      countUnsealed table.rows user + table.reservedBatches user ∨
    (∃ creation, event = .beginCreate user creation) ∧
      countActiveBatches table.rows user < maxActive ∧
      countUnsealed next.rows user + next.reservedBatches user = countUnsealed table.rows user + 1
  requests : queuedRequests next.rows user + next.reservedRequests user ≤
      queuedRequests table.rows user + table.reservedRequests user ∨
    queuedRequests next.rows user + next.reservedRequests user ≤ maxQueued

theorem Counts.refl (table : BatchTable) (event : TableEvent) (user : String) :
    Counts maxActive maxQueued table table event user :=
  ⟨Or.inl le_rfl, Or.inl le_rfl⟩

variable {event : TableEvent}

theorem Counts.admitIf {passes : Bool} {admitted : String}
    (stepped : table.admitIf passes admitted admission = some next)
    (batches : passes = true → admission.batches = 0 ∨ admission.batches = 1 ∧
      (∃ creation, event = .beginCreate admitted creation) ∧
        countActiveBatches table.rows admitted < maxActive)
    (requests : passes = true →
      queuedRequests table.rows admitted + admission.requested ≤ maxQueued) (user : String) :
    Counts maxActive maxQueued table next event user := by
  rcases admitIf_cases stepped with rfl | ⟨passed, rows, reservedBatches, reservedRequests⟩
  · exact .refl _ _ _
  · by_cases same : user = admitted
    · subst same
      refine ⟨?_, Or.inr ?_⟩
      · rw [rows, reservedBatches, if_pos rfl]
        rcases batches passed with none | ⟨one, created, room⟩
        · exact Or.inl (by omega)
        · exact Or.inr ⟨created, room, by omega⟩
      · rw [rows, reservedRequests, if_pos rfl]
        exact requests passed
    · refine ⟨Or.inl ?_, Or.inl ?_⟩
      · rw [rows, reservedBatches, if_neg same]
      · rw [rows, reservedRequests, if_neg same]

theorem reserved_of_admission {user : String} (holds : table.admissions user = some admission) :
    table.reservedBatches user = admission.batches ∧
      table.reservedRequests user = admission.requested := by
  simp [reservedBatches, reservedRequests, holds]

theorem Counts.write {index : ℕ} {row : BatchRow} {batch : StoredBatch}
    (found : table.rows[index]? = some row)
    (wanes : batch.job.unsealed = true → row.batch.job.unsealed = true)
    (grows : batch.job.queued ≤ row.batch.job.queued + table.reservedRequests row.user)
    (user : String) :
    Counts maxActive maxQueued table ((table.write index row batch).release row.user) event
      user := by
  rcases release_reserved (table.write index row batch) row.user user with ⟨batches, requests⟩
  have unsealed := countUnsealed_set found wanes user
  have queued := queuedRequests_set found grows user
  refine ⟨Or.inl ?_, Or.inl ?_⟩
  · rw [batches]
    simp only [release, BatchTable.write, reservedBatches]
    split_ifs <;> omega
  · rw [requests]
    by_cases same : user = row.user
    · subst same
      rw [if_pos rfl] at queued
      simp only [release, BatchTable.write, if_true]
      omega
    · rw [if_neg (Ne.symm same)] at queued
      simp only [release, BatchTable.write, reservedRequests, if_neg same]
      omega

/-- A step changes a user's counts by what it creates or ends. -/
theorem step_counts
    (stepped : (machine maxActive maxQueued).step table event = some next) (user : String) :
    Counts maxActive maxQueued table next event user := by
  cases event with
  | beginCreate creator creation =>
    refine Counts.admitIf stepped ?_ ?_ user
    · intro passed
      simp only [checkUserCaps, Option.all_some, Bool.and_eq_true, decide_eq_true_eq] at passed
      exact Or.inr ⟨rfl, ⟨creation, rfl⟩, passed.1⟩
    · intro passed
      simp only [checkUserCaps, Option.all_some, Bool.and_eq_true, decide_eq_true_eq] at passed
      exact passed.2
  | commitCreate creator batchId now =>
    simp only [machine, step] at stepped
    split at stepped
    · next creation holds =>
      split_ifs at stepped
      cases stepped
      rcases release_reserved
        { table with rows := table.rows ++
          [{ id := batchId, user := creator, batch := creation.stored now }] } creator user with
        ⟨batches, requests⟩
      rcases reserved_of_admission holds with ⟨oneBatch, itsRequests⟩
      have queued := creation.queued_stored now
      refine ⟨Or.inl ?_, Or.inl ?_⟩
      · rw [batches]
        simp only [release, countUnsealed, List.countP_append, List.countP_singleton]
        by_cases same : user = creator
        · subst same
          rw [oneBatch]
          simp only [Admission.batches]
          split_ifs <;> omega
        · simp [same, Ne.symm same, reservedBatches]
      · rw [requests]
        simp only [release, queuedRequests, tally_append, tally_singleton]
        by_cases same : user = creator
        · subst same
          rw [itsRequests]
          simp only [Admission.requested, if_true]
          omega
        · simp [same, Ne.symm same, reservedRequests]
    · cases stepped
    · cases stepped
  | beginStage index worker modelIds =>
    rcases Option.bind_eq_some_iff.mp stepped with ⟨row, found, admitted⟩
    refine Counts.admitIf admitted ?_ ?_ user
    · exact fun _ => Or.inl rfl
    · intro passed
      simp only [checkUserCaps, Option.all_some, Option.all_none, Bool.true_and,
        Bool.and_eq_true, decide_eq_true_eq] at passed
      exact passed.2
  | commitStage index now =>
    rcases Option.bind_eq_some_iff.mp stepped with ⟨row, found, committed⟩
    split at committed
    · next batchId worker modelIds holds =>
      split_ifs at committed
      cases committed
      rcases row.batch.stageItems_adds worker modelIds now with ⟨wanes, grows⟩
      refine Counts.write found wanes ?_ user
      rw [(reserved_of_admission holds).2]
      exact grows
    · cases committed
    · cases committed
  | rollback holder =>
    cases stepped
    rcases release_reserved table holder user with ⟨batches, requests⟩
    refine ⟨Or.inl ?_, Or.inl ?_⟩
    · rw [batches]
      simp only [release]
      split_ifs <;> omega
    · rw [requests]
      simp only [release]
      split_ifs <;> omega
  | transact index transaction =>
    rcases Option.bind_eq_some_iff.mp stepped with ⟨row, found, committed⟩
    have wanes : row.batch.job.Wanes (row.batch.after transaction).job ∧
        next = table.write index row (row.batch.after transaction) := by
      split at committed
      · cases committed
      · next staged =>
        cases committed
        exact ⟨row.batch.after_wanes staged, rfl⟩
    rcases wanes with ⟨wanes, rfl⟩
    refine ⟨Or.inl ?_, Or.inl ?_⟩
    · have unsealed := countUnsealed_set found wanes.unsealed user
      simp only [BatchTable.write, reservedBatches]
      omega
    · have grows : (row.batch.after transaction).job.queued ≤ row.batch.job.queued + 0 :=
        wanes.queued
      have queued := queuedRequests_set found grows user
      simp only [BatchTable.write, reservedRequests]
      split_ifs at queued <;> omega
  | delete index =>
    cases stepped
    refine ⟨Or.inl ?_, Or.inl ?_⟩
    · have fewer : countUnsealed (table.rows.eraseIdx index) user ≤
          countUnsealed table.rows user := (List.eraseIdx_sublist table.rows index).countP_le
      simp only [reservedBatches]
      omega
    · have fewer := queuedRequests_eraseIdx table.rows index user
      simp only [reservedRequests]
      omega

theorem countActiveBatches_le_countUnsealed (rows : List BatchRow) (user : String) :
    countActiveBatches rows user ≤ countUnsealed rows user := by
  apply List.countP_mono_left
  intro row _ active
  simp only [Bool.and_eq_true, Job.unsealed, Bool.or_eq_true] at active ⊢
  exact ⟨active.1, Or.inl active.2⟩

/-- A user's queued requests never pass their cap; its active batches do not unless a batch is
created in the place of one that is sealed again. -/
theorem user_caps_hold {events : List TableEvent}
    (ran : (machine maxActive maxQueued).run .empty events = some table) :
    (∀ user, queuedRequests table.rows user ≤ maxQueued) ∧
      ((machine maxActive maxQueued).Along (LeavesRoom maxActive) .empty events →
        ∀ user, countActiveBatches table.rows user ≤ maxActive) := by
  refine ⟨?_, ?_⟩
  · intro user
    have preserved (before : BatchTable) (event : TableEvent) (after : BatchTable)
        (capped : before.RequestsCapped maxQueued user)
        (stepped : (machine maxActive maxQueued).step before event = some after) :
        after.RequestsCapped maxQueued user := by
      rcases (step_counts stepped user).requests with fewer | room
      · exact fewer.trans capped
      · exact room
    have initial : empty.RequestsCapped maxQueued user := Nat.zero_le maxQueued
    have capped := Machine.run_invariant preserved initial ran
    exact (Nat.le_add_right _ _).trans capped
  · intro along user
    have preserved (before : BatchTable) (event : TableEvent) (after : BatchTable)
        (capped : before.BatchesCapped maxActive user) (leaves : LeavesRoom maxActive before event)
        (stepped : (machine maxActive maxQueued).step before event = some after) :
        after.BatchesCapped maxActive user := by
      rcases (step_counts stepped user).batches with fewer | ⟨⟨creation, rfl⟩, room, one⟩
      · exact fewer.trans capped
      · have unsealed := leaves room
        unfold BatchesCapped
        omega
    have initial : empty.BatchesCapped maxActive user := Nat.zero_le maxActive
    have capped := Machine.run_invariant_along (LeavesRoom maxActive) preserved initial along ran
    have fewer := countActiveBatches_le_countUnsealed table.rows user
    unfold BatchesCapped at capped
    omega

def failedWhileRunning : List TableEvent :=
  [.beginCreate "user" { surface := .openaiFile, expiresAt := none, requests := none },
    .commitCreate "user" "first" 0,
    .transact 0 (.claimBatchWork .validating "worker" 0 60),
    .beginStage 0 "worker" ["model"],
    .commitStage 0 1,
    .transact 0 (.publishValidated "worker" 2),
    .transact 0 (.claimItems "worker" "model" [0] 3 60),
    .transact 0 (.failBatch 4)]

def createNext : List TableEvent :=
  [.beginCreate "user"
      { surface := .openaiInline, expiresAt := none
        requests := some [{ modelId := "model", error := none }] },
    .commitCreate "user" "second" 5]

def reportBack : List TableEvent :=
  [.transact 0 (.completeItem 0 "worker" 1 { costUsd := some 1 } 6)]

theorem user_caps_hold_with_room :
    ∃ table, (machine 2 10).run .empty (failedWhileRunning ++ createNext ++ reportBack) =
        some table ∧ countActiveBatches table.rows "user" = 2 ∧
      (∀ user, queuedRequests table.rows user ≤ 10) ∧
      ∀ user, countActiveBatches table.rows user ≤ 2 := by
  have ran := (Option.some_get (show ((machine 2 10).run .empty
    (failedWhileRunning ++ createNext ++ reportBack)).isSome = true by decide +kernel)).symm
  have leaves : (machine 2 10).Along (LeavesRoom 2) .empty
      (failedWhileRunning ++ createNext ++ reportBack) := by decide +kernel
  have caps := user_caps_hold ran
  exact ⟨_, ran, by decide +kernel, caps.1, caps.2 leaves⟩

/-- The batch created in the place of a failed one is one too many as soon as the
failed one is to be sealed. -/
theorem active_batches_pass_cap_when_failed_batch_seals :
    ¬ ∀ (maxActive maxQueued : ℕ) (events : List TableEvent) (table : BatchTable) (user : String),
      1 ≤ maxActive → (machine maxActive maxQueued).run .empty events = some table →
        countActiveBatches table.rows user ≤ maxActive ∧
          queuedRequests table.rows user ≤ maxQueued := by
  intro caps
  have ran := (Option.some_get (show ((machine 1 10).run .empty
    (failedWhileRunning ++ createNext ++ reportBack)).isSome = true by decide +kernel)).symm
  have passed := (caps 1 10 _ _ "user" le_rfl ran).1
  revert passed
  decide +kernel

end BatchTable

end HybridInference.Batch
