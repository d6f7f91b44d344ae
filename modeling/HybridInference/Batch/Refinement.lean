import HybridInference.Batch.Lifecycle
import HybridInference.Batch.Transactions

/-!
# The store's transactions as moves of a batch

Every transaction of the store is a chain of moves of the batch's standing.
-/

namespace HybridInference.Batch

open Library
open Standing

namespace StoredBatch

def standing (batch : StoredBatch) : Standing where
  apiSurface := batch.job.apiSurface
  phase := batch.job.phase
  status := batch.job.status
  pendingTerminalStatus := batch.job.pendingTerminalStatus
  requestCount := batch.job.requestCount
  completedCount := batch.job.completedCount
  failedCount := batch.job.failedCount
  cancelledCount := batch.job.cancelledCount
  expiredCount := batch.job.expiredCount
  statuses := batch.items.map Item.status

theorem map_status_mapIdx {items : List Item} {rewrite : ℕ → Item → Item}
    (kept : ∀ index item, (rewrite index item).status = item.status) :
    (items.mapIdx rewrite).map Item.status = items.map Item.status := by
  apply List.ext_getElem?
  intro index
  simp [Function.comp_def, kept]

@[simp]
theorem standing_abandonAttempts (batch : StoredBatch) (stale : List (ℕ × ℕ)) :
    (batch.abandonAttempts stale).standing = batch.standing := by
  have kept : (batch.abandonAttempts stale).items.map Item.status =
      batch.items.map Item.status := by
    apply map_status_mapIdx
    intro index item
    split_ifs <;> rfl
  simp only [standing, kept]
  rfl

variable {batch : StoredBatch}

theorem noneOpen_of_hasOpenItems (closed : batch.hasOpenItems = false) :
    batch.standing.noneOpen := by
  intro status member
  simp only [standing, List.mem_map] at member
  rcases member with ⟨item, stored, rfl⟩
  simp only [hasOpenItems, List.any_eq_false] at closed
  simpa [Item.isOpen] using closed item stored

theorem isOpen_of_settles {now : ℚ} {item : Item} (settles : item.settles now = true) :
    item.status.isOpen = true := by
  simp only [Item.settles, Item.leaseRanOut, Bool.or_eq_true, decide_eq_true_eq,
    Bool.and_eq_true] at settles
  rcases settles with queued | ⟨running, -⟩
  · simp [ItemStatus.isOpen, queued]
  · simp [ItemStatus.isOpen, running]

theorem isOpen_of_claimable {now : ℚ} {item : Item} (claimable : item.claimable now = true) :
    item.status.isOpen = true := by
  simp only [Item.claimable, Item.leaseRanOut, Bool.or_eq_true, decide_eq_true_eq,
    Bool.and_eq_true] at claimable
  rcases claimable with ⟨queued, -⟩ | ⟨running, -⟩
  · simp [ItemStatus.isOpen, queued]
  · simp [ItemStatus.isOpen, running]

theorem settleItems_reaches (batch : StoredBatch) (now : ℚ) (outcome : ItemStatus)
    (error : Option ItemError) (started : batch.job.phase ≠ .validating) :
    Reaches batch.standing
      { batch.standing.bump outcome (batch.items.countP (Item.settles now)) with
        statuses := (batch.settleItems now outcome error).items.map Item.status } := by
  have reached := reaches_moveChosen outcome
    (batch.items.map fun item => (item.status, item.settles now)) (by
      intro entry member chosen
      simp only [List.mem_map] at member
      rcases member with ⟨item, -, rfl⟩
      exact isOpen_of_settles chosen) [] batch.standing started (by simp [standing])
  have moved : (batch.settleItems now outcome error).items.map Item.status =
      batch.items.map fun item => if item.settles now then outcome else item.status := by
    simp only [settleItems, List.map_map]
    apply List.map_congr_left
    intro item _
    simp only [Function.comp_apply]
    split_ifs <;> rfl
  simpa [moved, List.countP_map, Function.comp_def] using reached

theorem passVerdict_reaches (batch : StoredBatch) (now : ℚ) (status : BatchStatus)
    (started : batch.job.phase ≠ .validating) :
    Reaches batch.standing (batch.passVerdict now status).standing := by
  have reached (outcome : ItemStatus) (error : Option ItemError) :=
    settleItems_reaches (batch.abandonAttempts (batch.attemptsOf (Item.leaseRanOut now))) now
      outcome error started
  simp only [standing_abandonAttempts] at reached
  cases status with
  | validating => exact .refl
  | inProgress => exact .refl
  | completed => exact .refl
  | cancelled => exact .refl
  | cancelling => exact reached .cancelled none
  | failed => exact reached .failed _
  | expired => exact reached .expired _

theorem passVerdict_job (batch : StoredBatch) (now : ℚ) (status : BatchStatus) :
    (batch.passVerdict now status).job.phase = batch.job.phase ∧
      (batch.passVerdict now status).job.status = batch.job.status := by
  cases status <;> exact ⟨rfl, rfl⟩

theorem finalize_reaches {final : BatchStatus}
    (runnable : batch.job.phase = .runnable) (closed : batch.standing.noneOpen)
    (fixed : batch.job.status.terminal = true → final = batch.job.status) :
    Reaches batch.standing (batch.finalize final).standing := by
  by_cases file : batch.job.apiSurface = .openaiFile
  · have moved : Move batch.standing _ := .finalizeFile final file runnable closed fixed
    unfold finalize
    rw [if_neg (by simp [runnable]), if_pos file]
    exact .single moved
  · have moved : Move batch.standing _ := .finalizeNow final file runnable closed fixed
    unfold finalize
    rw [if_neg (by simp [runnable]), if_neg file]
    exact .single moved

theorem finalStatus_fixed {status final : BatchStatus} (decided : finalStatus status = some final) :
    status.terminal = true → final = status := by
  cases status <;> simp_all [finalStatus, BatchStatus.terminal]

theorem settle_reaches {status : BatchStatus} (now : ℚ) (current : batch.job.status = status) :
    Reaches batch.standing (batch.settle now status).standing := by
  subst current
  unfold settle
  by_cases runnable : batch.job.phase = .runnable
  · have passed := passVerdict_reaches batch now batch.job.status (by simp [runnable])
    rcases passVerdict_job batch now batch.job.status with ⟨phase, status⟩
    simp only [runnable, ne_eq, not_true_eq_false, if_false]
    split
    · exact passed
    · rename_i final decided
      split_ifs with opened old
      · exact passed
      · exact passed
      · apply passed.trans
        apply finalize_reaches (phase.trans runnable)
        · exact noneOpen_of_hasOpenItems (by simpa using opened)
        · rw [status]
          exact finalStatus_fixed decided
  · simp only [runnable, ne_eq, not_false_eq_true, if_true]
    exact .refl

theorem stageItems_reaches (batch : StoredBatch) (worker : String) (modelIds : List String)
    (now : ℚ) : Reaches batch.standing (batch.stageItems worker modelIds now).standing := by
  unfold stageItems
  split_ifs with owned
  · have moved : Move batch.standing _ := .stage modelIds.length owned.2.1
    simpa [standing, Function.comp_def] using Relation.ReflTransGen.single moved
  · exact .refl

theorem resetStagedItems_reaches (batch : StoredBatch) (worker : String) :
    Reaches batch.standing (batch.resetStagedItems worker).standing := by
  unfold resetStagedItems
  split_ifs with owned
  · exact .single (.reset owned.2)
  · exact .refl

theorem publishValidated_reaches (batch : StoredBatch) (worker : String) (now : ℚ) :
    Reaches batch.standing (batch.publishValidated worker now).standing := by
  have moved (validating : batch.job.phase = .validating)
      (unstopped : batch.job.status = .validating) :
      Move batch.standing batch.published.standing := .publish validating unstopped
  unfold publishValidated
  split_ifs with owned opened
  · exact .single (moved owned.2.1 owned.2.2.1)
  · exact .head (moved owned.2.1 owned.2.2.1) (settle_reaches now rfl)
  · exact .refl

theorem failValidation_reaches (worker : Option String) (lawful : batch.standing.Lawful) :
    Reaches batch.standing (batch.failValidation worker).standing := by
  unfold failValidation
  split_ifs with validated
  · have moved : Move batch.standing batch.emptied.standing := .reject validated.1
    have undecided : batch.job.status ≠ .completed ∧ batch.job.status ≠ .cancelled :=
      lawful.undecided validated.1
    refine .head moved (finalize_reaches rfl ?_ ?_)
    · simp [noneOpen, standing, emptied]
    · change batch.job.status.terminal = true → _ = batch.job.status
      cases status : batch.job.status <;> simp_all [failedValidationStatus, BatchStatus.terminal]
  · exact .refl

section

variable (batch : StoredBatch)

theorem claimBatchWork_standing (phase : Phase) (worker : String)
    (now leaseSeconds : ℚ) :
    (batch.claimBatchWork phase worker now leaseSeconds).standing = batch.standing := by
  unfold claimBatchWork
  split_ifs <;> rfl

theorem extendBatchWork_standing (phase : Phase) (worker : String)
    (now leaseSeconds : ℚ) :
    (batch.extendBatchWork phase worker now leaseSeconds).standing = batch.standing := by
  unfold extendBatchWork
  split_ifs <;> rfl

theorem heartbeat_standing (worker : String) (ids : List ℕ)
    (now leaseSeconds : ℚ) :
    (batch.heartbeat worker ids now leaseSeconds).standing = batch.standing := by
  have kept : (batch.heartbeat worker ids now leaseSeconds).items.map Item.status =
      batch.items.map Item.status := by
    apply map_status_mapIdx
    intro index item
    split_ifs <;> rfl
  simp only [standing, kept]
  rfl

theorem markDispatched_standing (id : ℕ) (worker : String)
    (attempt : ℕ) : (batch.markDispatched id worker attempt).standing = batch.standing := by
  unfold markDispatched
  split_ifs <;> rfl

theorem pause_standing (resumeAt : ℚ) : (batch.pause resumeAt).standing = batch.standing := by
  unfold pause
  split_ifs <;> rfl

theorem requestDelete_standing (now : ℚ) : (batch.requestDelete now).standing = batch.standing := by
  unfold requestDelete
  split_ifs <;> rfl

end

theorem rewriteItems_reaches {ids : List ℕ} {chosen : Item → Bool}
    {rewrite : Item → Item} (started : batch.job.phase ≠ .validating)
    (opened : ∀ item, chosen item = true → item.status.isOpen = true)
    (running : ∀ item, (rewrite item).status = .running) :
    Reaches batch.standing (batch.rewriteItems ids chosen rewrite).standing := by
  have reached := reaches_moveChosen .running
    (batch.items.mapIdx fun index item => (item.status, ids.contains index && chosen item)) (by
      intro entry member picked
      rcases List.mem_mapIdx.mp member with ⟨index, inside, rfl⟩
      exact opened _ (Bool.and_eq_true_iff.mp picked).2) [] batch.standing started (by
      simp only [standing, List.nil_append]
      apply List.ext_getElem?
      intro index
      simp [Function.comp_def])
  have moved : (batch.rewriteItems ids chosen rewrite).items.map Item.status =
      (batch.items.mapIdx fun index item =>
        (item.status, ids.contains index && chosen item)).map fun entry =>
          if entry.2 then ItemStatus.running else entry.1 := by
    apply List.ext_getElem?
    intro index
    simp only [rewriteItems, List.getElem?_map, List.getElem?_mapIdx, Option.map_map]
    congr 1
    funext item
    simp only [Function.comp_apply]
    split_ifs with picked
    · exact running item
    · rfl
  simp only [List.nil_append, bump, ← moved] at reached
  exact reached

theorem touched_reaches (now : ℚ) (claimable : batch.job.claimable now = true) :
    Reaches batch.standing batch.touched.standing := by
  simp only [Job.claimable, Bool.and_eq_true, Bool.or_eq_true, decide_eq_true_eq] at claimable
  rcases claimable with ⟨⟨⟨⟨runnable, unfinished⟩, -⟩, -⟩, -⟩
  refine .single (.advance _ ?_ (Or.inr runnable) ?_)
  · change batch.job.status.terminal = false
    rcases unfinished with status | status <;> simp [status, BatchStatus.terminal]
  · rcases unfinished with status | status <;> simp [touched, withStatus, status]

theorem claimItems_reaches (batch : StoredBatch) (worker model : String) (ids : List ℕ)
    (now leaseSeconds : ℚ) :
    Reaches batch.standing (batch.claimItems worker model ids now leaseSeconds).standing := by
  unfold claimItems
  by_cases claimable : batch.job.claimable now = true
  · have runnable : batch.job.phase = .runnable := by
      simp only [Job.claimable, Bool.and_eq_true, decide_eq_true_eq] at claimable
      exact claimable.1.1.1.1
    extract_lets stale abandoned claimed
    have kept : abandoned.standing = batch.standing := standing_abandonAttempts batch _
    rw [← kept]
    split_ifs with nothing
    · exact .refl
    · have handed : Reaches abandoned.standing
          ((abandoned.rewriteItems ids (fun item => item.modelId = model && item.claimable now)
            (Item.claim worker now leaseSeconds)).openAttempts worker claimed).standing := by
        apply rewriteItems_reaches
        · simp [abandoned, abandonAttempts, runnable]
        · intro item picked
          exact isOpen_of_claimable (Bool.and_eq_true_iff.mp picked).2
        · intro item
          rfl
      exact handed.trans (touched_reaches now claimable)
  · rw [if_neg claimable]

theorem stop_reaches {status : BatchStatus} (now : ℚ) (stoppable : batch.job.stoppable = true)
    (next : status ≠ .completed ∧ status ≠ .cancelled) :
    Reaches batch.standing (batch.stop now status).standing := by
  simp only [Job.stoppable, Bool.and_eq_true, Bool.or_eq_true, decide_eq_true_eq] at stoppable
  have unfinished : batch.job.status.terminal = false := by
    rcases stoppable.1 with status | status <;> simp [status, BatchStatus.terminal]
  have moved : Move batch.standing (batch.withStatus status).standing :=
    .advance status unfinished stoppable.2 next
  exact .head moved (settle_reaches now rfl)

theorem cancelBatch_reaches (batch : StoredBatch) (now : ℚ) :
    Reaches batch.standing (batch.cancelBatch now).standing := by
  unfold cancelBatch
  split_ifs with stoppable
  · exact stop_reaches now (Bool.and_eq_true_iff.mp stoppable).2 (by simp)
  · exact .refl

theorem failBatch_reaches (batch : StoredBatch) (now : ℚ) :
    Reaches batch.standing (batch.failBatch now).standing := by
  unfold failBatch
  split_ifs with stoppable
  · exact stop_reaches now stoppable (by simp)
  · exact .refl

theorem sweepExpired_reaches (batch : StoredBatch) (now : ℚ) :
    Reaches batch.standing (batch.sweepExpired now).standing := by
  unfold sweepExpired
  split_ifs with stoppable
  · exact stop_reaches now (Bool.and_eq_true_iff.mp stoppable).1 (by simp)
  · exact .refl

theorem commitSeal_reaches (batch : StoredBatch) (worker : String) (generation : ℕ) :
    Reaches batch.standing (batch.commitSeal worker generation).standing := by
  unfold commitSeal
  split_ifs with held
  · exact .single (.commitSeal held.1)
  · exact .refl

theorem guardedItemWrite_moves {batch written : StoredBatch} {id : ℕ} {worker : String}
    {attempt : ℕ} {rewrite : Item → Item} (outcome : ItemStatus)
    (lawful : batch.standing.Lawful) (moves : ∀ item, (rewrite item).status = outcome)
    (wrote : batch.guardedItemWrite id worker attempt rewrite = some written) :
    written.job.status = batch.job.status ∧
      Move batch.standing (written.standing.bump outcome 1) := by
  unfold guardedItemWrite at wrote
  split at wrote
  · cases wrote
  · rename_i item found
    split_ifs at wrote with guarded
    cases wrote
    have running : item.status = .running := by
      simp only [Item.guarded, Bool.and_eq_true, decide_eq_true_eq] at guarded
      exact guarded.1.1
    have foundStatus : batch.standing.statuses[id]? = some .running := by
      simp [standing, found, running]
    have started : batch.standing.phase ≠ .validating := by
      intro validating
      have queued := lawful.staged validating _ (List.mem_of_getElem? foundStatus)
      cases queued
    have moved : Move batch.standing (batch.standing.moveItem id outcome) :=
      .item id .running outcome foundStatus rfl started
    refine ⟨rfl, ?_⟩
    cases outcome <;> simpa [standing, moveItem, bump, List.map_set, moves] using moved

theorem recordReport_standing (batch : StoredBatch) (id attempt : ℕ) (report : Report) :
    (batch.recordReport id attempt report).standing = batch.standing.bump report.itemStatus 1 := by
  by_cases succeeded : report.storedError.isNone = true <;>
    simp [standing, recordReport, recordAttempt, closeAttempt, bill, countReport,
      Report.itemStatus, bump, succeeded]

theorem completeItem_reaches (id : ℕ) (worker : String) (attempt : ℕ)
    (report : Report) (now : ℚ) (lawful : batch.standing.Lawful) :
    Reaches batch.standing (batch.completeItem id worker attempt report now).standing := by
  unfold completeItem
  split
  · exact .refl
  · rename_i written wrote
    rcases guardedItemWrite_moves report.itemStatus lawful (fun item => by rfl) wrote with
      ⟨current, moved⟩
    rw [← recordReport_standing written id attempt report] at moved
    exact .head moved (settle_reaches now current)

theorem retryItem_reaches (id : ℕ) (worker : String) (attempt : ℕ)
    (report : Report) (nextAttemptAt now : ℚ) (lawful : batch.standing.Lawful) :
    Reaches batch.standing
      (batch.retryItem id worker attempt report nextAttemptAt now).standing := by
  unfold retryItem
  split
  · exact .refl
  · rename_i written wrote
    rcases guardedItemWrite_moves .queued lawful (fun item => by rfl) wrote with
      ⟨current, moved⟩
    have recorded (outcome : AttemptOutcome) (cost : Option ℚ) (billing : CostStatus) :
        Move batch.standing (written.recordAttempt id attempt outcome cost billing).standing :=
      moved
    exact .head (recorded _ _ _) (settle_reaches now current)

theorem releaseItem_reaches (id : ℕ) (worker : String) (attempt : ℕ)
    (nextAttemptAt : Option ℚ) (dispatched : Bool) (now : ℚ) (lawful : batch.standing.Lawful) :
    Reaches batch.standing
      (batch.releaseItem id worker attempt nextAttemptAt dispatched now).standing := by
  unfold releaseItem
  split
  · exact .refl
  · rename_i written wrote
    rcases guardedItemWrite_moves .queued lawful (fun item => by rfl) wrote with
      ⟨current, moved⟩
    have recorded (outcome : AttemptOutcome) (cost : Option ℚ) (billing : CostStatus) :
        Move batch.standing (written.recordAttempt id attempt outcome cost billing).standing :=
      moved
    exact .head (recorded _ _ _) (settle_reaches now current)

theorem after_reaches (transaction : Transaction) (lawful : batch.standing.Lawful) :
    Reaches batch.standing (batch.after transaction).standing := by
  cases transaction with
  | stageItems worker modelIds now =>
    exact stageItems_reaches batch worker modelIds now
  | resetStagedItems worker =>
    exact resetStagedItems_reaches batch worker
  | publishValidated worker now =>
    exact publishValidated_reaches batch worker now
  | failValidation worker =>
    exact failValidation_reaches worker lawful
  | claimBatchWork phase worker now leaseSeconds =>
    exact claimBatchWork_standing batch phase worker now leaseSeconds ▸ .refl
  | extendBatchWork phase worker now leaseSeconds =>
    exact extendBatchWork_standing batch phase worker now leaseSeconds ▸ .refl
  | claimItems worker model ids now leaseSeconds =>
    exact claimItems_reaches batch worker model ids now leaseSeconds
  | heartbeat worker ids now leaseSeconds =>
    exact heartbeat_standing batch worker ids now leaseSeconds ▸ .refl
  | markDispatched id worker attempt =>
    exact markDispatched_standing batch id worker attempt ▸ .refl
  | completeItem id worker attempt report now =>
    exact completeItem_reaches id worker attempt report now lawful
  | retryItem id worker attempt report nextAttemptAt now =>
    exact retryItem_reaches id worker attempt report nextAttemptAt now lawful
  | releaseItem id worker attempt nextAttemptAt dispatched now =>
    exact releaseItem_reaches id worker attempt nextAttemptAt dispatched now lawful
  | cancelBatch now =>
    exact cancelBatch_reaches batch now
  | failBatch now =>
    exact failBatch_reaches batch now
  | sweepExpired now =>
    exact sweepExpired_reaches batch now
  | sweepSettled now =>
    exact settle_reaches now rfl
  | commitSeal worker generation =>
    exact commitSeal_reaches batch worker generation
  | pause resumeAt =>
    exact pause_standing batch resumeAt ▸ .refl
  | requestDelete now =>
    exact requestDelete_standing batch now ▸ .refl

def Created (batch : StoredBatch) : Prop :=
  (∃ surface expiresAt requests now, batch = create surface expiresAt requests now) ∨
    ∃ surface expiresAt now, batch = createForValidation surface expiresAt now

theorem inserted_counted (surface : Surface) (phase : Phase) (status : BatchStatus)
    (expiresAt : Option ℚ) (requests : List NewItem) :
    (inserted surface phase status expiresAt requests).standing.Counted := by
  have all : (admitted requests).length + (refused requests).length = requests.length := by
    rw [requests.length_eq_length_filter_add fun request => request.error.isNone]
    simp [admitted, refused]
  constructor <;> simp [standing, inserted, ← all, Function.comp_def, List.countP_replicate]

theorem created_lawful (created : batch.Created) :
    batch.standing.Lawful := by
  rcases created with ⟨surface, expiresAt, requests, now, rfl⟩ | ⟨surface, expiresAt, now, rfl⟩
  · have stored : (inserted surface .runnable .validating expiresAt requests).standing.Lawful := by
      refine ⟨inserted_counted _ _ _ _ _, ?_, ?_, ?_, ?_⟩ <;> simp [standing, inserted]
    unfold create insertBatch
    split_ifs with final
    · exact ((settle_reaches now rfl).lawful_follows stored).1
    · exact stored
  · refine ⟨inserted_counted surface .validating .validating expiresAt [], ?_, ?_, ?_, ?_⟩ <;>
      simp [standing, createForValidation, insertBatch, inserted, admitted, refused]

theorem run_lawful_follows {start final : StoredBatch} {transactions : List Transaction}
    (lawful : start.standing.Lawful) (ran : batchMachine.run start transactions = some final) :
    final.standing.Lawful ∧ Follows start.standing final.standing := by
  have preserved : ∀ batch transaction next,
      batch.standing.Lawful ∧ Follows start.standing batch.standing →
      batchMachine.step batch transaction = some next →
      next.standing.Lawful ∧ Follows start.standing next.standing := by
    intro batch transaction next holds stepped
    simp only [batchMachine, Option.some.injEq] at stepped
    subst stepped
    rcases (after_reaches transaction holds.1).lawful_follows holds.1 with ⟨still, follows⟩
    exact ⟨still, holds.2.trans follows⟩
  exact Machine.run_invariant preserved ⟨lawful, Follows.refl _⟩ ran

/-- What an owner sees of a run of the store's transactions is a chain of moves. -/
theorem store_refines_lifecycle {start final : StoredBatch} {transactions : List Transaction}
    (created : start.Created) (ran : batchMachine.run start transactions = some final) :
    Reaches start.standing final.standing := by
  have preserved : ∀ batch transaction next,
      batch.standing.Lawful ∧ Reaches start.standing batch.standing →
      batchMachine.step batch transaction = some next →
      next.standing.Lawful ∧ Reaches start.standing next.standing := by
    intro batch transaction next holds stepped
    simp only [batchMachine, Option.some.injEq] at stepped
    subst stepped
    have reached := after_reaches transaction holds.1
    exact ⟨(reached.lawful_follows holds.1).1, holds.2.trans reached⟩
  exact (Machine.run_invariant preserved ⟨created_lawful created, .refl⟩ ran).2

/-- A file batch of three items: one is completed, one is tried again, and it is cancelled
while the third runs. -/
theorem store_refines_lifecycle_cancelled :
    let start := createForValidation .openaiFile none 0
    let transactions : List Transaction :=
      [.claimBatchWork .validating "validator" 0 60,
        .stageItems "validator" ["model", "model", "model"] 1, .publishValidated "validator" 2,
        .claimItems "worker" "model" [0, 1, 2] 3 30,
        .completeItem 0 "worker" 1 { responseBytes := some 10 } 4,
        .retryItem 1 "worker" 1 {} 6 5, .cancelBatch 6,
        .completeItem 2 "worker" 1 { responseBytes := some 10 } 7,
        .claimBatchWork .sealing "sealer" 8 60, .commitSeal "sealer" 1]
    ∃ final, batchMachine.run start transactions = some final ∧
      final.items.map Item.status = [.completed, .cancelled, .completed] ∧
      final.job.phase = .sealed ∧ Reaches start.standing final.standing := by
  intro start transactions
  have created : start.Created := Or.inr ⟨.openaiFile, none, 0, rfl⟩
  have checked : ((batchMachine.run start transactions).any fun batch =>
      decide (batch.items.map Item.status = [.completed, .cancelled, .completed] ∧
        batch.job.phase = .sealed)) = true := by
    decide +kernel
  rcases (Option.any_eq_true _ _).mp checked with ⟨final, ran, facts⟩
  rcases of_decide_eq_true facts with ⟨statuses, phase⟩
  exact ⟨final, ran, statuses, phase, store_refines_lifecycle created ran⟩

def countOf (batch : StoredBatch) (status : ItemStatus) : ℕ :=
  batch.items.countP fun item => item.status = status

def openCount (batch : StoredBatch) : ℕ :=
  batch.items.countP Item.isOpen

theorem length_eq_counts (batch : StoredBatch) :
    batch.items.length = batch.countOf .completed + batch.countOf .failed +
      batch.countOf .expired + batch.countOf .cancelled + batch.openCount := by
  simp only [countOf, openCount]
  induction batch.items with
  | nil => rfl
  | cons item rest ih =>
    rcases item with ⟨_, status, _, _, _, _, _, _, _, _⟩
    simp only [List.length_cons, List.countP_cons, ih, Item.isOpen, ItemStatus.isOpen]
    cases status <;> simp <;> omega

/-- A batch's counters are the numbers of its items at any point of any run, its
phase and its result never go back, and a sealed batch and a final status stay
as they are. -/
theorem batch_counters_and_lifecycle {start batch : StoredBatch} {past : List Transaction}
    (created : start.Created) (ran : batchMachine.run start past = some batch) :
    (batch.job.requestCount = batch.job.completedCount + batch.job.failedCount +
        batch.job.cancelledCount + batch.openCount ∧
      batch.job.completedCount = batch.countOf .completed ∧
      batch.job.cancelledCount = batch.countOf .cancelled ∧
      batch.job.expiredCount = batch.countOf .expired ∧
      batch.job.failedCount = batch.countOf .failed + batch.countOf .expired ∧
      batch.job.expiredCount ≤ batch.job.failedCount) ∧
    (batch.job.phase = .sealing ∨ batch.job.phase = .sealed → batch.openCount = 0) ∧
    ∀ (later : List Transaction) (final : StoredBatch), batchMachine.run batch later = some final →
      Relation.ReflTransGen (PhaseMove batch.job.apiSurface) batch.job.phase final.job.phase ∧
      (batch.job.phase = .sealed → final.job.status = batch.job.status ∧
          final.items.map Item.status = batch.items.map Item.status) ∧
      (batch.job.status.terminal = true → final.job.status = batch.job.status) := by
  have lawful := (run_lawful_follows (created_lawful created) ran).1
  refine ⟨?_, ?_, ?_⟩
  · have all := batch.length_eq_counts
    rcases lawful.counted with ⟨requests, completed, cancelled, expired, failed⟩
    simp only [standing, List.length_map] at requests
    simp only [standing, List.countP_map, Function.comp_def] at completed cancelled expired failed
    simp only [countOf] at all ⊢
    refine ⟨?_, completed, cancelled, expired, failed, ?_⟩ <;> omega
  · intro ended
    apply List.countP_eq_zero.mpr
    intro item stored
    have shut := lawful.closed ended item.status (List.mem_map_of_mem stored)
    simp [Item.isOpen, shut]
  · intro later final ranLater
    have follows := (run_lawful_follows lawful ranLater).2
    exact ⟨follows.phase, follows.sealed, follows.terminal⟩

/-- A file batch that is cancelled while one of its two items runs: the late
report ends it, and the sealed batch no longer fails. -/
theorem batch_counters_and_lifecycle_late_report :
    let start := createForValidation .openaiFile none 0
    let past : List Transaction :=
      [.claimBatchWork .validating "validator" 0 60, .stageItems "validator" ["model", "model"] 1,
        .publishValidated "validator" 2, .claimItems "worker" "model" [0] 3 30, .cancelBatch 4,
        .completeItem 0 "worker" 1 { responseBytes := some 10, costUsd := some 1 } 5,
        .claimBatchWork .sealing "sealer" 6 60, .commitSeal "sealer" 1]
    ∃ batch, batchMachine.run start past = some batch ∧ batch.job.phase = .sealed ∧
      batch.job.status = .cancelled ∧
      batch.job.requestCount = 2 ∧ batch.job.completedCount = batch.countOf .completed ∧
      batch.job.cancelledCount = batch.countOf .cancelled ∧ batch.countOf .cancelled = 1 ∧
      ∀ final, batchMachine.run batch [.failBatch 7] = some final →
        final.job.status = .cancelled := by
  intro start past
  have created : start.Created := Or.inr ⟨.openaiFile, none, 0, rfl⟩
  have checked : ((batchMachine.run start past).any fun batch =>
      decide (batch.job.phase = .sealed ∧ batch.job.status = .cancelled ∧
        batch.job.requestCount = 2 ∧ batch.countOf .cancelled = 1)) = true := by
    decide +kernel
  rcases (Option.any_eq_true _ _).mp checked with ⟨batch, ran, facts⟩
  rcases of_decide_eq_true facts with ⟨phase, status, requests, cancelled⟩
  rcases batch_counters_and_lifecycle created ran with ⟨counters, -, later⟩
  refine ⟨batch, ran, phase, status, requests, counters.2.1, counters.2.2.1, cancelled, ?_⟩
  intro final ranLater
  exact ((later _ final ranLater).2.1 phase).1.trans status

end StoredBatch

end HybridInference.Batch
