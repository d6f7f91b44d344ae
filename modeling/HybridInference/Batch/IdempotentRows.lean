import HybridInference.Batch.Idempotency

/-!
# The ends of batches created under a key

What the columns of a batch say of its end: a sealed batch has a final status and the
moment it was sealed at, and a final status comes with its moment.
-/

namespace HybridInference.Batch

open Library

structure Job.Decided (job : Job) : Prop where
  pending : ∀ final, job.pendingTerminalStatus = some final → final.terminal = true
  sealed : job.phase = .sealed → job.status.terminal = true

/-- What every transaction on a batch but its deletion keeps of its row. -/
structure Job.Endures (before after : Job) : Prop where
  deleteRequested : after.deleteRequested = before.deleteRequested
  decided : before.Decided → after.Decided

namespace Job.Endures

variable {first second third before after : Job}

theorem refl (job : Job) : job.Endures job :=
  ⟨rfl, id⟩

theorem trans (earlier : first.Endures second) (later : second.Endures third) :
    first.Endures third :=
  ⟨later.deleteRequested.trans earlier.deleteRequested,
    fun decided => later.decided (earlier.decided decided)⟩

theorem of_same (deleted : after.deleteRequested = before.deleteRequested)
    (phase : after.phase = before.phase) (status : after.status = before.status)
    (pending : after.pendingTerminalStatus = before.pendingTerminalStatus) :
    before.Endures after := by
  refine ⟨deleted, ?_⟩
  rintro ⟨wasPending, wasSealed⟩
  refine ⟨?_, ?_⟩
  · rwa [pending]
  · rwa [phase, status]

theorem of_unsealed (deleted : after.deleteRequested = before.deleteRequested)
    (phase : after.phase ≠ .sealed)
    (pending : after.pendingTerminalStatus = before.pendingTerminalStatus) :
    before.Endures after := by
  refine ⟨deleted, ?_⟩
  rintro ⟨wasPending, -⟩
  refine ⟨?_, ?_⟩
  · rwa [pending]
  · intro sealed
    exact absurd sealed phase

theorem of_final {final : BatchStatus} (deleted : after.deleteRequested = before.deleteRequested)
    (terminal : final.terminal = true) (pending : after.pendingTerminalStatus = some final)
    (status : after.phase = .sealed → after.status = final) : before.Endures after := by
  refine ⟨deleted, fun _ => ⟨?_, ?_⟩⟩
  · intro other isOther
    rw [pending, Option.some.injEq] at isOther
    exact isOther ▸ terminal
  · intro sealed
    rw [status sealed]
    exact terminal

end Job.Endures

namespace StoredBatch

theorem passVerdict_endures (batch : StoredBatch) (now : ℚ) (status : BatchStatus) :
    batch.job.Endures (batch.passVerdict now status).job := by
  cases status <;> exact .of_same rfl rfl rfl rfl

theorem finalStatus_terminal {status final : BatchStatus}
    (decided : finalStatus status = some final) : final.terminal = true := by
  cases status <;> simp_all [finalStatus] <;> subst decided <;> rfl

theorem finalize_endures {batch : StoredBatch} {final : BatchStatus}
    (terminal : final.terminal = true) : batch.job.Endures (batch.finalize final).job := by
  unfold finalize
  split_ifs
  · exact .refl _
  · exact .of_final rfl terminal rfl (by simp)
  · exact .of_final rfl terminal rfl (fun _ => rfl)

theorem settle_endures (batch : StoredBatch) (now : ℚ) (status : BatchStatus) :
    batch.job.Endures (batch.settle now status).job := by
  have passed := passVerdict_endures batch now status
  unfold settle
  by_cases started : batch.job.phase ≠ .runnable
  · rw [if_pos started]
    exact .refl _
  · rw [if_neg started]
    cases decided : finalStatus status with
    | none => exact passed
    | some final =>
      dsimp only
      split_ifs
      · exact passed
      · exact passed
      · exact passed.trans (finalize_endures (finalStatus_terminal decided))

theorem stop_endures {batch : StoredBatch} (now : ℚ) (status : BatchStatus)
    (stoppable : batch.job.stoppable = true) : batch.job.Endures (batch.stop now status).job := by
  have unsealed : batch.job.phase ≠ .sealed := by
    intro sealed
    simp [Job.stoppable, sealed] at stoppable
  have moved : batch.job.Endures (batch.withStatus status).job := .of_unsealed rfl unsealed rfl
  exact moved.trans (settle_endures _ now status)

theorem failedValidationStatus_terminal (status : BatchStatus) :
    (failedValidationStatus status).terminal = true := by
  cases status <;> rfl

theorem guarded_endures {batch written : StoredBatch} {id : ℕ} {worker : String} {attempt : ℕ}
    {rewrite : Item → Item} {recorded : StoredBatch} (now : ℚ) (status : BatchStatus)
    (guarded : batch.guardedItemWrite id worker attempt rewrite = some written)
    (same : written.job.Endures recorded.job) :
    batch.job.Endures (recorded.settle now status).job := by
  rw [← guardedItemWrite_job guarded]
  exact same.trans (settle_endures recorded now status)

theorem after_endures (batch : StoredBatch) {transaction : Transaction}
    (kept : transaction.isRequestDelete = false) :
    batch.job.Endures (batch.after transaction).job := by
  cases transaction with
  | requestDelete now => cases kept
  | stageItems worker modelIds now =>
    simp only [after, stageItems]
    split_ifs <;> exact .of_same rfl rfl rfl rfl
  | resetStagedItems worker =>
    simp only [after, resetStagedItems]
    split_ifs <;> exact .of_same rfl rfl rfl rfl
  | publishValidated worker now =>
    have moved : batch.job.Endures batch.published.job := .of_unsealed rfl (by simp [published]) rfl
    simp only [after, publishValidated]
    split_ifs
    · exact moved
    · exact moved.trans (settle_endures _ now .inProgress)
    · exact .refl _
  | failValidation worker =>
    simp only [after, failValidation]
    split_ifs
    · have moved : batch.job.Endures batch.emptied.job := .of_unsealed rfl (by simp [emptied]) rfl
      exact moved.trans (finalize_endures (failedValidationStatus_terminal _))
    · exact .refl _
  | claimBatchWork phase worker now leaseSeconds =>
    simp only [after, claimBatchWork]
    split_ifs <;> exact .of_same rfl rfl rfl rfl
  | extendBatchWork phase worker now leaseSeconds =>
    simp only [after, extendBatchWork]
    split_ifs <;> exact .of_same rfl rfl rfl rfl
  | claimItems worker model ids now leaseSeconds =>
    simp only [after, claimItems]
    split_ifs with claimable
    · exact .of_same rfl rfl rfl rfl
    · have unsealed : batch.job.phase ≠ .sealed := by
        intro sealed
        simp [Job.claimable, sealed] at claimable
      exact .of_unsealed rfl unsealed rfl
    · exact .refl _
  | heartbeat worker ids now leaseSeconds => exact .refl _
  | markDispatched id worker attempt =>
    simp only [after, markDispatched]
    split_ifs <;> exact .refl _
  | completeItem id worker attempt report now =>
    simp only [after, completeItem]
    split
    · exact .refl _
    · next written guarded =>
      exact guarded_endures now _ guarded (.of_same rfl rfl rfl rfl)
  | retryItem id worker attempt report nextAttemptAt now =>
    simp only [after, retryItem]
    split
    · exact .refl _
    · next written guarded =>
      exact guarded_endures now _ guarded (.of_same rfl rfl rfl rfl)
  | releaseItem id worker attempt nextAttemptAt dispatched now =>
    simp only [after, releaseItem]
    split
    · exact .refl _
    · next written guarded =>
      exact guarded_endures now _ guarded (.of_same rfl rfl rfl rfl)
  | cancelBatch now =>
    simp only [after, cancelBatch, Bool.and_eq_true]
    split_ifs with stoppable
    · exact stop_endures now .cancelling stoppable.2
    · exact .refl _
  | failBatch now =>
    simp only [after, failBatch]
    split_ifs with stoppable
    · exact stop_endures now .failed stoppable
    · exact .refl _
  | sweepExpired now =>
    simp only [after, sweepExpired, Bool.and_eq_true]
    split_ifs with stoppable
    · exact stop_endures now .expired stoppable.1
    · exact .refl _
  | sweepSettled now => exact settle_endures batch now _
  | commitSeal worker generation =>
    simp only [after, commitSeal]
    split_ifs
    · refine ⟨rfl, fun decided => ⟨decided.pending, fun _ => ?_⟩⟩
      cases pending : batch.job.pendingTerminalStatus with
      | none => rfl
      | some final => exact decided.pending final pending
    · exact .refl _
  | pause resumeAt =>
    simp only [after, pause]
    split_ifs <;> exact .of_same rfl rfl rfl rfl

end StoredBatch

/-- What the history of a key says of a stored batch's row. -/
structure Kept (surface : Surface) (history : List KeyEntry) (id : String) (row : KeyedBatch) :
    Prop where
  lawful : row.batch.standing.Lawful
  decided : row.batch.job.Decided
  sameSurface : row.batch.job.apiSurface = surface
  runs : surface ≠ .openaiFile → row.batch.job.phase = .runnable ∨ row.batch.job.phase = .sealed
  sealed : row.batch.job.phase = .sealed → ∃ moment, row.sealedAt = some moment ∧
    KeyEntry.ended id moment ∈ history
  unsealed : row.batch.job.phase ≠ .sealed → row.sealedAt = none
  final : row.batch.job.status.terminal = true → ∃ moment, row.finalAt = some moment ∧
    (surface ≠ .openaiFile → KeyEntry.ended id moment ∈ history)
  ends : ∀ moment, KeyEntry.ended id moment ∈ history →
    row.batch.job.phase = .sealed ∨ surface ≠ .openaiFile ∧ row.batch.job.status.terminal = true
  gone : row.batch.job.deleteRequested = true → Gone history id

section Rows

variable {surface : Surface} {history more : List KeyEntry} {id : String} {row : KeyedBatch}

theorem Gone.append (gone : Gone history id) : Gone (history ++ more) id := by
  rcases gone with ⟨moment, clock, deleted⟩ | purged
  · exact Or.inl ⟨moment, clock, List.mem_append_left _ deleted⟩
  · exact Or.inr (List.mem_append_left _ purged)

theorem gone_append_iff
    (others : ∀ entry ∈ more, entry.id = id → ∃ moment, entry = .ended id moment) :
    Gone (history ++ more) id ↔ Gone history id := by
  refine ⟨?_, Gone.append⟩
  rintro (⟨moment, clock, deleted⟩ | purged)
  · rcases List.mem_append.mp deleted with earlier | last
    · exact Or.inl ⟨moment, clock, earlier⟩
    · rcases others _ last rfl with ⟨_, different⟩
      cases different
  · rcases List.mem_append.mp purged with earlier | last
    · exact Or.inr earlier
    · rcases others _ last rfl with ⟨_, different⟩
      cases different

theorem EndsAt.append {moment : ℚ} (ends : EndsAt history id moment) :
    EndsAt (history ++ more) id moment := by
  rcases ends with ended | ⟨clock, deleted⟩
  · exact Or.inl (List.mem_append_left _ ended)
  · exact Or.inr ⟨clock, List.mem_append_left _ deleted⟩

theorem Kept.endedAt_of_over (kept : Kept surface history id row) (isOver : row.isOver = true)
    (settled : row.isDraining = false) :
    ∃ moment, row.endedAt = some moment ∧ KeyEntry.ended id moment ∈ history := by
  simp only [KeyedBatch.isOver, Bool.and_eq_true, Bool.or_eq_true, decide_eq_true_eq] at isOver
  rcases isOver with ⟨terminal, runnable | sealed⟩
  · have inline : surface ≠ .openaiFile := by
      intro file
      simp [KeyedBatch.isDraining, kept.sameSurface, file, runnable, terminal] at settled
    have unsealed := kept.unsealed (by simp [runnable])
    rcases kept.final terminal with ⟨moment, isFinal, ended⟩
    exact ⟨moment, by simp [KeyedBatch.endedAt, unsealed, isFinal], ended inline⟩
  · rcases kept.sealed sealed with ⟨moment, isSealed, ended⟩
    exact ⟨moment, by simp [KeyedBatch.endedAt, isSealed], ended⟩

theorem Kept.over_of_ended {moment : ℚ} (kept : Kept surface history id row)
    (ended : KeyEntry.ended id moment ∈ history) :
    row.isOver = true ∧ row.isDraining = false := by
  rcases kept.ends moment ended with sealed | ⟨inline, terminal⟩
  · simp [KeyedBatch.isOver, KeyedBatch.isDraining, sealed, kept.decided.sealed sealed]
  · rcases kept.runs inline with phase | phase <;>
      simp [KeyedBatch.isOver, KeyedBatch.isDraining, phase, terminal, kept.sameSurface, inline]

theorem Kept.append (kept : Kept surface history id row)
    (others : ∀ moment, KeyEntry.ended id moment ∉ more) :
    Kept surface (history ++ more) id row := by
  refine ⟨kept.lawful, kept.decided, kept.sameSurface, kept.runs, ?_, kept.unsealed, ?_, ?_, ?_⟩
  · intro sealed
    rcases kept.sealed sealed with ⟨moment, isSealed, ended⟩
    exact ⟨moment, isSealed, List.mem_append_left _ ended⟩
  · intro terminal
    rcases kept.final terminal with ⟨moment, isFinal, ended⟩
    exact ⟨moment, isFinal, fun inline => List.mem_append_left _ (ended inline)⟩
  · intro moment ended
    rcases List.mem_append.mp ended with earlier | last
    · exact kept.ends moment earlier
    · exact absurd last (others moment)
  · intro deleted
    exact (kept.gone deleted).append

theorem runnable_or_sealed {before after : Phase} (inline : surface ≠ .openaiFile)
    (started : before = .runnable ∨ before = .sealed)
    (moved : Relation.ReflTransGen (Standing.PhaseMove surface) before after) :
    after = .runnable ∨ after = .sealed := by
  induction moved with
  | refl => exact started
  | tail _ move ih =>
    cases move with
    | publish => exact Or.inl rfl
    | finalizeFile file => exact absurd file inline
    | finalizeNow _ => exact Or.inr rfl
    | commitSeal => exact Or.inr rfl

theorem Kept.write {transaction : Transaction} {now : ℚ} (kept : Kept surface history id row)
    (notDeleted : transaction.isRequestDelete = false) :
    Kept surface
      (history ++ endsOf surface id row.batch.job (row.batch.after transaction).job now) id
      (row.write (row.batch.after transaction) now) := by
  have endures := StoredBatch.after_endures row.batch notDeleted
  rcases (StoredBatch.after_reaches transaction kept.lawful).lawful_follows kept.lawful with
    ⟨lawful, follows⟩
  have surfaceKept : (row.batch.after transaction).job.apiSurface = row.batch.job.apiSurface :=
    follows.surface
  have sealedKept (sealed : row.batch.job.phase = .sealed) :
      (row.batch.after transaction).job.phase = .sealed := by
    have moved := follows.phase
    have wasSealed : row.batch.standing.phase = .sealed := sealed
    rw [wasSealed] at moved
    exact Standing.sealed_is_last moved
  have terminalKept (terminal : row.batch.job.status.terminal = true) :
      (row.batch.after transaction).job.status.terminal = true := by
    have same : (row.batch.after transaction).job.status = row.batch.job.status :=
      follows.terminal terminal
    rw [same]
    exact terminal
  refine ⟨lawful, endures.decided kept.decided, surfaceKept.trans kept.sameSurface, ?_, ?_, ?_, ?_,
    ?_, ?_⟩
  · intro inline
    have moved := follows.phase
    rw [show row.batch.standing.apiSurface = surface from kept.sameSurface] at moved
    exact runnable_or_sealed inline (kept.runs inline) moved
  · intro sealed
    by_cases wasSealed : row.batch.job.phase = .sealed
    · rcases kept.sealed wasSealed with ⟨moment, isSealed, ended⟩
      refine ⟨moment, ?_, List.mem_append_left _ ended⟩
      simpa [KeyedBatch.write, wasSealed] using isSealed
    · have sealed : (row.batch.after transaction).job.phase = .sealed := sealed
      refine ⟨now, ?_, List.mem_append_right _ ?_⟩
      · simp [KeyedBatch.write, sealed, wasSealed]
      · simp [endsOf, sealed, wasSealed]
  · intro unsealed
    have unsealed : (row.batch.after transaction).job.phase ≠ .sealed := unsealed
    have wasUnsealed : row.batch.job.phase ≠ .sealed := fun sealed => unsealed (sealedKept sealed)
    simpa [KeyedBatch.write, unsealed] using kept.unsealed wasUnsealed
  · intro terminal
    have terminal : (row.batch.after transaction).job.status.terminal = true := terminal
    by_cases wasTerminal : row.batch.job.status.terminal = true
    · rcases kept.final wasTerminal with ⟨moment, isFinal, ended⟩
      refine ⟨moment, ?_, fun inline => List.mem_append_left _ (ended inline)⟩
      simpa [KeyedBatch.write, wasTerminal] using isFinal
    · refine ⟨now, ?_, fun inline => List.mem_append_right _ ?_⟩
      · simp [KeyedBatch.write, terminal, wasTerminal]
      · simp [endsOf, terminal, wasTerminal, inline]
  · intro moment ended
    rcases List.mem_append.mp ended with earlier | last
    · rcases kept.ends moment earlier with wasSealed | ⟨inline, wasTerminal⟩
      · exact Or.inl (sealedKept wasSealed)
      · exact Or.inr ⟨inline, terminalKept wasTerminal⟩
    · rcases List.mem_append.mp last with bySeal | byStatus
      · refine Or.inl ?_
        by_contra unsealed
        have unsealed : (row.batch.after transaction).job.phase ≠ .sealed := unsealed
        simp [unsealed] at bySeal
      · refine Or.inr ?_
        by_contra unended
        split_ifs at byStatus with condition
        · simp only [Bool.and_eq_true, decide_eq_true_eq] at condition
          exact unended condition.1
        · cases byStatus
  · intro deleted
    have wasDeleted : row.batch.job.deleteRequested = true := endures.deleteRequested ▸ deleted
    exact (kept.gone wasDeleted).append

theorem Kept.requestDelete {clock : ℚ} (kept : Kept surface history id row)
    (gone : Gone (history ++ more) id) (others : ∀ moment, KeyEntry.ended id moment ∉ more) :
    Kept surface (history ++ more) id { row with batch := row.batch.requestDelete clock } := by
  have stays := kept.append others
  unfold StoredBatch.requestDelete
  split_ifs
  · exact stays
  · exact ⟨kept.lawful, ⟨kept.decided.pending, kept.decided.sealed⟩, stays.sameSurface, stays.runs,
      stays.sealed, stays.unsealed, stays.final, stays.ends, fun _ => gone⟩

theorem Creation.stored_facts (creation : Creation) (now : ℚ) :
    (creation.stored now).standing.Lawful ∧ (creation.stored now).job.Decided ∧
      (creation.stored now).job.apiSurface = creation.surface ∧
      (creation.stored now).job.deleteRequested = false ∧
      (creation.surface ≠ .openaiFile → creation.requests.isSome = true →
        (creation.stored now).job.phase = .runnable ∨
          (creation.stored now).job.phase = .sealed) := by
  unfold Creation.stored
  cases creation.requests with
  | none =>
    refine ⟨StoredBatch.created_lawful (Or.inr ⟨_, _, _, rfl⟩), ⟨?_, ?_⟩, rfl, rfl, by simp⟩ <;>
      simp [StoredBatch.createForValidation, StoredBatch.insertBatch, StoredBatch.inserted,
        StoredBatch.admitted, StoredBatch.refused]
  | some requests =>
    have stored : (StoredBatch.inserted creation.surface .runnable .validating
        creation.expiresAt requests).standing.Lawful := by
      refine ⟨StoredBatch.inserted_counted _ _ _ _ _, ?_, ?_, ?_, ?_⟩ <;>
        simp [StoredBatch.standing, StoredBatch.inserted]
    have decided : (StoredBatch.inserted creation.surface .runnable .validating
        creation.expiresAt requests).job.Decided := by
      constructor <;> simp [StoredBatch.inserted]
    have endures := StoredBatch.settle_endures (StoredBatch.inserted creation.surface .runnable
      .validating creation.expiresAt requests) now .validating
    rcases (StoredBatch.settle_reaches now rfl).lawful_follows stored with ⟨lawful, follows⟩
    simp only [StoredBatch.create, StoredBatch.insertBatch]
    split_ifs
    · refine ⟨lawful, endures.decided decided, follows.surface, endures.deleteRequested, ?_⟩
      intro inline _
      exact runnable_or_sealed inline (Or.inl rfl) follows.phase
    · exact ⟨stored, decided, rfl, rfl, fun _ _ => Or.inl rfl⟩

def createdEntries (surface : Surface) (create : KeyedCreate) : List KeyEntry :=
  .created create.batchId create.requestDigest :: ((if (KeyStore.newRow create).sealedAt.isSome then
        [.ended create.batchId create.now] else []) ++
      if surface ≠ .openaiFile && (KeyStore.newRow create).finalAt.isSome then
        [.ended create.batchId create.now]
      else [])

theorem kept_newRow {create : KeyedCreate} (proper : KeyStore.isProper surface create = true)
    (fresh : ∀ entry ∈ history, entry.id ≠ create.batchId) :
    Kept surface (history ++ createdEntries surface create) create.batchId
      (KeyStore.newRow create) := by
  simp only [KeyStore.isProper, Bool.and_eq_true, decide_eq_true_eq, beq_iff_eq] at proper
  rcases proper with ⟨⟨sameSurface, requests⟩, -⟩
  rcases create.creation.stored_facts create.now with ⟨lawful, decided, surface_, kept, runs⟩
  refine ⟨lawful, decided, surface_.trans sameSurface, ?_, ?_, ?_, ?_, ?_, ?_⟩
  · intro inline
    apply runs (sameSurface ▸ inline)
    cases some_ : create.creation.requests with
    | none => simp [some_, inline] at requests
    | some _ => rfl
  · intro sealed
    have sealed : (create.creation.stored create.now).job.phase = .sealed := sealed
    refine ⟨create.now, by simp [KeyStore.newRow, sealed], ?_⟩
    simp [createdEntries, KeyStore.newRow, sealed]
  · intro unsealed
    have unsealed : (create.creation.stored create.now).job.phase ≠ .sealed := unsealed
    simp [KeyStore.newRow, unsealed]
  · intro terminal
    have terminal : (create.creation.stored create.now).job.status.terminal = true := terminal
    refine ⟨create.now, by simp [KeyStore.newRow, terminal], ?_⟩
    intro inline
    simp [createdEntries, KeyStore.newRow, terminal, inline]
  · intro moment ended
    rcases List.mem_append.mp ended with earlier | last
    · exact absurd rfl (fresh _ earlier)
    · simp only [createdEntries, List.mem_cons, List.mem_append, reduceCtorEq, false_or] at last
      rcases last with bySeal | byStatus
      · split_ifs at bySeal with sealed
        · refine Or.inl ?_
          by_contra unsealed
          have unsealed : (create.creation.stored create.now).job.phase ≠ .sealed := unsealed
          simp [KeyStore.newRow, unsealed] at sealed
        · cases bySeal
      · split_ifs at byStatus with condition
        · simp only [Bool.and_eq_true, decide_eq_true_eq] at condition
          refine Or.inr ⟨condition.1, ?_⟩
          by_contra unended
          have unended : ¬ (create.creation.stored create.now).job.status.terminal = true :=
            unended
          simp [KeyStore.newRow, unended] at condition
        · cases byStatus
  · intro deleted
    have deleted : (create.creation.stored create.now).job.deleteRequested = true := deleted
    rw [kept] at deleted
    cases deleted

end Rows

section Protection

variable {history more : List KeyEntry} {id : String}

theorem protection_concat (history : List KeyEntry) (entry : KeyEntry) (id : String) :
    protection (history ++ [entry]) id = extendProtection id (protection history id) entry := by
  simp [protection, List.foldl_append]

theorem extendProtection_of_ne {entry : KeyEntry} (other : entry.id ≠ id) (bound : Option ℚ) :
    extendProtection id bound entry = bound := by
  cases entry with
  | created _ _ => rfl
  | purged _ => rfl
  | ended another moment | deleted another moment clock =>
    have different : another ≠ id := other
    simp [extendProtection, different]

theorem protection_append_of_ne (others : ∀ entry ∈ more, entry.id ≠ id) :
    protection (history ++ more) id = protection history id := by
  induction more using List.reverseRecOn with
  | nil => simp
  | append_singleton earlier last ih =>
    rw [← List.append_assoc, protection_concat, extendProtection_of_ne (others last (by simp))]
    exact ih fun entry member => others entry (by simp [member])

theorem protection_le_of_ended {moment : ℚ} (ended : KeyEntry.ended id moment ∈ history)
    (kept : ∀ at_ clock, KeyEntry.deleted id at_ clock ∉ history) :
    ∃ bound, protection history id = some bound ∧ bound ≤ moment + idempotencyRetention := by
  induction history using List.reverseRecOn with
  | nil => cases ended
  | append_singleton earlier last ih =>
    have keptEarlier : ∀ at_ clock, KeyEntry.deleted id at_ clock ∉ earlier :=
      fun at_ clock member => kept at_ clock (by simp [member])
    rw [protection_concat]
    rcases List.mem_append.mp ended with inEarlier | isLast
    · rcases ih inEarlier keptEarlier with ⟨bound, isBound, below⟩
      rw [isBound]
      cases last with
      | created _ _ => exact ⟨bound, rfl, below⟩
      | purged _ => exact ⟨bound, rfl, below⟩
      | ended other next =>
        simp only [extendProtection]
        split_ifs
        · exact ⟨_, rfl, (min_le_left _ _).trans below⟩
        · exact ⟨bound, rfl, below⟩
      | deleted other at_ clock =>
        have different : other ≠ id := by
          rintro rfl
          exact kept at_ clock (by simp)
        simp only [extendProtection, different, decide_false, Bool.false_and,
          Bool.false_eq_true, if_false]
        exact ⟨bound, rfl, below⟩
    · obtain rfl := List.mem_singleton.mp isLast
      simp only [extendProtection, if_true]
      cases protection earlier id with
      | none => exact ⟨_, rfl, le_refl _⟩
      | some bound => exact ⟨_, rfl, min_le_right _ _⟩

theorem Protected.of_concat {entry : KeyEntry} {clock later : ℚ} (le : clock ≤ later)
    (wasCreated : ∀ requestDigest, entry ≠ .created id requestDigest)
    (deletedNow : ∀ moment at_, entry = .deleted id moment at_ → at_ = clock)
    (protected_ : Protected (history ++ [entry]) id later) : Protected history id clock := by
  rcases protected_ with ⟨⟨requestDigest, created⟩, bounds⟩
  refine ⟨⟨requestDigest, ?_⟩, ?_⟩
  · rcases List.mem_append.mp created with earlier | last
    · exact earlier
    · exact absurd (List.mem_singleton.mp last).symm (wasCreated requestDigest)
  · intro bound isBound
    rw [protection_concat, isBound] at bounds
    cases entry with
    | created _ _ | purged _ =>
      exact lt_of_le_of_lt le (bounds bound rfl)
    | ended other moment =>
      simp only [extendProtection] at bounds
      split_ifs at bounds
      · have below := bounds _ rfl
        exact lt_of_le_of_lt le (lt_of_lt_of_le below (min_le_left _ _))
      · exact lt_of_le_of_lt le (bounds bound rfl)
    | deleted other moment at_ =>
      by_cases same : other = id
      · subst same
        obtain rfl := deletedNow moment at_ rfl
        simp only [extendProtection, decide_true, Bool.true_and, Option.all_some,
          decide_eq_true_eq] at bounds
        by_contra expired
        rw [if_neg expired] at bounds
        exact expired (lt_of_le_of_lt le (bounds bound rfl))
      · simp only [extendProtection, same, decide_false, Bool.false_and, Bool.false_eq_true,
          if_false] at bounds
        exact lt_of_le_of_lt le (bounds bound rfl)

theorem Protected.of_append {clock later : ℚ} (le : clock ≤ later)
    (uncreated : ∀ requestDigest, KeyEntry.created id requestDigest ∉ more)
    (deletedNow : ∀ moment at_, KeyEntry.deleted id moment at_ ∈ more → at_ = clock)
    (protected_ : Protected (history ++ more) id later) : Protected history id clock := by
  induction more using List.reverseRecOn generalizing later with
  | nil =>
    rw [List.append_nil] at protected_
    exact ⟨protected_.1, fun bound isBound => lt_of_le_of_lt le (protected_.2 bound isBound)⟩
  | append_singleton earlier last ih =>
    rw [← List.append_assoc] at protected_
    refine ih (le_refl clock) ?_ ?_ (protected_.of_concat le ?_ ?_)
    · intro requestDigest member
      exact uncreated requestDigest (by simp [member])
    · intro moment at_ member
      exact deletedNow moment at_ (by simp [member])
    · rintro requestDigest rfl
      exact uncreated requestDigest (by simp)
    · rintro moment at_ rfl
      exact deletedNow moment at_ (by simp)

theorem protection_append_le {bound : ℚ} (isBound : protection history id = some bound)
    (kept : ∀ moment clock, KeyEntry.deleted id moment clock ∉ more) :
    ∃ later, protection (history ++ more) id = some later ∧ later ≤ bound := by
  induction more using List.reverseRecOn with
  | nil => exact ⟨bound, by simpa using isBound, le_refl _⟩
  | append_singleton earlier last ih =>
    have keptEarlier : ∀ moment clock, KeyEntry.deleted id moment clock ∉ earlier :=
      fun moment clock member => kept moment clock (by simp [member])
    rcases ih keptEarlier with ⟨middle, isMiddle, le⟩
    rw [← List.append_assoc, protection_concat, isMiddle]
    cases last with
    | created _ _ => exact ⟨middle, rfl, le⟩
    | purged _ => exact ⟨middle, rfl, le⟩
    | ended other moment =>
      simp only [extendProtection]
      split_ifs
      · exact ⟨_, rfl, (min_le_left _ _).trans le⟩
      · exact ⟨middle, rfl, le⟩
    | deleted other moment clock =>
      have different : other ≠ id := by
        rintro rfl
        exact kept moment clock (by simp)
      refine ⟨middle, ?_, le⟩
      simp [extendProtection, different]

end Protection

end HybridInference.Batch
