import Mathlib.Data.Rat.Defs
import Mathlib.Algebra.Order.Ring.Int
import Mathlib.Data.List.Infix

/-!
# The buffer of alert history

`HistoryQueue` of `serving.observability.alert_history.queue`. A record is the
object that was offered and its serialized size, which is what the queue reads
of it. Which records were accepted, which were settled (with whether each was
unwritable), how many refusals the accepted gap records carry, and which batch
failed last, only say what happened.
-/

namespace HybridInference.Alerts

structure HistoryRecord where
  object : ℕ
  size : ℕ
  deriving DecidableEq

inductive RefusalReason where
  | afterShutdown
  | bufferFull
  deriving DecidableEq

/-- `_Refusals`, with the counter of each reason. -/
structure Refusals where
  afterShutdown : ℕ := 0
  bufferFull : ℕ := 0
  firstAt : Option ℚ := none
  lastAt : Option ℚ := none
  deriving DecidableEq

namespace Refusals

def add (refusals : Refusals) (reason : RefusalReason) (now : ℚ) : Refusals :=
  { afterShutdown := refusals.afterShutdown + if reason = .afterShutdown then 1 else 0
    bufferFull := refusals.bufferFull + if reason = .bufferFull then 1 else 0
    firstAt := some (refusals.firstAt.getD now)
    lastAt := some now }

def total (refusals : Refusals) : ℕ :=
  refusals.afterShutdown + refusals.bufferFull

/-- `restore_refusals`: a tally is put back into the one kept since. -/
def restore (refusals taken : Refusals) : Refusals :=
  { afterShutdown := refusals.afterShutdown + taken.afterShutdown
    bufferFull := refusals.bufferFull + taken.bufferFull
    firstAt :=
      match taken.firstAt, refusals.firstAt with
      | some first, some kept => some (if first < kept then first else kept)
      | some first, none => some first
      | none, kept => kept
    lastAt :=
      match taken.lastAt, refusals.lastAt with
      | some last, some kept => some (if kept < last then last else kept)
      | some last, none => some last
      | none, kept => kept }

@[simp]
theorem total_add (refusals : Refusals) (reason : RefusalReason) (now : ℚ) :
    (refusals.add reason now).total = refusals.total + 1 := by
  cases reason with
  | afterShutdown | bufferFull =>
    simp only [add, total, if_true, reduceCtorEq, if_false]
    omega

@[simp]
theorem total_restore (refusals taken : Refusals) :
    (refusals.restore taken).total = refusals.total + taken.total := by
  simp only [restore, total]
  omega

@[simp]
theorem total_empty : ({} : Refusals).total = 0 := rfl

end Refusals

/-- `BATCH_MAX_RECORDS` and `BATCH_MAX_BYTES`. -/
def batchMaxRecords : ℕ := 50

def batchMaxBytes : ℕ := 256 * 1024

structure HistorySettings where
  maxRecords : ℕ := 2000
  maxBytes : ℕ := 8 * 1024 * 1024
  /-- Whether the writer was given a `gap_record`. -/
  reportsGaps : Bool := true
  heartbeatInterval : ℚ := 30

structure HistoryQueue where
  items : List HistoryRecord := []
  bytes : ℤ := 0
  inFlight : ℕ := 0
  closed : Bool := false
  refusals : Refusals := {}
  refusedTotal : ℕ := 0
  droppedTotal : ℕ := 0
  committedTotal : ℤ := 0
  accepted : List HistoryRecord := []
  settled : List (HistoryRecord × Bool) := []
  carried : ℕ := 0
  retry : Option (List HistoryRecord) := none

def peekFrom (taken size : ℕ) : List HistoryRecord → List HistoryRecord
  | [] => []
  | record :: rest =>
    if 0 < taken && (batchMaxRecords ≤ taken || batchMaxBytes < size + record.size) then []
    else record :: peekFrom (taken + 1) (size + record.size) rest

def popBatch : List HistoryRecord → ℤ → List HistoryRecord → List HistoryRecord × ℤ × Bool
  | items, bytes, [] => (items, bytes, true)
  | [], bytes, _ :: _ => ([], bytes, false)
  | item :: items, bytes, record :: batch =>
    if item = record then popBatch items (bytes - record.size) batch
    else (item :: items, bytes, false)

namespace HistoryQueue

def pendingRefusals (queue : HistoryQueue) : ℕ :=
  queue.refusals.total

/-- `offer`, and whether the record was queued. -/
def offer (settings : HistorySettings) (queue : HistoryQueue) (record : HistoryRecord) (now : ℚ)
    (countRefusal : Bool) : HistoryQueue × Bool :=
  let reason : Option RefusalReason :=
    if queue.closed && countRefusal then some .afterShutdown
    else if settings.maxRecords ≤ queue.items.length ||
        settings.maxBytes < queue.bytes + record.size
      then some .bufferFull
    else none
  match reason with
  | some reason =>
    if countRefusal then
      ({ queue with
         refusals := queue.refusals.add reason now, refusedTotal := queue.refusedTotal + 1 },
        false)
    else (queue, false)
  | none =>
    ({ queue with
       items := queue.items ++ [record]
       bytes := queue.bytes + record.size
       accepted := queue.accepted ++ [record] }, true)

def close (queue : HistoryQueue) : HistoryQueue :=
  { queue with closed := true }

def peekBatch (queue : HistoryQueue) : List HistoryRecord :=
  peekFrom 0 0 queue.items

/-- `settle`, with the records of the batch that were unwritable; `false` when it
found the head changed and raised. -/
def settle (queue : HistoryQueue) (batch : List HistoryRecord) (unwritable : List Bool) :
    HistoryQueue × Bool :=
  let popped := popBatch queue.items queue.bytes batch
  if popped.2.2 then
    ({ queue with
       items := popped.1
       bytes := popped.2.1
       inFlight := 0
       committedTotal := queue.committedTotal + (batch.length - unwritable.count true : ℤ)
       droppedTotal := queue.droppedTotal + unwritable.count true
       settled := queue.settled ++ batch.zip unwritable
       retry := none }, true)
  else ({ queue with items := popped.1, bytes := popped.2.1 }, false)

/-- `release_in_flight` of a batch that failed. -/
def releaseInFlight (queue : HistoryQueue) (batch : List HistoryRecord) : HistoryQueue :=
  { queue with inFlight := 0, retry := some batch }

/-- `_queue_gap_report`; there is no record when it could not be built. -/
def queueGapReport (settings : HistorySettings) (queue : HistoryQueue)
    (gapRecord : Option HistoryRecord) (now : ℚ) : HistoryQueue :=
  if !settings.reportsGaps || queue.pendingRefusals = 0 then queue
  else
    let taken := queue.refusals
    let emptied := { queue with refusals := {} }
    match gapRecord with
    | none => { emptied with refusals := emptied.refusals.restore taken }
    | some record =>
      let offered := emptied.offer settings record now false
      if offered.2 then { offered.1 with carried := offered.1.carried + taken.total }
      else { offered.1 with refusals := offered.1.refusals.restore taken }

end HistoryQueue

theorem peekFrom_front (taken size : ℕ) (items : List HistoryRecord) :
    peekFrom taken size items <+: items := by
  induction items generalizing taken size with
  | nil => exact List.prefix_refl []
  | cons record rest ih =>
    rw [peekFrom]
    split_ifs
    · exact List.nil_prefix
    · exact (List.prefix_cons_inj record).mpr (ih _ _)

theorem peekFrom_mono (taken size : ℕ) {older items : List HistoryRecord}
    (longer : older <+: items) : peekFrom taken size older <+: peekFrom taken size items := by
  induction older generalizing taken size items with
  | nil => exact List.nil_prefix
  | cons record rest ih =>
    cases items with
    | nil => simp at longer
    | cons head tail =>
      rcases List.cons_prefix_cons.mp longer with ⟨rfl, tails⟩
      rw [peekFrom, peekFrom]
      split_ifs
      · exact List.nil_prefix
      · exact (List.prefix_cons_inj record).mpr (ih _ _ tails)

def sizes (items : List HistoryRecord) : ℤ :=
  (items.map fun record => (record.size : ℤ)).sum

theorem sizes_append (first second : List HistoryRecord) :
    sizes (first ++ second) = sizes first + sizes second := by
  simp [sizes]

theorem sizes_nonneg (items : List HistoryRecord) : 0 ≤ sizes items := by
  induction items with
  | nil => exact le_rfl
  | cons record rest ih =>
    simp only [sizes, List.map_cons, List.sum_cons] at ih ⊢
    omega

theorem popBatch_append (batch rest : List HistoryRecord) (bytes : ℤ) :
    popBatch (batch ++ rest) bytes batch = (rest, bytes - sizes batch, true) := by
  induction batch generalizing bytes with
  | nil =>
    cases rest <;> simp [popBatch, sizes]
  | cons record batch ih =>
    rw [List.cons_append, popBatch, if_pos rfl, ih]
    simp only [sizes, List.map_cons, List.sum_cons, Prod.mk.injEq, and_true, true_and]
    omega

namespace HistoryQueue

/-- The laws of the queue: its bounds, its byte count, where every accepted record
is, and where every refusal is. -/
structure Accounted (settings : HistorySettings) (queue : HistoryQueue) : Prop where
  records : queue.items.length ≤ settings.maxRecords
  bounded : queue.bytes ≤ settings.maxBytes
  bytes : queue.bytes = sizes queue.items
  accepted : queue.accepted = queue.settled.map Prod.fst ++ queue.items
  committed : queue.committedTotal = queue.settled.countP (fun entry => !entry.2)
  dropped : queue.droppedTotal = queue.settled.countP (fun entry => entry.2)
  refused : queue.refusedTotal = queue.carried + queue.pendingRefusals
  retry : ∀ batch ∈ queue.retry, ∃ older, older <+: queue.items ∧ batch = peekFrom 0 0 older

variable {settings : HistorySettings} {queue : HistoryQueue}

/-- An offer keeps the record or refuses it for one reason. -/
theorem offer_cases (settings : HistorySettings) (queue : HistoryQueue) (record : HistoryRecord)
    (now : ℚ) (countRefusal : Bool) :
    (queue.offer settings record now countRefusal =
        ({ queue with
           items := queue.items ++ [record]
           bytes := queue.bytes + record.size
           accepted := queue.accepted ++ [record] }, true) ∧
      queue.items.length < settings.maxRecords ∧
      queue.bytes + record.size ≤ settings.maxBytes) ∨
    (countRefusal = true ∧ ∃ reason, queue.offer settings record now countRefusal =
      ({ queue with
         refusals := queue.refusals.add reason now
         refusedTotal := queue.refusedTotal + 1 }, false)) ∨
    (countRefusal = false ∧ queue.offer settings record now countRefusal = (queue, false)) := by
  unfold offer
  dsimp only
  by_cases shut : (queue.closed && countRefusal) = true
  · have counts : countRefusal = true := by
      simp only [Bool.and_eq_true] at shut
      exact shut.2
    rw [if_pos shut]
    exact Or.inr (Or.inl ⟨counts, .afterShutdown, by simp [counts]⟩)
  · rw [if_neg shut]
    by_cases full : (settings.maxRecords ≤ queue.items.length ||
        settings.maxBytes < queue.bytes + record.size) = true
    · rw [if_pos full]
      cases countRefusal with
      | true => exact Or.inr (Or.inl ⟨rfl, .bufferFull, rfl⟩)
      | false => exact Or.inr (Or.inr ⟨rfl, rfl⟩)
    · rw [if_neg full]
      simp only [Bool.or_eq_true, decide_eq_true_eq, not_or, not_le, not_lt] at full
      exact Or.inl ⟨rfl, full.1, full.2⟩

variable {record : HistoryRecord}

section

variable (accounted : Accounted settings queue)

include accounted

theorem retry_of_append : ∀ batch ∈ queue.retry,
      ∃ older, older <+: queue.items ++ [record] ∧ batch = peekFrom 0 0 older := by
  intro batch failed
  rcases accounted.retry batch failed with ⟨older, front, rfl⟩
  exact ⟨older, front.trans (List.prefix_append _ _), rfl⟩

theorem Accounted.append (room : queue.items.length < settings.maxRecords)
    (fits : queue.bytes + record.size ≤ settings.maxBytes) :
    Accounted settings
      { queue with
        items := queue.items ++ [record]
        bytes := queue.bytes + record.size
        accepted := queue.accepted ++ [record] } where
  records := by
    simp only [List.length_append, List.length_singleton]
    omega
  bounded := fits
  bytes := by
    have before := accounted.bytes
    simp only [sizes, List.map_append, List.sum_append, List.map_cons, List.map_nil,
      List.sum_cons, List.sum_nil, add_zero] at before ⊢
    omega
  accepted := by
    rw [accounted.accepted, List.append_assoc]
  committed := accounted.committed
  dropped := accounted.dropped
  refused := accounted.refused
  retry := retry_of_append accounted

theorem Accounted.offer (record : HistoryRecord) (now : ℚ) :
    Accounted settings (queue.offer settings record now true).1 := by
  rcases offer_cases settings queue record now true with
    ⟨queued, room, fits⟩ | ⟨-, reason, refused⟩ | ⟨uncounted, -⟩
  · rw [queued]
    exact accounted.append room fits
  · rw [refused]
    refine { accounted with refused := ?_ }
    have before := accounted.refused
    simp only [pendingRefusals, Refusals.total_add] at before ⊢
    omega
  · simp at uncounted

theorem Accounted.queueGapReport (gapRecord : Option HistoryRecord) (now : ℚ) :
    Accounted settings (queue.queueGapReport settings gapRecord now) := by
  have before := accounted.refused
  unfold HistoryQueue.queueGapReport
  split_ifs with skipped
  · exact accounted
  · cases gapRecord with
    | none =>
      refine { accounted with refused := ?_ }
      simpa [pendingRefusals] using before
    | some record =>
      dsimp only
      rcases offer_cases settings { queue with refusals := {} } record now false with
        ⟨queued, room, fits⟩ | ⟨counted, -⟩ | ⟨-, refused⟩
      · rw [queued, if_pos rfl]
        refine { accounted.append room fits with refused := ?_ }
        simpa [pendingRefusals] using before
      · simp at counted
      · rw [refused, if_neg (by simp)]
        refine { accounted with refused := ?_ }
        simpa [pendingRefusals] using before

theorem Accounted.settle {batch : List HistoryRecord}
    {unwritable : List Bool} (front : batch <+: queue.items)
    (each : unwritable.length = batch.length) :
    (queue.settle batch unwritable).2 = true ∧
      Accounted settings (queue.settle batch unwritable).1 := by
  rcases front with ⟨rest, whole⟩
  have popped : popBatch queue.items queue.bytes batch =
      (rest, queue.bytes - sizes batch, true) := by
    rw [← whole]
    exact popBatch_append batch rest queue.bytes
  have flags : (batch.zip unwritable).map Prod.snd = unwritable := by
    apply List.map_snd_zip
    omega
  have drops : (batch.zip unwritable).countP (fun entry => entry.2) = unwritable.count true := by
    conv_rhs => rw [← flags]
    rw [List.count, List.countP_map]
    apply List.countP_congr
    simp
  have commits : (batch.zip unwritable).countP (fun entry => !entry.2) + unwritable.count true =
      batch.length := by
    have all := List.length_eq_countP_add_countP (fun entry : HistoryRecord × Bool => entry.2)
      (l := batch.zip unwritable)
    simp only [List.length_zip, drops] at all
    simp only [Bool.decide_eq_false, Bool.not_eq_true] at all
    omega
  unfold HistoryQueue.settle
  rw [popped]
  dsimp only
  rw [if_pos rfl]
  have length : queue.items.length = batch.length + rest.length := by
    rw [← whole, List.length_append]
  have bytes : queue.bytes = sizes batch + sizes rest := by
    rw [accounted.bytes, ← whole, sizes_append]
  refine ⟨rfl, ?_, ?_, ?_, ?_, ?_, ?_, accounted.refused, ?_⟩
  · have before := accounted.records
    dsimp only
    omega
  · have before := accounted.bounded
    have positive := sizes_nonneg batch
    dsimp only
    omega
  · dsimp only
    omega
  · dsimp only
    rw [List.map_append, List.map_fst_zip (by omega), List.append_assoc, whole]
    exact accounted.accepted
  · have before := accounted.committed
    simp only [List.countP_append]
    omega
  · have before := accounted.dropped
    simp only [List.countP_append]
    omega
  · simp

end

end HistoryQueue

end HybridInference.Alerts
