import HybridInference.Alerts.HistoryQueue
import HybridInference.Library.Machine

/-!
# The writer of alert history

`HistoryWriter` of `serving.observability.alert_history.queue`: its loop and
`stop`. An event is a block of the source with no `await` in it; the clock, what
the hook before a batch offers, whether a gap record could be built and how a
storage call ended come with the event. The runtime calls `stop` once.

A cancelled task raises at its next step, which is queued before the timer of
the grace period can fire, so the drain of `stop` begins when the loop has ended.
-/

namespace HybridInference.Alerts

open Library

inductive Flush where
  | idle
  | writing (batch : List HistoryRecord)
  | beating
  deriving DecidableEq

inductive StopStage where
  | notCalled
  | waiting
  | cancelling
  | draining (flush : Flush)
  | returned
  deriving DecidableEq

/-- How an await of a flush ended: the storage call returned (with the records of
the batch that were unwritable), it raised, timed out or hung, or the task was
cancelled. -/
inductive FlushOutcome where
  | committed (unwritable : List Bool)
  | failed
  | cancelled
  deriving DecidableEq

inductive Flusher where
  | loop
  | drain
  deriving DecidableEq

structure HistoryWorld where
  queue : HistoryQueue := {}
  /-- The task of the loop, while it runs. -/
  loop : Option Flush := none
  stopping : Bool := false
  stop : StopStage := .notCalled
  lastHeartbeat : ℚ := 0
  /-- `settle` raised. -/
  headChanged : Bool := false

inductive HistoryEvent where
  | offer (record : HistoryRecord) (now : ℚ)
  | close
  | start
  | flush (who : Flusher) (hooked : List HistoryRecord) (gapRecord : Option HistoryRecord)
      (now : ℚ)
  | outcome (who : Flusher) (outcome : FlushOutcome) (now : ℚ)
  | endLoop
  | stop
  | budgetOver
  | waitOver
  | endDrain
  | cancelStop

/-- `flush_once` up to its `await`. -/
def flushOnce (settings : HistorySettings) (queue : HistoryQueue) (lastHeartbeat : ℚ)
    (hooked : List HistoryRecord) (gapRecord : Option HistoryRecord) (now : ℚ) :
    HistoryQueue × Flush :=
  let offered := hooked.foldl (fun queue record => (queue.offer settings record now true).1) queue
  let reported := offered.queueGapReport settings gapRecord now
  let batch := reported.peekBatch
  let peeked := { reported with inFlight := batch.length }
  if batch.isEmpty then
    if now - lastHeartbeat < settings.heartbeatInterval then (peeked, .idle) else (peeked, .beating)
  else (peeked, .writing batch)

/-- `flush_once` after its `await`: the queue, and whether it raised that the head
changed. -/
def concludeFlush (queue : HistoryQueue) : Flush → FlushOutcome → Option (HistoryQueue × Bool)
  | .writing batch, .committed unwritable =>
    if unwritable.length = batch.length then
      some ((queue.settle batch unwritable).1, !(queue.settle batch unwritable).2)
    else none
  | .writing batch, .failed | .writing batch, .cancelled =>
    some (queue.releaseInFlight batch, false)
  | .beating, _ | .idle, .cancelled => some (queue, false)
  | .idle, _ => none

def afterFlush (outcome : FlushOutcome) (raised : Bool) : Option Flush :=
  if outcome = .cancelled || raised then none else some .idle

namespace HistoryWorld

def step (settings : HistorySettings) (world : HistoryWorld) : HistoryEvent → Option HistoryWorld
  | .offer record now => some { world with queue := (world.queue.offer settings record now true).1 }
  | .close => some { world with queue := world.queue.close }
  | .start =>
    if world.loop.isNone && !world.stopping then some { world with loop := some .idle }
    else some world
  | .flush .loop hooked gapRecord now =>
    if world.loop = some .idle ∧ world.stopping = false then
      let flushed := flushOnce settings world.queue world.lastHeartbeat hooked gapRecord now
      some { world with queue := flushed.1, loop := some flushed.2 }
    else none
  | .flush .drain hooked gapRecord now =>
    if world.stop = .draining .idle ∧
        (world.queue.items ≠ [] ∨ world.queue.pendingRefusals ≠ 0) then
      let flushed := flushOnce settings world.queue world.lastHeartbeat hooked gapRecord now
      some { world with queue := flushed.1, stop := .draining flushed.2 }
    else none
  | .outcome .loop outcome now =>
    match world.loop with
    | some flush =>
      if world.stop = .cancelling ∧ outcome ≠ .cancelled then none
      else
        (concludeFlush world.queue flush outcome).map fun concluded =>
          { world with
            queue := concluded.1
            loop := afterFlush outcome concluded.2
            lastHeartbeat :=
              if outcome = .failed ∨ outcome = .cancelled ∨ concluded.2 = true then
                world.lastHeartbeat
              else now
            headChanged := world.headChanged || concluded.2 }
    | none => none
  | .outcome .drain outcome now =>
    match world.stop with
    | .draining flush =>
      (concludeFlush world.queue flush outcome).map fun concluded =>
        { world with
          queue := concluded.1
          stop :=
            match afterFlush outcome concluded.2 with
            | some flush => .draining flush
            | none => .returned
          lastHeartbeat :=
            if outcome = .failed ∨ outcome = .cancelled ∨ concluded.2 = true then
              world.lastHeartbeat
            else now
          headChanged := world.headChanged || concluded.2 }
    | _ => none
  | .endLoop =>
    if world.loop = some .idle ∧ world.stopping = true then some { world with loop := none }
    else none
  | .stop =>
    if world.stop = .notCalled then
      some { world with
        stopping := true
        stop := if world.loop.isSome then .waiting else .draining .idle }
    else none
  | .budgetOver =>
    if world.stop = .waiting ∧ world.loop.isSome = true then
      some { world with stop := .cancelling }
    else none
  | .waitOver =>
    if (world.stop = .waiting ∨ world.stop = .cancelling) ∧ world.loop = none then
      some { world with stop := .draining .idle }
    else none
  | .endDrain =>
    if world.stop = .draining .idle then some { world with stop := .returned } else none
  | .cancelStop =>
    if world.stop = .waiting ∨ world.stop = .cancelling then
      some { world with stop := .returned }
    else none

end HistoryWorld

def historyMachine (settings : HistorySettings) : Machine HistoryWorld HistoryEvent where
  step := HistoryWorld.step settings

def Fits (queue : HistoryQueue) : Flush → Prop
  | .writing batch => ∃ older, older <+: queue.items ∧ batch = peekFrom 0 0 older ∧
      ∀ failed ∈ queue.retry, failed <+: batch
  | .idle | .beating => True

section Flushes

variable {settings : HistorySettings} {queue : HistoryQueue}

theorem Fits.front {batch : List HistoryRecord} (fits : Fits queue (.writing batch)) :
    batch <+: queue.items := by
  rcases fits with ⟨older, front, rfl, -⟩
  exact (peekFrom_front 0 0 older).trans front

theorem Fits.offer {flush : Flush} (fits : Fits queue flush) (record : HistoryRecord) (now : ℚ) :
    Fits (queue.offer settings record now true).1 flush := by
  cases flush with
  | idle => trivial
  | beating => trivial
  | writing batch =>
    rcases fits with ⟨older, front, taken, failed⟩
    rcases HistoryQueue.offer_cases settings queue record now true with
      ⟨queued, -⟩ | ⟨-, reason, refused⟩ | ⟨uncounted, -⟩
    · rw [queued]
      exact ⟨older, front.trans (List.prefix_append _ _), taken, failed⟩
    · rw [refused]
      exact ⟨older, front, taken, failed⟩
    · simp at uncounted

section

variable (accounted : queue.Accounted settings)

include accounted

theorem accounted_foldl_offer (hooked : List HistoryRecord) (now : ℚ) :
    (hooked.foldl (fun queue record => (queue.offer settings record now true).1) queue).Accounted
      settings := by
  induction hooked generalizing queue with
  | nil => exact accounted
  | cons record rest ih => exact ih (accounted.offer record now)

theorem flushOnce_accounted (lastHeartbeat : ℚ)
    (hooked : List HistoryRecord) (gapRecord : Option HistoryRecord) (now : ℚ) :
    (flushOnce settings queue lastHeartbeat hooked gapRecord now).1.Accounted settings ∧
      Fits (flushOnce settings queue lastHeartbeat hooked gapRecord now).1
        (flushOnce settings queue lastHeartbeat hooked gapRecord now).2 := by
  have reported := (accounted_foldl_offer accounted hooked now).queueGapReport gapRecord now
  have peeked : HistoryQueue.Accounted settings
      { ((hooked.foldl (fun queue record => (queue.offer settings record now true).1)
          queue).queueGapReport settings gapRecord now) with
        inFlight := (((hooked.foldl (fun queue record => (queue.offer settings record now true).1)
          queue).queueGapReport settings gapRecord now)).peekBatch.length } :=
    { reported with }
  unfold flushOnce
  dsimp only
  split
  · split
    · exact ⟨peeked, trivial⟩
    · exact ⟨peeked, trivial⟩
  · refine ⟨peeked, _, List.prefix_refl _, rfl, ?_⟩
    intro failed waiting
    rcases reported.retry failed waiting with ⟨older, front, rfl⟩
    exact peekFrom_mono 0 0 front

theorem concludeFlush_accounted {flush : Flush}
    (fits : Fits queue flush) {outcome : FlushOutcome} {concluded : HistoryQueue × Bool}
    (ended : concludeFlush queue flush outcome = some concluded) :
    concluded.1.Accounted settings ∧ concluded.2 = false := by
  cases flush with
  | idle =>
    cases outcome with
    | committed unwritable => simp [concludeFlush] at ended
    | failed => simp [concludeFlush] at ended
    | cancelled =>
      cases ended
      exact ⟨accounted, rfl⟩
  | beating =>
    cases ended
    exact ⟨accounted, rfl⟩
  | writing batch =>
    have released : (queue.releaseInFlight batch).Accounted settings := by
      refine { accounted with retry := ?_ }
      intro failed retried
      cases retried
      rcases fits with ⟨older, front, taken, -⟩
      exact ⟨older, front, taken⟩
    cases outcome with
    | committed unwritable =>
      simp only [concludeFlush] at ended
      split_ifs at ended with each
      cases ended
      have settled := accounted.settle fits.front each
      exact ⟨settled.2, by simp [settled.1]⟩
    | failed | cancelled =>
      cases ended
      exact ⟨released, rfl⟩

end

end Flushes

/-- The laws of the queue, of the batch in flight and of who may write. -/
structure HistoryWorld.Sound (settings : HistorySettings) (world : HistoryWorld) : Prop where
  accounted : world.queue.Accounted settings
  head : world.headChanged = false
  loop : ∀ flush, world.loop = some flush → Fits world.queue flush
  drain : ∀ flush, world.stop = .draining flush → world.loop = none ∧ Fits world.queue flush
  stopped : world.stop ≠ .notCalled → world.stopping = true

namespace HistoryWorld

variable {settings : HistorySettings} {world next : HistoryWorld}

theorem Sound.offer (sound : world.Sound settings) (record : HistoryRecord) (now : ℚ) :
    Sound settings { world with queue := (world.queue.offer settings record now true).1 } where
  accounted := sound.accounted.offer record now
  head := sound.head
  loop := fun flush running => (sound.loop flush running).offer record now
  drain := fun flush draining =>
    ⟨(sound.drain flush draining).1, (sound.drain flush draining).2.offer record now⟩
  stopped := sound.stopped

theorem Sound.close (sound : world.Sound settings) :
    Sound settings { world with queue := world.queue.close } where
  accounted := { sound.accounted with }
  head := sound.head
  loop := by
    intro flush running
    cases flush with
    | writing batch => exact sound.loop _ running
    | idle => trivial
    | beating => trivial
  drain := by
    intro flush draining
    refine ⟨(sound.drain flush draining).1, ?_⟩
    cases flush with
    | writing batch => exact (sound.drain _ draining).2
    | idle => trivial
    | beating => trivial
  stopped := sound.stopped

theorem Sound.flush (sound : world.Sound settings) {who : Flusher} {hooked : List HistoryRecord}
    {gapRecord : Option HistoryRecord} {now : ℚ}
    (stepped : (historyMachine settings).step world (.flush who hooked gapRecord now) = some next) :
    next.Sound settings := by
  have flushed := flushOnce_accounted sound.accounted world.lastHeartbeat hooked gapRecord now
  cases who with
  | loop =>
    simp only [historyMachine, HistoryWorld.step] at stepped
    split at stepped
    · next idle =>
        cases stepped
        refine ⟨flushed.1, sound.head, ?_, ?_, sound.stopped⟩
        · intro flush running
          cases running
          exact flushed.2
        · intro flush draining
          have ended := (sound.drain flush draining).1
          rw [idle.1] at ended
          cases ended
    · cases stepped
  | drain =>
    simp only [historyMachine, HistoryWorld.step] at stepped
    split at stepped
    · next idle =>
        have ended := (sound.drain .idle idle.1).1
        cases stepped
        refine ⟨flushed.1, sound.head, ?_, ?_, ?_⟩
        · intro flush running
          rw [ended] at running
          cases running
        · intro flush draining
          cases draining
          exact ⟨ended, flushed.2⟩
        · intro _
          exact sound.stopped (by simp [idle.1])
    · cases stepped

theorem afterFlush_cases {outcome : FlushOutcome} {raised : Bool} {flush : Flush}
    (after : afterFlush outcome raised = some flush) : flush = .idle := by
  unfold afterFlush at after
  split at after <;> cases after
  rfl

theorem Sound.outcome (sound : world.Sound settings) {who : Flusher} {outcome : FlushOutcome}
    {now : ℚ}
    (stepped : (historyMachine settings).step world (.outcome who outcome now) = some next) :
    next.Sound settings := by
  cases who with
  | loop =>
    simp only [historyMachine, HistoryWorld.step] at stepped
    split at stepped
    · next flush running =>
        split at stepped
        · cases stepped
        · rcases Option.map_eq_some_iff.mp stepped with ⟨concluded, ended, rfl⟩
          have kept := concludeFlush_accounted sound.accounted (sound.loop flush running) ended
          refine ⟨kept.1, by simp [sound.head, kept.2], ?_, ?_, sound.stopped⟩
          · intro later after
            rw [afterFlush_cases after]
            trivial
          · intro draining stage
            have gone := (sound.drain draining stage).1
            rw [running] at gone
            cases gone
    · cases stepped
  | drain =>
    simp only [historyMachine, HistoryWorld.step] at stepped
    split at stepped
    · next flush stage =>
        rcases sound.drain flush stage with ⟨gone, fits⟩
        rcases Option.map_eq_some_iff.mp stepped with ⟨concluded, ended, rfl⟩
        have kept := concludeFlush_accounted sound.accounted fits ended
        refine ⟨kept.1, by simp [sound.head, kept.2], ?_, ?_, ?_⟩
        · intro later running
          rw [gone] at running
          cases running
        · intro later draining
          refine ⟨gone, ?_⟩
          dsimp only at draining
          split at draining
          · next flush after =>
              cases draining
              rw [afterFlush_cases after]
              trivial
          · cases draining
        · intro _
          exact sound.stopped (by simp [stage])
    · cases stepped

theorem Sound.move (sound : world.Sound settings) (queue : next.queue = world.queue)
    (head : next.headChanged = world.headChanged)
    (loop : ∀ flush, next.loop = some flush → flush = .idle ∨ world.loop = some flush)
    (drain : ∀ flush, next.stop = .draining flush →
      next.loop = none ∧ (flush = .idle ∨ world.stop = .draining flush))
    (stopped : next.stop ≠ .notCalled → next.stopping = true) : next.Sound settings where
  accounted := queue ▸ sound.accounted
  head := head.trans sound.head
  loop := by
    intro flush running
    rw [queue]
    rcases loop flush running with rfl | earlier
    · trivial
    · exact sound.loop flush earlier
  drain := by
    intro flush draining
    rw [queue]
    rcases drain flush draining with ⟨gone, rfl | earlier⟩
    · exact ⟨gone, trivial⟩
    · exact ⟨gone, (sound.drain flush earlier).2⟩
  stopped := stopped

/-- One step of the writer keeps the queue's books. -/
theorem Sound.step (sound : world.Sound settings) {event : HistoryEvent}
    (stepped : (historyMachine settings).step world event = some next) : next.Sound settings := by
  cases event <;> simp only [historyMachine, HistoryWorld.step] at stepped
  case offer record now =>
    cases stepped
    exact sound.offer record now
  case close =>
    cases stepped
    exact sound.close
  case flush who hooked gapRecord now => exact sound.flush stepped
  case outcome who outcome now => exact sound.outcome stepped
  case start =>
    split at stepped
    · next free =>
        simp only [Bool.and_eq_true, Bool.not_eq_eq_eq_not, Bool.not_true] at free
        cases stepped
        refine sound.move rfl rfl ?_ ?_ sound.stopped
        · intro flush running
          cases running
          exact Or.inl rfl
        · intro flush draining
          dsimp only at draining
          have stopping := sound.stopped (by simp [draining])
          rw [free.2] at stopping
          cases stopping
    · cases stepped
      exact sound
  case endLoop =>
    split at stepped <;> cases stepped
    exact sound.move rfl rfl (by simp) (fun flush draining => ⟨rfl, Or.inr draining⟩)
      sound.stopped
  case stop =>
    split at stepped <;> cases stepped
    refine sound.move rfl rfl (fun flush running => Or.inr running) ?_ (fun _ => rfl)
    intro flush draining
    dsimp only at draining ⊢
    split at draining
    · cases draining
    · next gone =>
        cases draining
        exact ⟨by simpa using gone, Or.inl rfl⟩
  case budgetOver =>
    split at stepped
    · next waits =>
        cases stepped
        exact sound.move rfl rfl (fun flush running => Or.inr running) (by simp)
          (fun _ => sound.stopped (by simp [waits.1]))
    · cases stepped
  case waitOver =>
    split at stepped
    · next waited =>
        cases stepped
        refine sound.move rfl rfl (fun flush running => Or.inr running) ?_ ?_
        · intro flush draining
          cases draining
          exact ⟨waited.2, Or.inl rfl⟩
        · intro _
          rcases waited.1 with waits | cancels
          · exact sound.stopped (by simp [waits])
          · exact sound.stopped (by simp [cancels])
    · cases stepped
  case endDrain =>
    split at stepped
    · next drains =>
        cases stepped
        exact sound.move rfl rfl (fun flush running => Or.inr running) (by simp)
          (fun _ => sound.stopped (by simp [drains]))
    · cases stepped
  case cancelStop =>
    split at stepped
    · next waits =>
        cases stepped
        refine sound.move rfl rfl (fun flush running => Or.inr running) (by simp) ?_
        intro _
        rcases waits with waits | cancels
        · exact sound.stopped (by simp [waits])
        · exact sound.stopped (by simp [cancels])
    · cases stepped

theorem sound_initial (settings : HistorySettings) : Sound settings {} where
  accounted :=
    { records := Nat.zero_le _
      bounded := Int.natCast_nonneg _
      bytes := rfl
      accepted := rfl
      committed := rfl
      dropped := rfl
      refused := rfl
      retry := by simp }
  head := rfl
  loop := by simp
  drain := by simp
  stopped := by simp

/-- The batch is being written, by the loop or by the drain of `stop`. -/
def Writes (world : HistoryWorld) (batch : List HistoryRecord) : Prop :=
  world.loop = some (.writing batch) ∨ world.stop = .draining (.writing batch)

theorem Sound.fits_of_writes (sound : world.Sound settings) {batch : List HistoryRecord}
    (writes : world.Writes batch) : Fits world.queue (.writing batch) := by
  rcases writes with running | draining
  · exact sound.loop _ running
  · exact (sound.drain _ draining).2

end HistoryWorld

section Runs

variable {settings : HistorySettings} {world : HistoryWorld}

/-- Every accepted record is committed, counted as dropped or still queued, in order and within the
limits, and every refusal is counted. -/
theorem alert_history_loses_nothing_uncounted {events : List HistoryEvent}
    (ran : (historyMachine settings).run {} events = some world) :
    (world.queue.items.length ≤ settings.maxRecords ∧ world.queue.bytes ≤ settings.maxBytes ∧
      world.queue.bytes = sizes world.queue.items) ∧
    (world.queue.accepted = world.queue.settled.map Prod.fst ++ world.queue.items ∧
      world.queue.committedTotal = world.queue.settled.countP (fun entry => !entry.2) ∧
      world.queue.droppedTotal = world.queue.settled.countP (fun entry => entry.2)) ∧
    (∀ batch, world.Writes batch → batch <+: world.queue.items ∧
      ∀ failed ∈ world.queue.retry, failed <+: batch) ∧
    world.queue.refusedTotal = world.queue.carried + world.queue.pendingRefusals ∧
    world.headChanged = false := by
  have sound : world.Sound settings :=
    Machine.run_invariant (fun _ _ _ sound stepped => sound.step stepped)
      (HistoryWorld.sound_initial settings) ran
  refine ⟨⟨sound.accounted.records, sound.accounted.bounded, sound.accounted.bytes⟩,
    ⟨sound.accounted.accepted, sound.accounted.committed, sound.accounted.dropped⟩, ?_,
    sound.accounted.refused, sound.head⟩
  intro batch writes
  have fits := sound.fits_of_writes writes
  refine ⟨fits.front, ?_⟩
  rcases fits with ⟨older, -, -, failed⟩
  exact failed

/-- Three records in a queue of two; the write of the first two fails, and the stop
cancels their second write and drains them with the report of the refusal. -/
theorem alert_history_loses_nothing_uncounted_drained :
    let events : List HistoryEvent :=
      [.start, .offer ⟨1, 10⟩ 0, .offer ⟨2, 20⟩ 0, .offer ⟨3, 30⟩ 1,
        .flush .loop [] (some ⟨4, 5⟩) 1, .outcome .loop .failed 2,
        .flush .loop [] (some ⟨4, 5⟩) 3, .close, .stop, .budgetOver,
        .outcome .loop .cancelled 3, .waitOver, .flush .drain [] none 4,
        .outcome .drain (.committed [false, true]) 4,
        .flush .drain [] (some ⟨5, 5⟩) 5]
    ∃ world, (historyMachine { maxRecords := 2 }).run {} events = some world ∧
      world.queue.accepted.length = 3 ∧ world.queue.committedTotal = 1 ∧
      world.queue.droppedTotal = 1 ∧
      world.queue.refusedTotal = world.queue.carried + world.queue.pendingRefusals := by
  intro events
  have ends : ((historyMachine { maxRecords := 2 }).run {} events).map (fun world =>
        (world.queue.accepted.length, world.queue.committedTotal, world.queue.droppedTotal)) =
      some (3, 1, 1) := by
    decide +kernel
  rcases Option.map_eq_some_iff.mp ends with ⟨world, ran, shown⟩
  simp only [Prod.mk.injEq] at shown
  exact ⟨world, ran, shown.1, shown.2.1, shown.2.2,
    (alert_history_loses_nothing_uncounted ran).2.2.2.1⟩

end Runs

end HybridInference.Alerts
