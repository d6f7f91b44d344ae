import HybridInference.Library.Machine
import HybridInference.Library.WaitLine
import Mathlib.Algebra.Order.Field.Rat

/-!
# The outbound concurrency limiter

`_Bucket`, `UpstreamSlot` and `UpstreamConcurrencyLimiter.acquire` of
`serving.adapters.upstream_limiter`, for one (provider, key) pair on one event
loop. Each event below is a block of the source with no `await` in it.

A queued `acquire` is suspended in `asyncio.wait_for`. A timeout or a
cancellation cancels its future if that is still pending; the coroutine resumes
later, with a slot if its future was resolved, or through `abandon` with an
exception. Which of the two wins when both land in one tick differs between the
Python versions the project supports, so both are possible here.
-/

namespace HybridInference.Limiter

open Library

/-- The tunables as `__init__` clamps them. -/
structure LimiterSettings where
  maxLimit : ℕ
  initialLimit : ℕ
  probeSuccessInterval : ℕ
  acquireTimeout : ℚ

def LimiterSettings.init (initialLimit maxLimit probeSuccessInterval : ℤ) (acquireTimeout : ℚ) :
    LimiterSettings :=
  let ceiling := max 1 maxLimit
  { maxLimit := ceiling.toNat
    initialLimit := (min ceiling (max 1 initialLimit)).toNat
    probeSuccessInterval := (max 1 probeSuccessInterval).toNat
    acquireTimeout := acquireTimeout }

/-- `_Bucket`: its limit, count and queue are those of the line. -/
structure Bucket where
  line : Line
  maxLimit : ℕ
  probeSuccessInterval : ℕ
  successesSinceProbe : ℕ := 0
  probing : Bool := false
  deriving DecidableEq

namespace Bucket

def limit (bucket : Bucket) : ℕ := bucket.line.limit

def inFlight (bucket : Bucket) : ℕ := bucket.line.held

def hasFreeSlot (bucket : Bucket) : Bool :=
  bucket.line.waiters.isEmpty && bucket.inFlight < bucket.limit

theorem hasFreeSlot_iff {bucket : Bucket} : bucket.hasFreeSlot = true ↔
    bucket.line.waiters = [] ∧ bucket.line.held < bucket.line.limit := by
  simp only [hasFreeSlot, Bool.and_eq_true, List.isEmpty_iff, decide_eq_true_eq]
  exact Iff.rfl

def withLimit (bucket : Bucket) (limit : ℕ) : Bucket :=
  { bucket with line := { bucket.line with limit := limit } }

def decrease (bucket : Bucket) : Bucket :=
  { bucket.withLimit (max 1 (bucket.limit - 1)) with probing := false, successesSinceProbe := 0 }

/-- `_count_success`: one step up every `probe_success_interval` answers. -/
def countSuccess (bucket : Bucket) : Bucket :=
  if bucket.successesSinceProbe + 1 < bucket.probeSuccessInterval then
    { bucket with successesSinceProbe := bucket.successesSinceProbe + 1 }
  else
    { bucket.withLimit (min bucket.maxLimit (bucket.limit + 1)) with
      probing := true, successesSinceProbe := 0 }

def tune (bucket : Bucket) (status : Option ℤ) : Bucket :=
  if status = some 429 then bucket.decrease
  else if status = some 200 then bucket.countSuccess
  else bucket

/-- `complete`, for the slot of caller `id`. -/
def complete (bucket : Bucket) (id : ℕ) (status : Option ℤ) : Bucket :=
  { bucket.tune status with line := bucket.line.giveBack id (bucket.tune status).limit }

end Bucket

/-- How an `acquire` ended. -/
inductive Outcome where
  | slot
  | saturated
  | queueWaitExpired
  | raised
  deriving DecidableEq

/-- One `acquire`: when it queued and for how long, and how it ended. -/
structure Request where
  since : ℚ
  wait : ℚ
  deadlineBound : Bool
  timedOut : Bool
  outcome : Option Outcome
  deriving DecidableEq

def queueWait (acquireTimeout now : ℚ) (deadline : Option ℚ) : ℚ × Bool :=
  match deadline with
  | none => (acquireTimeout, false)
  | some deadline =>
    if deadline - now < acquireTimeout then (deadline - now, true) else (acquireTimeout, false)

/-- The bucket, and the `acquire` calls made on it in order of arrival. -/
structure BucketWorld where
  bucket : Bucket
  requests : List Request
  now : ℚ
  deriving DecidableEq

inductive BucketEvent where
  | acquire (now : ℚ) (deadline : Option ℚ)
  | timeout (id : ℕ) (now : ℚ)
  | cancel (id : ℕ)
  | resume (id : ℕ)
  | expire (id : ℕ)
  | abort (id : ℕ)
  | release (id : ℕ) (status : Option ℤ)

namespace BucketWorld

/-- A bucket as `_bucket_for` makes it. -/
def fresh (limiter : LimiterSettings) (now : ℚ) : BucketWorld :=
  { bucket :=
      { line := { limit := limiter.initialLimit }
        maxLimit := limiter.maxLimit
        probeSuccessInterval := limiter.probeSuccessInterval }
    requests := []
    now := now }

def withLine (world : BucketWorld) (line : Line) : BucketWorld :=
  { world with bucket := { world.bucket with line := line } }

/-- `acquire` up to its first `await`. -/
def acquire (limiter : LimiterSettings) (world : BucketWorld) (now : ℚ) (deadline : Option ℚ) :
    BucketWorld :=
  let line := world.bucket.line
  if world.bucket.hasFreeSlot then
    { world.withLine (line.take false) with
      requests := world.requests ++ [⟨now, 0, false, false, some .slot⟩]
      now := now }
  else
    let wait := queueWait limiter.acquireTimeout now deadline
    if wait.2 && wait.1 ≤ 0 then
      { world.withLine line.turnAway with
        requests := world.requests ++ [⟨now, wait.1, wait.2, false, some .queueWaitExpired⟩]
        now := now }
    else
      { world.withLine line.enqueue with
        requests := world.requests ++ [⟨now, wait.1, wait.2, false, none⟩]
        now := now }

/-- The `acquire` of caller `id` ends with `outcome`. -/
def ended (world : BucketWorld) (id : ℕ) (outcome : Request → Outcome) : BucketWorld :=
  { world with
    requests := world.requests.modify id fun request =>
      { request with outcome := some (outcome request) } }

/-- What `acquire` raises after a timeout. -/
def timeoutOutcome (request : Request) : Outcome :=
  if request.deadlineBound then .queueWaitExpired else .saturated

def isQueued (world : BucketWorld) (id : ℕ) : Bool :=
  match world.bucket.line.callers[id]? with
  | some (.queued _) => true
  | _ => false

def step (limiter : LimiterSettings) (world : BucketWorld) : BucketEvent → Option BucketWorld
  | .acquire now deadline =>
    if world.now ≤ now then some (world.acquire limiter now deadline) else none
  | .timeout id now =>
    match world.requests[id]? with
    | none => none
    | some request =>
      if world.isQueued id ∧ world.now ≤ now ∧ request.since + request.wait ≤ now then
        some { world.withLine (world.bucket.line.interrupt id) with
          requests := world.requests.modify id fun request => { request with timedOut := true }
          now := now }
      else none
  | .cancel id =>
    if world.isQueued id then some (world.withLine (world.bucket.line.interrupt id)) else none
  | .resume id =>
    if world.bucket.line.callers[id]? = some (.queued .resolved) then
      some ((world.withLine (world.bucket.line.resume id)).ended id fun _ => .slot)
    else none
  | .expire id =>
    if world.isQueued id ∧ (world.requests[id]?.map Request.timedOut) = some true then
      some ((world.withLine (world.bucket.line.abandon id)).ended id timeoutOutcome)
    else none
  | .abort id =>
    if world.isQueued id then
      some ((world.withLine (world.bucket.line.abandon id)).ended id fun _ => .raised)
    else none
  | .release id status =>
    match world.bucket.line.callers[id]? with
    | some .holding => some { world with bucket := world.bucket.complete id status }
    | some .gone => some world
    | _ => none

end BucketWorld

def bucketMachine (limiter : LimiterSettings) : Machine BucketWorld BucketEvent where
  step := BucketWorld.step limiter

theorem Bucket.tune_bounds {bucket : Bucket} (status : Option ℤ) (floor : 1 ≤ bucket.limit)
    (ceiling : bucket.limit ≤ bucket.maxLimit) :
    1 ≤ (bucket.tune status).limit ∧
      (bucket.tune status).limit ≤ (bucket.tune status).maxLimit := by
  unfold Bucket.tune Bucket.decrease Bucket.countSuccess
  split_ifs <;> simp only [Bucket.withLimit, Bucket.limit] at floor ceiling ⊢ <;> omega

/-- The line is sound, the limit within its bounds, and no slot was ever granted
past the limit. -/
structure BucketInvariant (world : BucketWorld) : Prop where
  sound : world.bucket.line.Sound
  floor : 1 ≤ world.bucket.limit
  ceiling : world.bucket.limit ≤ world.bucket.maxLimit
  normal : ∀ take ∈ world.bucket.line.takes, take.overflow = false

section Steps

variable {limiter : LimiterSettings} {world next : BucketWorld} {id : ℕ}

theorem BucketInvariant.fresh (initialLimit maxLimit probeSuccessInterval : ℤ)
    (acquireTimeout now : ℚ) :
    BucketInvariant
      (.fresh (.init initialLimit maxLimit probeSuccessInterval acquireTimeout) now) := by
  constructor
  · constructor
    · constructor <;> simp [BucketWorld.fresh]
    · simp [BucketWorld.fresh]
  · simp only [Bucket.limit, BucketWorld.fresh, LimiterSettings.init]
    omega
  · simp only [Bucket.limit, BucketWorld.fresh, LimiterSettings.init]
    omega
  · simp [BucketWorld.fresh]

section

variable (holds : BucketInvariant world)

include holds

theorem BucketInvariant.withLine {line : Line}
    (sound : line.Sound) (limit : line.limit = world.bucket.line.limit)
    (takes : ∀ take ∈ line.takes, take ∈ world.bucket.line.takes ∨ take.overflow = false) :
    BucketInvariant (world.withLine line) where
  sound := sound
  floor := by
    have := holds.floor
    simpa only [Bucket.limit, BucketWorld.withLine, limit] using this
  ceiling := by
    have := holds.ceiling
    simpa only [Bucket.limit, BucketWorld.withLine, limit] using this
  normal := by
    intro take member
    rcases takes take member with earlier | normal
    · exact holds.normal take earlier
    · exact normal

theorem BucketInvariant.of_bucket (same : next.bucket = world.bucket) : BucketInvariant next := by
  constructor
  · rw [same]
    exact holds.sound
  · rw [same]
    exact holds.floor
  · rw [same]
    exact holds.ceiling
  · rw [same]
    exact holds.normal

theorem BucketInvariant.acquire (now : ℚ)
    (deadline : Option ℚ) : BucketInvariant (world.acquire limiter now deadline) := by
  unfold BucketWorld.acquire
  dsimp only
  split_ifs with free expired
  · have room := Bucket.hasFreeSlot_iff.mp free
    refine BucketInvariant.of_bucket (holds.withLine (holds.sound.take fun _ => room) rfl ?_) rfl
    intro take member
    rcases List.mem_append.mp member with earlier | last
    · exact Or.inl earlier
    · right
      rw [List.mem_singleton.mp last]
  · exact BucketInvariant.of_bucket
      (holds.withLine holds.sound.turnAway rfl fun _ member => Or.inl member) rfl
  · have blocked : world.bucket.line.waiters ≠ [] ∨
        world.bucket.line.limit ≤ world.bucket.line.held := by
      by_contra room
      simp only [not_or, not_not, Nat.not_le] at room
      exact free (Bucket.hasFreeSlot_iff.mpr room)
    exact BucketInvariant.of_bucket
      (holds.withLine (holds.sound.enqueue blocked) rfl fun _ member => Or.inl member) rfl

theorem BucketInvariant.complete (status : Option ℤ)
    (holding : world.bucket.line.callers[id]? = some .holding) :
    BucketInvariant { world with bucket := world.bucket.complete id status } := by
  have bounds := Bucket.tune_bounds status holds.floor holds.ceiling
  constructor
  · exact holds.sound.toConsistent.giveBack holding rfl _
  · simpa [Bucket.limit, Bucket.complete] using bounds.1
  · simpa [Bucket.limit, Bucket.complete] using bounds.2
  · intro take member
    rcases Line.giveBack_takes member with earlier | normal
    · exact holds.normal take earlier
    · exact normal

end

theorem isQueued_iff : world.isQueued id = true ↔
    ∃ future, world.bucket.line.callers[id]? = some (.queued future) := by
  unfold BucketWorld.isQueued
  split
  · next future found => simp [found]
  · next other =>
      simp only [Bool.false_eq_true, false_iff, not_exists]
      exact other

theorem BucketInvariant.abandon (holds : BucketInvariant world)
    (queued : world.isQueued id = true) :
    BucketInvariant (world.withLine (world.bucket.line.abandon id)) := by
  rcases isQueued_iff.mp queued with ⟨future, found⟩
  exact holds.withLine (holds.sound.abandon found) (Line.abandon_limit _ _) fun _ member =>
    Line.abandon_takes member

theorem BucketInvariant.interrupt (holds : BucketInvariant world) (id : ℕ) :
    BucketInvariant (world.withLine (world.bucket.line.interrupt id)) :=
  holds.withLine holds.sound.interrupt (Line.interrupt_limit _ _) fun _ member =>
    Or.inl (by simpa using member)

theorem BucketInvariant.step {event : BucketEvent} (holds : BucketInvariant world)
    (stepped : (bucketMachine limiter).step world event = some next) : BucketInvariant next := by
  cases event with
  | acquire now deadline =>
    simp only [bucketMachine, BucketWorld.step, Option.ite_none_right_eq_some,
      Option.some.injEq] at stepped
    rcases stepped with ⟨-, rfl⟩
    exact holds.acquire now deadline
  | timeout id now =>
    simp only [bucketMachine, BucketWorld.step] at stepped
    split at stepped
    · simp at stepped
    · simp only [Option.ite_none_right_eq_some, Option.some.injEq] at stepped
      rcases stepped with ⟨-, rfl⟩
      exact BucketInvariant.of_bucket (holds.interrupt id) rfl
  | cancel id =>
    simp only [bucketMachine, BucketWorld.step, Option.ite_none_right_eq_some,
      Option.some.injEq] at stepped
    rcases stepped with ⟨-, rfl⟩
    exact holds.interrupt id
  | resume id =>
    simp only [bucketMachine, BucketWorld.step, Option.ite_none_right_eq_some,
      Option.some.injEq] at stepped
    rcases stepped with ⟨granted, rfl⟩
    exact BucketInvariant.of_bucket
      (holds.withLine (holds.sound.resume granted) rfl fun _ member => Or.inl member) rfl
  | expire id =>
    simp only [bucketMachine, BucketWorld.step, Option.ite_none_right_eq_some,
      Option.some.injEq] at stepped
    rcases stepped with ⟨⟨queued, -⟩, rfl⟩
    exact BucketInvariant.of_bucket (holds.abandon queued) rfl
  | abort id =>
    simp only [bucketMachine, BucketWorld.step, Option.ite_none_right_eq_some,
      Option.some.injEq] at stepped
    rcases stepped with ⟨queued, rfl⟩
    exact BucketInvariant.of_bucket (holds.abandon queued) rfl
  | release id status =>
    simp only [bucketMachine, BucketWorld.step] at stepped
    split at stepped
    · next holding =>
        cases stepped
        exact holds.complete status holding
    · cases stepped
      exact holds
    · simp at stepped

/-- The limiter's bucket in every reachable state: exact counts, a limit within its bounds, nobody
waiting while there is room, and the order of arrival kept. -/
theorem bucket_discipline {initialLimit maxLimit probeSuccessInterval : ℤ}
    {acquireTimeout start : ℚ} {events : List BucketEvent}
    (ran : (bucketMachine (.init initialLimit maxLimit probeSuccessInterval acquireTimeout)).run
      (.fresh (.init initialLimit maxLimit probeSuccessInterval acquireTimeout) start) events =
        some world) :
    (world.bucket.inFlight = world.bucket.line.callers.countP (· = .holding) +
        world.bucket.line.callers.countP (· = .queued .resolved)) ∧
    (1 ≤ world.bucket.limit ∧ world.bucket.limit ≤ world.bucket.maxLimit ∧
      ∀ take ∈ world.bucket.line.takes, take.held < take.limit) ∧
    (∀ id, world.bucket.line.callers[id]? = some (.queued .pending) →
      id ∈ world.bucket.line.waiters ∧ world.bucket.limit ≤ world.bucket.inFlight) ∧
    (world.bucket.line.takes.Pairwise (fun first second => first.caller < second.caller) ∧
      ∀ take ∈ world.bucket.line.takes, ∀ id,
        world.bucket.line.callers[id]? = some (.queued .pending) → take.caller < id) ∧
    (world.bucket.line.returned.Nodup ∧
      (∀ id ∈ world.bucket.line.returned, world.bucket.line.callers[id]? = some .gone) ∧
      ∀ id status next, world.bucket.line.callers[id]? = some .gone →
        (bucketMachine (.init initialLimit maxLimit probeSuccessInterval acquireTimeout)).step
          world (.release id status) = some next → next = world) := by
  have holds : BucketInvariant world :=
    Machine.run_invariant (fun _ _ _ holds stepped => BucketInvariant.step holds stepped)
      (.fresh initialLimit maxLimit probeSuccessInterval acquireTimeout start) ran
  have sound := holds.sound
  refine ⟨?_, ⟨holds.floor, holds.ceiling, ?_⟩, ?_, ⟨?_, ?_⟩, sound.once, sound.left, ?_⟩
  · rw [← countP_occupies]
    exact sound.count
  · intro take member
    exact sound.room take member (holds.normal take member)
  · intro id pending
    have waits := sound.waiting id pending
    exact ⟨waits, sound.busy (List.ne_nil_of_mem waits)⟩
  · refine sound.order.imp_of_mem ?_
    intro first second firstMember secondMember before
    exact before (holds.normal first firstMember) (holds.normal second secondMember)
  · intro take member id pending
    exact sound.ahead take member (holds.normal take member) id (sound.waiting id pending)
  · intro id status next gone stepped
    simp only [bucketMachine, BucketWorld.step, gone] at stepped
    exact (Option.some.inj stepped).symm

/-- A limit of one: the second caller queues, is granted the slot the first one
releases, and times out in the same tick, so the slot goes back. -/
theorem bucket_discipline_timeout_races_grant : ∃ world,
      (bucketMachine (.init 1 64 100 30)).run (.fresh (.init 1 64 100 30) 0)
          [.acquire 0 none, .acquire 1 none, .release 0 (some 200), .timeout 1 31, .expire 1] =
        some world ∧
      world.bucket.line.takes = [⟨0, 0, 1, false⟩, ⟨1, 0, 1, false⟩] ∧
      world.bucket.inFlight = 0 ∧ world.bucket.line.returned.Nodup := by
  have ran : (bucketMachine (.init 1 64 100 30)).run (.fresh (.init 1 64 100 30) 0)
      [.acquire 0 none, .acquire 1 none, .release 0 (some 200), .timeout 1 31, .expire 1] =
    some
      { bucket :=
          { line :=
              { limit := 1
                callers := [.gone, .gone]
                takes := [⟨0, 0, 1, false⟩, ⟨1, 0, 1, false⟩]
                returned := [0, 1] }
            maxLimit := 64
            probeSuccessInterval := 100
            successesSinceProbe := 1 }
        requests := [⟨0, 0, false, false, some .slot⟩, ⟨1, 30, false, true, some .saturated⟩]
        now := 31 } := by
    decide +kernel
  rcases bucket_discipline ran with ⟨count, -, -, -, once, -⟩
  exact ⟨_, ran, rfl, count, once⟩

end Steps

end HybridInference.Limiter
