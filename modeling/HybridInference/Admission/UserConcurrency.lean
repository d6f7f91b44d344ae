import HybridInference.Admission.InteractiveLoad
import HybridInference.Library.Machine

/-!
# Admission of interactive requests

`UserConcurrencyLimiter`, `enforce_user_concurrency` and
`enforce_count_tokens_concurrency` of `serving.servers.concurrency`. An event is
a block of the source with no `await` in it: what an `await` gives (the body, the
exemption, the limits, the answer of the spend check) comes with the event, and
`finish` is the end of the request, by its response, an exception or a
cancellation. The lock around the creation of a slot is never held over an
`await`, so creating one is part of the block.

How often a request gave its slot back and a reservation was given back, and
whose reservation it is, only say what happened.
-/

namespace HybridInference.Admission

open Library

def unlimitedConcurrency : ℤ := 0

def exemptModelUserConcurrencyLimit : ℕ := 64

def countTokensUserConcurrencyLimit : ℕ := 4

abbrev Limits := List (String × ℤ)

def fallbackLimits : Limits := [("free", 3), ("pro", 3), ("internal", 10), ("admin", 0)]

structure UserSlot where
  capacity : ℤ
  role : String
  inUse : ℕ := 0
  deriving DecidableEq

namespace UserSlot

def tryAcquire (slot : UserSlot) : UserSlot × Bool :=
  if slot.capacity ≠ unlimitedConcurrency && slot.capacity ≤ slot.inUse then (slot, false)
  else ({ slot with inUse := slot.inUse + 1 }, true)

def release (slot : UserSlot) : UserSlot :=
  if 0 < slot.inUse then { slot with inUse := slot.inUse - 1 } else slot

end UserSlot

/-- `_slots` of the limiter. -/
abbrev Slots := Dict String UserSlot

def limitFor (role : String) (isAdmin : Bool) (limits : Limits) : ℤ :=
  if isAdmin then (limits.lookup "admin").getD 0
  else
    match limits.lookup role with
    | some limit => limit
    | none => (limits.lookup "free").getD 3

def roleLabel (role : String) (isAdmin : Bool) (limits : Limits) : String :=
  if isAdmin then "admin" else if (limits.lookup role).isSome then role else "free"

/-- The capacity a request resolves; `none` when the limits provider failed. -/
def resolvedCapacity (role : String) (isAdmin : Bool) (maxConcurrent : Option ℕ)
    (provided : Option Limits) : ℤ :=
  match maxConcurrent with
  | some maximum => maximum
  | none => limitFor role isAdmin (provided.getD fallbackLimits)

namespace Slots

def inUse (slots : Slots) (key : String) : ℕ :=
  ((slots.find key).map UserSlot.inUse).getD 0

/-- `try_acquire` once the limits are read. -/
def tryAcquire (slots : Slots) (key role : String) (isAdmin : Bool) (maxConcurrent : Option ℕ)
    (provided : Option Limits) : Slots × Bool :=
  let target := resolvedCapacity role isAdmin maxConcurrent provided
  let slot := (slots.find key).getD
    { capacity := target, role := roleLabel role isAdmin (provided.getD fallbackLimits) }
  let acquired := { slot with capacity := target }.tryAcquire
  (slots.insert key acquired.1, acquired.2)

def release (slots : Slots) (key : String) : Slots :=
  match slots.find key with
  | some slot => slots.insert key slot.release
  | none => slots

end Slots

structure Reservation where
  held : Bool := true
  owner : ℕ
  unreserved : ℕ := 0
  deriving DecidableEq

namespace Reservation

def release (reservation : Reservation) : Reservation :=
  if reservation.held then
    { reservation with held := false, unreserved := reservation.unreserved + 1 }
  else reservation

end Reservation

/-- What `_admit_spend` does: there is no check, the cost is reserved, or the
request is refused. -/
inductive Spend where
  | unchecked
  | reserved
  | refused
  deriving DecidableEq

inductive Endpoint where
  | inference
  | countTokens
  deriving DecidableEq

inductive Budget where
  | normal
  | exempt
  | countTokens
  deriving DecidableEq

/-- `user_id`, `_exempt_slot_key` and `_count_tokens_slot_key`. -/
def Budget.slotKey (userId : String) : Budget → String
  | .normal => userId
  | .exempt => userId ++ ":exempt"
  | .countTokens => userId ++ ":count_tokens"

def Budget.cap : Budget → Option ℕ
  | .normal => none
  | .exempt => some exemptModelUserConcurrencyLimit
  | .countTokens => some countTokensUserConcurrencyLimit

def Budget.maxConcurrent (budget : Budget) (override : Option ℕ) : Option ℕ :=
  match budget.cap with
  | none => override
  | some cap =>
    match override with
    | some maximum => some (min maximum cap)
    | none => some cap

inductive AdmissionStage where
  | parsing
  | checkingExemption (canonical : String)
  | readingLimits (budget : Budget) (canonical : Option String)
  | parsingBody
  | running
  | ended
  deriving DecidableEq

structure AdmissionRequest where
  endpoint : Endpoint
  userId : String
  role : String
  isAdmin : Bool
  maxConcurrent : Option ℕ
  limiter : Bool
  resolver : Bool
  stage : AdmissionStage
  budget : Budget := .normal
  slotKey : Option String := none
  reservation : Option ℕ := none
  tracker : Option ℕ := none
  releases : ℕ := 0
  deriving DecidableEq

structure AdmissionWorld where
  slots : Slots := ∅
  load : InteractiveLoad := {}
  reservations : List Reservation := []
  requests : List AdmissionRequest := []

inductive AdmissionEvent where
  | arrive (endpoint : Endpoint) (userId role : String) (isAdmin : Bool)
      (maxConcurrent : Option ℕ) (limiter resolver : Bool)
  | parsed (id : ℕ) (canonical : Option String) (spend : Spend)
  | exemption (id : ℕ) (answer : Option Bool)
  | limits (id : ℕ) (provided : Option Limits) (spend : Spend)
  | finish (id : ℕ)
  | retarget (tracker : ℕ) (modelId : Option String)

namespace AdmissionRequest

def start (endpoint : Endpoint) (userId role : String) (isAdmin : Bool)
    (maxConcurrent : Option ℕ) (limiter resolver : Bool) : AdmissionRequest :=
  { endpoint, userId, role, isAdmin, maxConcurrent, limiter, resolver
    stage :=
      match endpoint with
      | .inference =>
        if !limiter || resolver then .parsing else .readingLimits .normal none
      | .countTokens => if limiter then .readingLimits .countTokens none else .running }

end AdmissionRequest

namespace AdmissionWorld

def withRequest (world : AdmissionWorld) (id : ℕ) (request : AdmissionRequest) :
    AdmissionWorld :=
  { world with requests := world.requests.set id request }

/-- The `finally` blocks: the tracker is left, the reservation released, the slot
given back. -/
def finish (world : AdmissionWorld) (id : ℕ) (request : AdmissionRequest) : AdmissionWorld :=
  { load :=
      match request.tracker with
      | some tracker => world.load.exit tracker
      | none => world.load
    reservations :=
      match request.reservation with
      | some reservation => world.reservations.modify reservation Reservation.release
      | none => world.reservations
    slots :=
      match request.slotKey with
      | some key => world.slots.release key
      | none => world.slots
    requests := world.requests.set id
      { request with
        stage := .ended
        releases := request.releases + if request.slotKey.isSome then 1 else 0 } }

/-- `_track_interactive_request`, entered. -/
def track (world : AdmissionWorld) (id : ℕ) (request : AdmissionRequest)
    (canonical : Option String) : AdmissionWorld :=
  { world with
    load := (world.load.enter canonical id).1
    requests := world.requests.set id
      { request with tracker := some (world.load.enter canonical id).2, stage := .running } }

def proceed (world : AdmissionWorld) (id : ℕ) (request : AdmissionRequest) (bodyRead : Bool)
    (canonical : Option String) : AdmissionWorld :=
  if bodyRead then world.track id request canonical
  else world.withRequest id { request with stage := .parsingBody }

/-- `_admit_spend` and then the rest of the block. -/
def admitSpend (world : AdmissionWorld) (id : ℕ) (request : AdmissionRequest) (spend : Spend)
    (bodyRead : Bool) (canonical : Option String) : AdmissionWorld :=
  match spend with
  | .unchecked => world.proceed id request bodyRead canonical
  | .reserved =>
    proceed { world with reservations := world.reservations ++ [{ owner := id }] } id
      { request with reservation := some world.reservations.length } bodyRead canonical
  | .refused => world.finish id request

def acquire (world : AdmissionWorld) (id : ℕ) (request : AdmissionRequest) (budget : Budget)
    (canonical : Option String) (provided : Option Limits) (spend : Spend) : AdmissionWorld :=
  let slotKey := budget.slotKey request.userId
  let acquired := world.slots.tryAcquire slotKey request.role request.isAdmin
    (budget.maxConcurrent request.maxConcurrent) provided
  let resized := { world with slots := acquired.1 }
  if acquired.2 then
    let holder := { request with budget, slotKey := some slotKey }
    match request.endpoint with
    | .countTokens => resized.withRequest id { holder with stage := .running }
    | .inference => resized.admitSpend id holder spend request.resolver canonical
  else resized.withRequest id { request with stage := .ended }

def step (world : AdmissionWorld) : AdmissionEvent → Option AdmissionWorld
  | .arrive endpoint userId role isAdmin maxConcurrent limiter resolver =>
    some { world with
      requests := world.requests ++
        [.start endpoint userId role isAdmin maxConcurrent limiter resolver] }
  | .parsed id canonical spend =>
    match world.requests[id]? with
    | some request =>
      match request.stage with
      | .parsing =>
        if request.limiter then
          match canonical with
          | some model => some (world.withRequest id
              { request with stage := .checkingExemption model })
          | none => some (world.withRequest id
              { request with stage := .readingLimits .normal none })
        else some (world.admitSpend id request spend true canonical)
      | .parsingBody => some (world.track id request canonical)
      | _ => none
    | none => none
  | .exemption id answer =>
    match world.requests[id]? with
    | some request =>
      match request.stage with
      | .checkingExemption canonical => some (world.withRequest id
          { request with
            stage := .readingLimits (if answer.getD false then .exempt else .normal)
              (some canonical) })
      | _ => none
    | none => none
  | .limits id provided spend =>
    match world.requests[id]? with
    | some request =>
      match request.stage with
      | .readingLimits budget canonical =>
        some (world.acquire id request budget canonical provided spend)
      | _ => none
    | none => none
  | .finish id =>
    match world.requests[id]? with
    | some request =>
      match request.stage with
      | .ended => none
      | _ => some (world.finish id request)
    | none => none
  | .retarget tracker modelId =>
    some { world with load := world.load.retarget tracker modelId }

end AdmissionWorld

def admissionMachine : Machine AdmissionWorld AdmissionEvent where
  step := AdmissionWorld.step

section Slots

variable {slots : Slots} {key role : String} {isAdmin : Bool} {maxConcurrent : Option ℕ}
  {provided : Option Limits}

theorem inUse_insert (slots : Slots) (key other : String) (slot : UserSlot) :
    Slots.inUse (slots.insert key slot) other =
      if other = key then slot.inUse else slots.inUse other := by
  unfold Slots.inUse
  rw [Dict.find_insert]
  split_ifs <;> rfl

theorem inUse_release (slots : Slots) (key other : String) :
    (slots.release key).inUse other = if other = key then slots.inUse key - 1
      else slots.inUse other := by
  unfold Slots.release
  split
  · next slot found =>
      rw [inUse_insert]
      have before : slots.inUse key = slot.inUse := by
        simp [Slots.inUse, found]
      split_ifs
      · rw [before]
        unfold UserSlot.release
        split_ifs
        · rfl
        · omega
      · rfl
  · next absent =>
      have before : slots.inUse key = 0 := by
        simp [Slots.inUse, absent]
      split_ifs with same
      · rw [same]
        omega
      · rfl

theorem tryAcquire_cases (slots : Slots) (key role : String) (isAdmin : Bool)
    (maxConcurrent : Option ℕ) (provided : Option Limits) :
    ((slots.tryAcquire key role isAdmin maxConcurrent provided).2 = true ∧
      (resolvedCapacity role isAdmin maxConcurrent provided = unlimitedConcurrency ∨
        (slots.inUse key : ℤ) < resolvedCapacity role isAdmin maxConcurrent provided) ∧
      ∀ other, (slots.tryAcquire key role isAdmin maxConcurrent provided).1.inUse other =
        slots.inUse other + if other = key then 1 else 0) ∨
    ((slots.tryAcquire key role isAdmin maxConcurrent provided).2 = false ∧
      ∀ other, (slots.tryAcquire key role isAdmin maxConcurrent provided).1.inUse other =
        slots.inUse other) := by
  have before : ((slots.find key).getD
      { capacity := resolvedCapacity role isAdmin maxConcurrent provided
        role := roleLabel role isAdmin (provided.getD fallbackLimits) }).inUse =
      slots.inUse key := by
    unfold Slots.inUse
    cases slots.find key <;> rfl
  unfold Slots.tryAcquire UserSlot.tryAcquire
  dsimp only
  split_ifs with full
  · right
    refine ⟨rfl, ?_⟩
    intro other
    rw [inUse_insert]
    split_ifs with same
    · rw [same]
      exact before
    · rfl
  · left
    refine ⟨rfl, ?_, ?_⟩
    · rw [before] at full
      simp only [ne_eq, decide_not, Bool.and_eq_true, Bool.not_eq_eq_eq_not, Bool.not_true,
        decide_eq_false_iff_not, decide_eq_true_eq, not_and, not_le] at full
      by_cases unlimited :
          resolvedCapacity role isAdmin maxConcurrent provided = unlimitedConcurrency
      · exact Or.inl unlimited
      · exact Or.inr (full unlimited)
    · intro other
      rw [inUse_insert]
      split_ifs with same
      · rw [same]
        dsimp only
        rw [before]
      · rfl

end Slots

def AdmissionRequest.holds (key : String) (request : AdmissionRequest) : Bool :=
  request.slotKey = some key && request.stage ≠ .ended

/-- What a request took is still its own until it ends, and was given back once
when it has ended. -/
structure Owned (world : AdmissionWorld) (id : ℕ) (request : AdmissionRequest) : Prop where
  releases : request.releases =
    if request.stage = .ended ∧ request.slotKey.isSome = true then 1 else 0
  reservation : ∀ index, request.reservation = some index → ∃ reservation,
    world.reservations[index]? = some reservation ∧ reservation.owner = id ∧
      (reservation.held = true ↔ request.stage ≠ .ended) ∧
      reservation.unreserved = if request.stage = .ended then 1 else 0
  tracker : ∀ index, request.tracker = some index → ∃ tracker,
    world.load.trackers[index]? = some tracker ∧ tracker.owner = id ∧
      (tracker.active = true ↔ request.stage ≠ .ended) ∧
      tracker.exits = if request.stage = .ended then 1 else 0

structure AdmissionRequest.Empty (request : AdmissionRequest) : Prop where
  slotKey : request.slotKey = none
  reservation : request.reservation = none
  tracker : request.tracker = none
  releases : request.releases = 0

theorem AdmissionRequest.Empty.owned {request : AdmissionRequest} (empty : request.Empty)
    (world : AdmissionWorld) (id : ℕ) : Owned world id request where
  releases := by simp [empty.releases, empty.slotKey]
  reservation := by simp [empty.reservation]
  tracker := by simp [empty.tracker]

def AdmissionRequest.Waits (request : AdmissionRequest) : Prop :=
  match request.stage with
  | .parsing | .checkingExemption _ | .readingLimits _ _ => request.Empty
  | .parsingBody => request.tracker = none
  | .running | .ended => True

/-- Slots, load and reservations are exactly what the requests hold. -/
structure AdmissionWorld.Balanced (world : AdmissionWorld) : Prop where
  slots : ∀ key, world.slots.inUse key = world.requests.countP (AdmissionRequest.holds key)
  load : world.load.Counted
  owned : ∀ (id : ℕ) request, world.requests[id]? = some request → Owned world id request
  waits : ∀ (id : ℕ) request, world.requests[id]? = some request → request.Waits

/-- What a step of one request leaves to the others. -/
structure OthersKept (id : ℕ) (world after : AdmissionWorld) : Prop where
  reservations : ∀ (index : ℕ) reservation, world.reservations[index]? = some reservation →
    reservation.owner ≠ id → after.reservations[index]? = some reservation
  trackers : ∀ (index : ℕ) tracker, world.load.trackers[index]? = some tracker →
    tracker.owner ≠ id → ∃ later, after.load.trackers[index]? = some later ∧
      later.owner = tracker.owner ∧ later.active = tracker.active ∧ later.exits = tracker.exits

theorem Owned.of_others {world after : AdmissionWorld} {id other : ℕ}
    {request : AdmissionRequest} (owned : Owned world other request)
    (kept : OthersKept id world after) (different : other ≠ id) : Owned after other request where
  releases := owned.releases
  reservation := by
    intro index taken
    rcases owned.reservation index taken with ⟨reservation, found, owner, held⟩
    refine ⟨reservation, kept.reservations index reservation found ?_, owner, held⟩
    rw [owner]
    exact different
  tracker := by
    intro index taken
    rcases owned.tracker index taken with ⟨tracker, found, owner, active, exits⟩
    rcases kept.trackers index tracker found (owner.symm ▸ different) with
      ⟨later, there, sameOwner, sameActive, sameExits⟩
    refine ⟨later, there, sameOwner.trans owner, ?_, sameExits.trans exits⟩
    rw [sameActive]
    exact active

theorem AdmissionWorld.Balanced.update {world after : AdmissionWorld} {id : ℕ}
    {old new : AdmissionRequest} (balanced : world.Balanced)
    (found : world.requests[id]? = some old) (requests : after.requests = world.requests.set id new)
    (slots : ∀ key, after.slots.inUse key + (if old.holds key then 1 else 0) =
      world.slots.inUse key + if new.holds key then 1 else 0)
    (load : after.load.Counted) (others : OthersKept id world after)
    (owned : Owned after id new) (waits : new.Waits) : after.Balanced where
  slots := by
    intro key
    have counted := countP_set_of_some (AdmissionRequest.holds key) new found
    have before := balanced.slots key
    have moved := slots key
    rw [requests]
    omega
  load := load
  owned := by
    intro other request there
    rw [requests, getElem?_set_of_some found] at there
    split_ifs at there with same
    · cases there
      exact same ▸ owned
    · exact (balanced.owned other request there).of_others others (fun equal => same equal.symm)
  waits := by
    intro other request there
    rw [requests, getElem?_set_of_some found] at there
    split_ifs at there
    · cases there
      exact waits
    · exact balanced.waits other request there

section Blocks

variable {world : AdmissionWorld} {id : ℕ} {request : AdmissionRequest}

theorem AdmissionWorld.Balanced.finish (balanced : world.Balanced)
    (found : world.requests[id]? = some request) (alive : request.stage ≠ .ended) :
    (world.finish id request).Balanced := by
  have owned := balanced.owned id request found
  have holder (key : String) (taken : request.slotKey = some key) : request.holds key = true := by
    simp [AdmissionRequest.holds, taken, alive]
  have counted (key : String) (taken : request.slotKey = some key) : 0 < world.slots.inUse key := by
    rw [balanced.slots key]
    apply List.countP_pos_iff.mpr
    exact ⟨request, List.mem_of_getElem? found, holder key taken⟩
  refine balanced.update found rfl ?_ ?_ ?_ ?_ trivial
  · intro key
    have ended : AdmissionRequest.holds key
        { request with
          stage := .ended
          releases := request.releases + if request.slotKey.isSome then 1 else 0 } = false := by
      simp [AdmissionRequest.holds]
    rw [ended]
    unfold AdmissionWorld.finish
    cases taken : request.slotKey with
    | none => simp [AdmissionRequest.holds, taken]
    | some slot =>
      dsimp only
      rw [inUse_release]
      by_cases same : key = slot
      · subst same
        have positive := counted key taken
        rw [if_pos rfl, holder key taken]
        simp only [if_true, Bool.false_eq_true, if_false]
        omega
      · have other : request.holds key = false := by
          have flipped : slot ≠ key := fun equal => same equal.symm
          simp [AdmissionRequest.holds, taken, flipped]
        rw [if_neg same, other]
  · unfold AdmissionWorld.finish
    cases taken : request.tracker with
    | none => exact balanced.load
    | some index =>
      rcases owned.tracker index taken with ⟨tracker, there, -, active, -⟩
      exact balanced.load.exit there (active.mpr alive)
  · constructor
    · intro index reservation there different
      unfold AdmissionWorld.finish
      cases taken : request.reservation with
      | none => exact there
      | some own =>
        rcases owned.reservation own taken with ⟨mine, mineThere, owner, -⟩
        dsimp only
        rw [modify_eq_set _ mineThere, getElem?_set_of_some mineThere]
        split_ifs with same
        · subst same
          rw [there, Option.some.injEq] at mineThere
          exact absurd (mineThere ▸ owner) different
        · exact there
    · intro index tracker there different
      unfold AdmissionWorld.finish
      cases taken : request.tracker with
      | none => exact ⟨tracker, there, rfl, rfl, rfl⟩
      | some own =>
        rcases owned.tracker own taken with ⟨mine, mineThere, owner, -⟩
        refine ⟨tracker, ?_, rfl, rfl, rfl⟩
        simp only [InteractiveLoad.exit, mineThere]
        rw [getElem?_set_of_some mineThere]
        split_ifs with same
        · subst same
          rw [there, Option.some.injEq] at mineThere
          exact absurd (mineThere ▸ owner) different
        · exact there
  · have none : request.releases = 0 := by
      rw [owned.releases, if_neg (fun both => alive both.1)]
    constructor
    · simp [none]
    · intro index taken
      rcases owned.reservation index taken with ⟨mine, mineThere, owner, held, unreserved⟩
      refine ⟨mine.release, ?_, ?_, ?_, ?_⟩
      · simp only [AdmissionWorld.finish]
        dsimp only at taken
        rw [taken]
        dsimp only
        rw [modify_eq_set _ mineThere, getElem?_set_of_some mineThere, if_pos rfl]
      · simp [Reservation.release, held.mpr alive, owner]
      · simp [Reservation.release, held.mpr alive]
      · simp [Reservation.release, held.mpr alive, unreserved, alive]
    · intro index taken
      rcases owned.tracker index taken with ⟨mine, mineThere, owner, active, exits⟩
      refine ⟨{ mine with active := false, exits := mine.exits + 1 }, ?_, owner, by simp, ?_⟩
      · simp only [AdmissionWorld.finish]
        dsimp only at taken
        rw [taken]
        simp only [InteractiveLoad.exit, mineThere]
        rw [getElem?_set_of_some mineThere, if_pos rfl]
      · simp [exits, alive]

/-- The request awaits its body: it may hold a slot and a reservation. -/
structure AtBody (world : AdmissionWorld) (id : ℕ) (request : AdmissionRequest) : Prop where
  balanced : world.Balanced
  found : world.requests[id]? = some request
  stage : request.stage = .parsingBody

section

variable (held : AtBody world id request)

include held

theorem AtBody.track (canonical : Option String) : (world.track id request canonical).Balanced := by
  have owned := held.balanced.owned id request held.found
  have alive : request.stage ≠ .ended := by
    simp [held.stage]
  refine held.balanced.update held.found rfl ?_ (held.balanced.load.enter canonical id) ?_ ?_
    trivial
  · intro key
    have same : AdmissionRequest.holds key
        { request with
          tracker := some (world.load.enter canonical id).2, stage := .running } =
        request.holds key := by
      simp [AdmissionRequest.holds, alive]
    rw [same]
    rfl
  · refine ⟨fun _ _ there _ => there, ?_⟩
    intro index tracker there _
    exact ⟨tracker, getElem?_concat_of_some there, rfl, rfl, rfl⟩
  · refine ⟨?_, ?_, ?_⟩
    · have none : request.releases = 0 := by
        rw [owned.releases, if_neg (fun both => alive both.1)]
      simp [none]
    · intro index taken
      rcases owned.reservation index taken with ⟨mine, there, owner, isHeld, unreserved⟩
      refine ⟨mine, there, owner, ?_, ?_⟩
      · simpa [alive] using isHeld
      · simpa [alive] using unreserved
    · intro index taken
      simp only [Option.some.injEq] at taken
      subst taken
      exact ⟨{ modelId := canonical, active := true, owner := id },
        by simp [AdmissionWorld.track, InteractiveLoad.enter], rfl, by simp, by simp⟩

theorem AtBody.reserve : AtBody
      { world with
        reservations := world.reservations ++ [{ owner := id }]
        requests := world.requests.set id
          { request with reservation := some world.reservations.length } }
      id { request with reservation := some world.reservations.length } := by
  have owned := held.balanced.owned id request held.found
  have alive : request.stage ≠ .ended := by
    simp [held.stage]
  refine ⟨?_, ?_, held.stage⟩
  · refine held.balanced.update held.found rfl ?_ held.balanced.load ?_ ?_ ?_
    · intro key
      rfl
    · refine ⟨fun _ _ there _ => getElem?_concat_of_some there, ?_⟩
      intro index tracker there _
      exact ⟨tracker, there, rfl, rfl, rfl⟩
    · refine ⟨owned.releases, ?_, owned.tracker⟩
      intro index taken
      simp only [Option.some.injEq] at taken
      subst taken
      exact ⟨{ owner := id }, by simp, rfl, by simp [alive], by simp [alive]⟩
    · have waits := held.balanced.waits id request held.found
      simpa [AdmissionRequest.Waits, held.stage] using waits
  · dsimp only
    rw [getElem?_set_of_some held.found, if_pos rfl]

theorem AtBody.proceed (bodyRead : Bool)
    (canonical : Option String) : (world.proceed id request bodyRead canonical).Balanced := by
  unfold AdmissionWorld.proceed
  split_ifs
  · exact held.track canonical
  · have same : world.withRequest id { request with stage := .parsingBody } = world := by
      have unchanged : { request with stage := .parsingBody } = request := by
        rw [← held.stage]
      unfold AdmissionWorld.withRequest
      rw [unchanged, set_eq_self_of_some held.found]
    rw [same]
    exact held.balanced

theorem AtBody.admitSpend (spend : Spend)
    (bodyRead : Bool) (canonical : Option String) :
    (world.admitSpend id request spend bodyRead canonical).Balanced := by
  unfold AdmissionWorld.admitSpend
  cases spend with
  | unchecked => exact held.proceed bodyRead canonical
  | reserved =>
    have reserved := held.reserve.proceed bodyRead canonical
    unfold AdmissionWorld.proceed AdmissionWorld.track AdmissionWorld.withRequest at reserved ⊢
    simpa using reserved
  | refused => exact held.balanced.finish held.found (by simp [held.stage])

end

theorem admitSpend_withRequest (world : AdmissionWorld) (id : ℕ) (request : AdmissionRequest)
    (stage : AdmissionStage) (spend : Spend) (bodyRead : Bool) (canonical : Option String) :
    (world.withRequest id { request with stage }).admitSpend id { request with stage } spend
      bodyRead canonical = world.admitSpend id request spend bodyRead canonical := by
  unfold AdmissionWorld.admitSpend
  cases spend <;>
    cases bodyRead <;>
    simp [AdmissionWorld.proceed, AdmissionWorld.track, AdmissionWorld.withRequest,
      AdmissionWorld.finish]

variable {stage : AdmissionStage}

section

variable (balanced : world.Balanced) (found : world.requests[id]? = some request)
  (empty : request.Empty)

include balanced found empty

theorem AdmissionWorld.Balanced.move {after : AdmissionWorld}
    (requests : after.requests = world.requests.set id { request with stage })
    (slots : ∀ key, after.slots.inUse key = world.slots.inUse key)
    (load : after.load = world.load) (reservations : after.reservations = world.reservations) :
    after.Balanced := by
  have still : AdmissionRequest.Empty { request with stage } :=
    ⟨empty.slotKey, empty.reservation, empty.tracker, empty.releases⟩
  refine balanced.update found requests ?_ (load ▸ balanced.load) ?_ (still.owned after id) ?_
  · intro key
    have before : request.holds key = false := by
      simp [AdmissionRequest.holds, empty.slotKey]
    have later : AdmissionRequest.holds key { request with stage } = false := by
      simp [AdmissionRequest.holds, empty.slotKey]
    rw [slots, before, later]
  · refine ⟨fun _ _ there _ => reservations ▸ there, fun _ tracker there _ => ?_⟩
    exact ⟨tracker, load ▸ there, rfl, rfl, rfl⟩
  · cases stage with
    | parsing => exact still
    | checkingExemption canonical => exact still
    | readingLimits budget canonical => exact still
    | parsingBody => exact empty.tracker
    | running => trivial
    | ended => trivial

theorem AdmissionWorld.Balanced.grant (budget : Budget) {slots : Slots} {key : String}
    (granted : ∀ other, slots.inUse other = world.slots.inUse other + if other = key then 1 else 0)
    (alive : stage = .parsingBody ∨ stage = .running) :
    AdmissionWorld.Balanced
      { world with
        slots
        requests := world.requests.set id
          { request with budget, slotKey := some key, stage } } := by
  have going : stage ≠ .ended := by
    rcases alive with rfl | rfl <;> simp
  refine balanced.update found rfl ?_ balanced.load ?_ ?_ ?_
  · intro other
    have before : request.holds other = false := by
      simp [AdmissionRequest.holds, empty.slotKey]
    have later : AdmissionRequest.holds other
        { request with budget, slotKey := some key, stage } = decide (other = key) := by
      by_cases same : other = key
      · simp [AdmissionRequest.holds, going, same]
      · have flipped : key ≠ other := fun equal => same equal.symm
        simp [AdmissionRequest.holds, same, flipped]
    dsimp only
    rw [granted other, before, later]
    simp
  · exact ⟨fun _ _ there _ => there, fun _ tracker there _ => ⟨tracker, there, rfl, rfl, rfl⟩⟩
  · refine ⟨?_, ?_, ?_⟩
    · simp [empty.releases, going]
    · simp [empty.reservation]
    · simp [empty.tracker]
  · rcases alive with rfl | rfl
    · exact empty.tracker
    · trivial

theorem AdmissionWorld.Balanced.acquire (budget : Budget)
    (canonical : Option String) (provided : Option Limits) (spend : Spend) :
    (world.acquire id request budget canonical provided spend).Balanced := by
  unfold AdmissionWorld.acquire
  dsimp only
  rcases tryAcquire_cases world.slots (budget.slotKey request.userId) request.role
    request.isAdmin (budget.maxConcurrent request.maxConcurrent) provided with
    ⟨granted, -, counted⟩ | ⟨refused, same⟩
  · rw [if_pos granted]
    split
    · exact balanced.grant found empty budget counted (Or.inr rfl)
    · have held := balanced.grant found empty budget counted (Or.inl rfl)
      have atBody : AtBody _ id _ :=
        ⟨held, (getElem?_set_of_some found).trans (if_pos rfl), rfl⟩
      have admitted := atBody.admitSpend spend request.resolver canonical
      rw [← admitSpend_withRequest _ id _ .parsingBody]
      exact admitted
  · rw [if_neg (by simp [refused])]
    exact balanced.move found empty rfl same rfl rfl

end

theorem waits_empty (waits : request.Waits) (at' : request.stage = stage)
    (early : stage = .parsing ∨ (∃ canonical, stage = .checkingExemption canonical) ∨
      ∃ budget canonical, stage = .readingLimits budget canonical) : request.Empty := by
  unfold AdmissionRequest.Waits at waits
  rw [at'] at waits
  rcases early with rfl | ⟨canonical, rfl⟩ | ⟨budget, canonical, rfl⟩ <;> exact waits

theorem empty_start (endpoint : Endpoint) (userId role : String) (isAdmin : Bool)
    (maxConcurrent : Option ℕ) (limiter resolver : Bool) :
    (AdmissionRequest.start endpoint userId role isAdmin maxConcurrent limiter resolver).Empty :=
  ⟨rfl, rfl, rfl, rfl⟩

/-- One step of any request keeps the balance. -/
theorem AdmissionWorld.Balanced.step {event : AdmissionEvent} {next : AdmissionWorld}
    (balanced : world.Balanced) (stepped : admissionMachine.step world event = some next) :
    next.Balanced := by
  cases event <;> simp only [admissionMachine, AdmissionWorld.step] at stepped
  case arrive endpoint userId role isAdmin maxConcurrent limiter resolver =>
    cases stepped
    have empty := empty_start endpoint userId role isAdmin maxConcurrent limiter resolver
    refine ⟨?_, balanced.load, ?_, ?_⟩
    · intro key
      rw [List.countP_append]
      simp [AdmissionRequest.holds, empty.slotKey, balanced.slots key]
    · intro id request there
      rcases getElem?_concat_cases there with earlier | ⟨-, rfl⟩
      · have owned := balanced.owned id request earlier
        exact ⟨owned.releases, owned.reservation, owned.tracker⟩
      · exact empty.owned _ id
    · intro id request there
      rcases getElem?_concat_cases there with earlier | ⟨-, rfl⟩
      · exact balanced.waits id request earlier
      · unfold AdmissionRequest.Waits
        split
        · exact empty
        · exact empty
        · exact empty
        · exact empty.tracker
        · trivial
        · trivial
  case parsed id canonical spend =>
    split at stepped
    · next request found =>
        have waits := balanced.waits id request found
        split at stepped
        · next stage =>
            have empty := waits_empty waits stage (Or.inl rfl)
            split_ifs at stepped
            · split at stepped <;> cases stepped
              · exact balanced.move found empty rfl (fun _ => rfl) rfl rfl
              · exact balanced.move found empty rfl (fun _ => rfl) rfl rfl
            · cases stepped
              have moved : (world.withRequest id { request with stage := .parsingBody }).Balanced :=
                balanced.move found empty rfl (fun _ => rfl) rfl rfl
              have atBody : AtBody _ id _ :=
                ⟨moved, (getElem?_set_of_some found).trans (if_pos rfl), rfl⟩
              rw [← admitSpend_withRequest _ id _ .parsingBody]
              exact atBody.admitSpend spend true canonical
        · next stage =>
            cases stepped
            exact AtBody.track ⟨balanced, found, stage⟩ canonical
        · simp at stepped
    · simp at stepped
  case exemption id answer =>
    split at stepped
    · next request found =>
        split at stepped
        · next canonical stage =>
            cases stepped
            have empty := waits_empty (balanced.waits id request found) stage
              (Or.inr (Or.inl ⟨canonical, rfl⟩))
            exact balanced.move found empty rfl (fun _ => rfl) rfl rfl
        · simp at stepped
    · simp at stepped
  case limits id provided spend =>
    split at stepped
    · next request found =>
        split at stepped
        · next budget canonical stage =>
            cases stepped
            have empty := waits_empty (balanced.waits id request found) stage
              (Or.inr (Or.inr ⟨budget, canonical, rfl⟩))
            exact balanced.acquire found empty budget canonical provided spend
        · simp at stepped
    · simp at stepped
  case finish id =>
    split at stepped
    · next request found =>
        split at stepped
        · simp at stepped
        · next alive =>
            cases stepped
            exact balanced.finish found alive
    · simp at stepped
  case retarget tracker modelId =>
    cases stepped
    refine ⟨balanced.slots, balanced.load.retarget tracker modelId, ?_, balanced.waits⟩
    intro id request there
    have owned := balanced.owned id request there
    refine ⟨owned.releases, owned.reservation, ?_⟩
    intro index taken
    rcases owned.tracker index taken with ⟨mine, found, owner, active, exits⟩
    rcases InteractiveLoad.retarget_keeps found tracker modelId with
      ⟨later, laterThere, sameOwner, sameActive, sameExits⟩
    refine ⟨later, laterThere, sameOwner.trans owner, ?_, sameExits.trans exits⟩
    rw [sameActive]
    exact active

end Blocks

def Granted (world : AdmissionWorld) (event : AdmissionEvent) (id : ℕ)
    (old new : AdmissionRequest) : Prop :=
  ∃ budget canonical provided spend, event = .limits id provided spend ∧
    old.stage = .readingLimits budget canonical ∧ new.budget = budget ∧
    new.slotKey = some (budget.slotKey old.userId) ∧
    (resolvedCapacity old.role old.isAdmin (budget.maxConcurrent old.maxConcurrent) provided =
        unlimitedConcurrency ∨
      (world.slots.inUse (budget.slotKey old.userId) : ℤ) <
        resolvedCapacity old.role old.isAdmin (budget.maxConcurrent old.maxConcurrent) provided)

structure Moved (world : AdmissionWorld) (event : AdmissionEvent) (id : ℕ)
    (old new : AdmissionRequest) : Prop where
  user : new.userId = old.userId
  maxConcurrent : new.maxConcurrent = old.maxConcurrent
  slot : (new.slotKey = old.slotKey ∧ new.budget = old.budget) ∨ Granted world event id old new
  alive : new.stage ≠ .ended → old.stage ≠ .ended
  asks : ∀ budget canonical, new.stage = .readingLimits budget canonical →
    budget = .normal ∨ budget = .exempt ∧ event = .exemption id (some true)

section Steps

variable {world next : AdmissionWorld} {id : ℕ} {request : AdmissionRequest}

theorem admitSpend_requests (world : AdmissionWorld) (id : ℕ) (request : AdmissionRequest)
    (spend : Spend) (bodyRead : Bool) (canonical : Option String) :
    ∃ new : AdmissionRequest,
      (world.admitSpend id request spend bodyRead canonical).requests = world.requests.set id new ∧
      new.userId = request.userId ∧ new.maxConcurrent = request.maxConcurrent ∧
      new.slotKey = request.slotKey ∧ new.budget = request.budget ∧
      ∀ budget canonical, new.stage ≠ .readingLimits budget canonical := by
  have proceeds (world : AdmissionWorld) (request : AdmissionRequest) : ∃ new : AdmissionRequest,
        (world.proceed id request bodyRead canonical).requests = world.requests.set id new ∧
        new.userId = request.userId ∧ new.maxConcurrent = request.maxConcurrent ∧
        new.slotKey = request.slotKey ∧ new.budget = request.budget ∧
        ∀ budget canonical, new.stage ≠ .readingLimits budget canonical := by
    unfold AdmissionWorld.proceed
    split_ifs <;> exact ⟨_, rfl, rfl, rfl, rfl, rfl, by simp⟩
  unfold AdmissionWorld.admitSpend
  cases spend with
  | unchecked => exact proceeds world request
  | reserved =>
    exact proceeds { world with reservations := world.reservations ++ [{ owner := id }] }
      { request with reservation := some world.reservations.length }
  | refused => exact ⟨_, rfl, rfl, rfl, rfl, rfl, by simp⟩

variable {budget : Budget}

theorem acquire_requests {canonical : Option String}
    (stage : request.stage = .readingLimits budget canonical) (provided : Option Limits)
    (spend : Spend) :
    ∃ new, (world.acquire id request budget canonical provided spend).requests =
        world.requests.set id new ∧
      Moved world (.limits id provided spend) id request new := by
  have alive : request.stage ≠ .ended := by
    simp [stage]
  unfold AdmissionWorld.acquire
  rcases tryAcquire_cases world.slots (budget.slotKey request.userId) request.role
    request.isAdmin (budget.maxConcurrent request.maxConcurrent) provided with
    ⟨granted, below, -⟩ | ⟨refused, -⟩
  · rw [if_pos granted]
    split
    · refine ⟨_, rfl, rfl, rfl, Or.inr ?_, fun _ => alive, by simp⟩
      exact ⟨budget, canonical, provided, spend, rfl, stage, rfl, rfl, below⟩
    · rcases admitSpend_requests
        { world with
          slots := (world.slots.tryAcquire (budget.slotKey request.userId) request.role
            request.isAdmin (budget.maxConcurrent request.maxConcurrent) provided).1 } id
        { request with budget, slotKey := some (budget.slotKey request.userId) } spend
        request.resolver canonical with ⟨new, requests, user, override, slot, sameBudget, asks⟩
      refine ⟨new, requests, user, override, Or.inr ?_, fun _ => alive, ?_⟩
      · exact ⟨budget, canonical, provided, spend, rfl, stage, sameBudget, slot, below⟩
      · intro other otherCanonical asked
        exact absurd asked (asks other otherCanonical)
  · rw [if_neg (by simp [refused])]
    exact ⟨_, rfl, rfl, rfl, Or.inl ⟨rfl, rfl⟩, fun _ => alive, by simp⟩

variable {event : AdmissionEvent}

/-- A step adds a request or moves one. -/
theorem step_requests (stepped : admissionMachine.step world event = some next) :
    (∃ endpoint userId role isAdmin maxConcurrent limiter resolver,
      event = .arrive endpoint userId role isAdmin maxConcurrent limiter resolver ∧
      next.requests = world.requests ++
        [.start endpoint userId role isAdmin maxConcurrent limiter resolver]) ∨
    next.requests = world.requests ∨
    ∃ id old new, world.requests[id]? = some old ∧ next.requests = world.requests.set id new ∧
      Moved world event id old new := by
  cases event <;> simp only [admissionMachine, AdmissionWorld.step] at stepped
  case arrive endpoint userId role isAdmin maxConcurrent limiter resolver =>
    cases stepped
    exact Or.inl ⟨_, _, _, _, _, _, _, rfl, rfl⟩
  case parsed id canonical spend =>
    split at stepped
    · next request found =>
        right
        right
        split at stepped
        · next stage =>
            have alive : request.stage ≠ .ended := by
              simp [stage]
            split_ifs at stepped
            · split at stepped <;> cases stepped
              · exact ⟨id, request, _, found, rfl, rfl, rfl, Or.inl ⟨rfl, rfl⟩, fun _ => alive,
                  by simp⟩
              · refine ⟨id, request, _, found, rfl, rfl, rfl, Or.inl ⟨rfl, rfl⟩, fun _ => alive, ?_⟩
                intro budget other asked
                cases asked
                exact Or.inl rfl
            · cases stepped
              rcases admitSpend_requests world id request spend true canonical with
                ⟨new, requests, user, override, slot, sameBudget, asks⟩
              refine ⟨id, request, new, found, requests, user, override,
                Or.inl ⟨slot, sameBudget⟩, fun _ => alive, ?_⟩
              intro budget other asked
              exact absurd asked (asks budget other)
        · next stage =>
            cases stepped
            exact ⟨id, request, _, found, rfl, rfl, rfl, Or.inl ⟨rfl, rfl⟩, by simp [stage],
              by simp⟩
        · simp at stepped
    · simp at stepped
  case exemption id answer =>
    split at stepped
    · next request found =>
        split at stepped
        · next canonical stage =>
            cases stepped
            right
            right
            refine ⟨id, request, _, found, rfl, rfl, rfl, Or.inl ⟨rfl, rfl⟩, by simp [stage], ?_⟩
            intro budget other asked
            simp only [AdmissionStage.readingLimits.injEq] at asked
            cases answer with
            | none => exact Or.inl asked.1.symm
            | some exempt =>
              cases exempt with
              | false => exact Or.inl asked.1.symm
              | true => exact Or.inr ⟨asked.1.symm, rfl⟩
        · simp at stepped
    · simp at stepped
  case limits id provided spend =>
    split at stepped
    · next request found =>
        split at stepped
        · next budget canonical stage =>
            cases stepped
            rcases acquire_requests stage provided spend with ⟨new, requests, moved⟩
            exact Or.inr (Or.inr ⟨id, request, new, found, requests, moved⟩)
        · simp at stepped
    · simp at stepped
  case finish id =>
    split at stepped
    · next request found =>
        split at stepped <;> cases stepped
        exact Or.inr (Or.inr ⟨id, request, _, found, rfl, rfl, rfl, Or.inl ⟨rfl, rfl⟩,
          by simp, by simp⟩)
    · simp at stepped
  case retarget tracker modelId =>
    cases stepped
    exact Or.inr (Or.inl rfl)

def AdmissionRequest.drawsOn (budget : Budget) (userId : String) (request : AdmissionRequest) :
    Bool :=
  request.budget = budget && request.userId = userId && request.slotKey.isSome &&
    request.stage ≠ .ended

def AdmissionWorld.Limited (budget : Budget) (world : AdmissionWorld) : AdmissionEvent → Prop
  | .arrive endpoint _ _ _ maxConcurrent _ _ =>
    budget = .countTokens → endpoint = .countTokens → maxConcurrent ≠ some 0
  | .exemption id answer =>
    budget = .exempt → answer = some true →
      ∀ request ∈ world.requests[id]?, request.maxConcurrent ≠ some 0
  | _ => True

instance AdmissionWorld.decidableLimited (budget : Budget) (world : AdmissionWorld) :
    ∀ event, Decidable (world.Limited budget event)
  | .arrive endpoint _ _ _ maxConcurrent _ _ => inferInstanceAs
      (Decidable (budget = .countTokens → endpoint = .countTokens → maxConcurrent ≠ some 0))
  | .exemption id answer => inferInstanceAs
      (Decidable (budget = .exempt → answer = some true →
        ∀ request ∈ world.requests[id]?, request.maxConcurrent ≠ some 0))
  | .parsed _ _ _ | .limits _ _ _ | .finish _ | .retarget _ _ => isTrue trivial

structure Capped (budget : Budget) (cap : ℕ) (world : AdmissionWorld) : Prop where
  keyed : ∀ (id : ℕ) request key, world.requests[id]? = some request →
    request.slotKey = some key → key = request.budget.slotKey request.userId
  asked : ∀ (id : ℕ) request canonical, world.requests[id]? = some request →
    request.stage = .readingLimits budget canonical → request.maxConcurrent ≠ some 0
  bounded : ∀ userId, world.requests.countP (AdmissionRequest.drawsOn budget userId) ≤ cap

variable {cap : ℕ}

theorem resolvedCapacity_le (capped : budget.cap = some cap)
    (positive : 0 < cap) {maxConcurrent : Option ℕ} (limited : maxConcurrent ≠ some 0)
    (role : String) (isAdmin : Bool) (provided : Option Limits) :
    resolvedCapacity role isAdmin (budget.maxConcurrent maxConcurrent) provided ≠
        unlimitedConcurrency ∧
      resolvedCapacity role isAdmin (budget.maxConcurrent maxConcurrent) provided ≤ cap := by
  unfold Budget.maxConcurrent resolvedCapacity unlimitedConcurrency
  rw [capped]
  cases maxConcurrent with
  | none =>
    dsimp only
    omega
  | some maximum =>
    have nonzero : maximum ≠ 0 := by
      rintro rfl
      exact limited rfl
    dsimp only
    omega

theorem Capped.drawsOn_le (capped : Capped budget cap world)
    (balanced : world.Balanced) (userId : String) :
    world.requests.countP (AdmissionRequest.drawsOn budget userId) ≤
      world.slots.inUse (budget.slotKey userId) := by
  rw [balanced.slots]
  apply List.countP_mono_left
  intro request member draws
  rcases List.mem_iff_getElem?.mp member with ⟨id, there⟩
  simp only [AdmissionRequest.drawsOn, Bool.and_eq_true, decide_eq_true_eq] at draws
  rcases draws with ⟨⟨⟨sameBudget, sameUser⟩, taken⟩, alive⟩
  rcases Option.isSome_iff_exists.mp taken with ⟨key, slot⟩
  have named := capped.keyed id request key there slot
  rw [sameBudget, sameUser] at named
  simp only [AdmissionRequest.holds, Bool.and_eq_true, decide_eq_true_eq]
  exact ⟨slot.trans (congrArg some named), alive⟩

/-- One limited step keeps a budget within its cap. -/
theorem Capped.step
    (capped : Capped budget cap world) (hasCap : budget.cap = some cap) (positive : 0 < cap)
    (balanced : world.Balanced) (limited : world.Limited budget event)
    (stepped : admissionMachine.step world event = some next) : Capped budget cap next := by
  rcases step_requests stepped with
    ⟨endpoint, userId, role, isAdmin, maxConcurrent, limiter, resolver, rfl, requests⟩ |
    requests | ⟨id, old, new, found, requests, moved⟩
  · refine ⟨?_, ?_, ?_⟩
    · intro id request key there taken
      rw [requests] at there
      rcases getElem?_concat_cases there with earlier | ⟨-, rfl⟩
      · exact capped.keyed id request key earlier taken
      · simp [AdmissionRequest.start] at taken
    · intro id request canonical there stage
      rw [requests] at there
      rcases getElem?_concat_cases there with earlier | ⟨-, rfl⟩
      · exact capped.asked id request canonical earlier stage
      · have counts : endpoint = .countTokens ∧ budget = .countTokens := by
          cases endpoint with
          | inference =>
            simp only [AdmissionRequest.start] at stage
            split_ifs at stage
            cases stage
            simp [Budget.cap] at hasCap
          | countTokens =>
            simp only [AdmissionRequest.start] at stage
            split_ifs at stage
            cases stage
            exact ⟨rfl, rfl⟩
        exact limited counts.2 counts.1
    · intro user
      rw [requests, List.countP_append]
      have none : List.countP (AdmissionRequest.drawsOn budget user)
          [.start endpoint userId role isAdmin maxConcurrent limiter resolver] = 0 := by
        simp [AdmissionRequest.drawsOn, AdmissionRequest.start]
      rw [none]
      exact capped.bounded user
  · refine ⟨?_, ?_, ?_⟩
    · rw [requests]
      exact capped.keyed
    · rw [requests]
      exact capped.asked
    · rw [requests]
      exact capped.bounded
  · refine ⟨?_, ?_, ?_⟩
    · intro other request key there taken
      rw [requests, getElem?_set_of_some found] at there
      split_ifs at there
      · cases there
        rcases moved.slot with ⟨slot, sameBudget⟩ | ⟨own, canonical, provided, spend, -, -,
          sameBudget, slot, -⟩
        · rw [sameBudget, moved.user]
          exact capped.keyed id old key found (slot.symm.trans taken)
        · rw [slot, Option.some.injEq] at taken
          rw [sameBudget, moved.user]
          exact taken.symm
      · exact capped.keyed other request key there taken
    · intro other request canonical there stage
      rw [requests, getElem?_set_of_some found] at there
      split_ifs at there
      · cases there
        rw [moved.maxConcurrent]
        rcases moved.asks budget canonical stage with rfl | ⟨rfl, rfl⟩
        · simp [Budget.cap] at hasCap
        · exact limited rfl rfl old found
      · exact capped.asked other request canonical there stage
    · intro user
      have counted := countP_set_of_some (AdmissionRequest.drawsOn budget user) new found
      have before := capped.bounded user
      rw [requests]
      by_cases draws : new.drawsOn budget user = true
      · by_cases drew : old.drawsOn budget user = true
        · simp only [draws, drew, if_true] at counted
          omega
        · simp only [AdmissionRequest.drawsOn, Bool.and_eq_true, decide_eq_true_eq] at draws drew
          rcases draws with ⟨⟨⟨newBudget, newUser⟩, taken⟩, alive⟩
          rw [moved.user] at newUser
          rcases moved.slot with ⟨slot, sameBudget⟩ | ⟨own, canonical, provided, spend, -, stage,
            sameBudget, -, below⟩
          · rw [slot] at taken
            rw [sameBudget] at newBudget
            exact absurd ⟨⟨⟨newBudget, newUser⟩, taken⟩, moved.alive alive⟩ drew
          · rw [sameBudget] at newBudget
            subst newBudget
            have finite := resolvedCapacity_le hasCap positive
              (capped.asked id old canonical found stage) old.role old.isAdmin provided
            have room := capped.drawsOn_le balanced user
            rw [newUser] at below
            rcases below with unlimited | below
            · exact absurd unlimited finite.1
            · split_ifs at counted <;> omega
      · simp only [draws, Bool.false_eq_true, if_false] at counted
        omega

theorem balanced_initial : AdmissionWorld.Balanced {} where
  slots := fun _ => rfl
  load := fun _ => rfl
  owned := by simp
  waits := by simp

theorem capped_initial (budget : Budget) (cap : ℕ) : Capped budget cap {} where
  keyed := by simp
  asked := by simp
  bounded := by simp

variable {events : List AdmissionEvent}

theorem balanced_of_run (ran : admissionMachine.run {} events = some world) : world.Balanced :=
  Machine.run_invariant (fun _ _ _ balanced stepped => balanced.step stepped) balanced_initial ran

theorem capped_of_run (hasCap : budget.cap = some cap) (positive : 0 < cap)
    (along : admissionMachine.Along (AdmissionWorld.Limited budget) {} events)
    (ran : admissionMachine.run {} events = some world) : Capped budget cap world := by
  have both : world.Balanced ∧ Capped budget cap world := by
    apply Machine.run_invariant_along (AdmissionWorld.Limited budget) _ _ along ran
    · intro state event next holds limited stepped
      exact ⟨holds.1.step stepped, holds.2.step hasCap positive holds.1 limited stepped⟩
    · exact ⟨balanced_initial, capped_initial budget cap⟩
  exact both.2

theorem granted_of_step {old new : AdmissionRequest}
    (stepped : admissionMachine.step world event = some next)
    (before : world.requests[id]? = some old) (after : next.requests[id]? = some new)
    (taken : new.slotKey ≠ old.slotKey) : Granted world event id old new := by
  rcases step_requests stepped with
    ⟨endpoint, userId, role, isAdmin, maxConcurrent, limiter, resolver, rfl, requests⟩ |
    requests | ⟨other, first, second, found, requests, moved⟩
  · rw [requests] at after
    rcases getElem?_concat_cases after with earlier | ⟨atEnd, -⟩
    · rw [before, Option.some.injEq] at earlier
      exact absurd (congrArg AdmissionRequest.slotKey earlier.symm) taken
    · have inside := (List.getElem?_eq_some_iff.mp before).1
      omega
  · rw [requests, before, Option.some.injEq] at after
    exact absurd (congrArg AdmissionRequest.slotKey after.symm) taken
  · rw [requests, getElem?_set_of_some found] at after
    split_ifs at after with same
    · subst same
      cases after
      rw [found, Option.some.injEq] at before
      subst before
      rcases moved.slot with ⟨slot, -⟩ | granted
      · exact absurd slot taken
      · exact granted
    · rw [before, Option.some.injEq] at after
      exact absurd (congrArg AdmissionRequest.slotKey after.symm) taken

/-- In every run slots, load and reservations are what the requests hold, only an admission takes a
slot, and a budget asked with limits other than 0 stays within its cap. -/
theorem interactive_admission_balances {events : List AdmissionEvent}
    (along : admissionMachine.Along (AdmissionWorld.Limited .exempt) {} events)
    (ran : admissionMachine.run {} events = some world) :
    (∀ key, world.slots.inUse key = world.requests.countP (AdmissionRequest.holds key)) ∧
    (∀ key, ∀ request ∈ world.requests, request.holds key = true → 0 < world.slots.inUse key) ∧
    (∀ modelId, world.load.inFlight.read modelId =
      world.load.trackers.countP (Tracker.on modelId)) ∧
    (∀ (id : ℕ) request, world.requests[id]? = some request → Owned world id request) ∧
    (∀ event next (id : ℕ) old new, admissionMachine.step world event = some next →
      world.requests[id]? = some old → next.requests[id]? = some new →
      new.slotKey ≠ old.slotKey → Granted world event id old new) ∧
    (∀ userId, world.requests.countP (AdmissionRequest.drawsOn .exempt userId) ≤
      exemptModelUserConcurrencyLimit) ∧
    (admissionMachine.Along (AdmissionWorld.Limited .countTokens) {} events →
      ∀ userId, world.requests.countP (AdmissionRequest.drawsOn .countTokens userId) ≤
        countTokensUserConcurrencyLimit) := by
  have balanced := balanced_of_run ran
  refine ⟨balanced.slots, ?_, balanced.load, balanced.owned, ?_, ?_, ?_⟩
  · intro key request member holds
    rw [balanced.slots]
    apply List.countP_pos_iff.mpr
    exact ⟨request, member, holds⟩
  · intro event next id old new stepped before after taken
    exact granted_of_step stepped before after taken
  · exact (capped_of_run rfl (by decide) along ran).bounded
  · intro alongCount
    exact (capped_of_run rfl (by decide) alongCount ran).bounded

/-- A request of a user with an override of two on an exempt model, from its
arrival to its response. -/
theorem interactive_admission_balances_exempt :
    let events : List AdmissionEvent :=
      [.arrive .inference "ann" "free" false (some 2) true true,
        .parsed 0 (some "large") .unchecked, .exemption 0 (some true),
        .limits 0 none .reserved, .retarget 0 (some "small")]
    ∃ world, admissionMachine.run {} events = some world ∧
      world.slots.inUse "ann:exempt" = 1 ∧ world.load.inFlight.read "small" = 1 ∧
      world.requests.countP (AdmissionRequest.drawsOn .exempt "ann") ≤ 64 := by
  intro events
  have along : admissionMachine.Along (AdmissionWorld.Limited .exempt) {} events := by
    decide +kernel
  have ends : (admissionMachine.run {} events).map
      (fun world => (world.slots.inUse "ann:exempt", world.load.inFlight.read "small")) =
      some (1, 1) := by
    decide +kernel
  rcases Option.map_eq_some_iff.mp ends with ⟨world, ran, shown⟩
  rw [Prod.mk.injEq] at shown
  exact ⟨world, ran, shown.1, shown.2, (interactive_admission_balances along ran).2.2.2.2.2.1 "ann"⟩

def exemptRequest (maxConcurrent : Option ℕ) (id : ℕ) : List AdmissionEvent :=
  [.arrive .inference "ann" "free" false maxConcurrent true true,
    .parsed id (some "large") .unchecked, .exemption id (some true), .limits id none .unchecked]

/-- An override of zero means unlimited, and so does its minimum with the cap: the
user holds one slot more than the cap. -/
theorem exempt_cap_passed_with_zero_override :
    ((admissionMachine.run {} ((List.range 65).flatMap (exemptRequest (some 0)))).map
      fun world => world.requests.countP (AdmissionRequest.drawsOn .exempt "ann")) =
      some 65 := by
  decide +kernel

end Steps

end HybridInference.Admission
