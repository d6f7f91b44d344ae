import HybridInference.Library.Machine
import Mathlib.Tactic.Linarith

/-!
# When an alert is sent

`alert_slack` of `serving.observability.alerts`, for one key with a fixed cooldown. A call is
admitted or dropped in one step, and the step in which it ends settles what is kept of the key; in
between, the lookups and the post take as long as they like and other calls go on. The tables tell
of the firing posts since the last delivered recovery when the last one ended and how many of them
failed in a row.
-/

namespace HybridInference.Alerts

open Library

structure SendTables where
  lastFired : Option ℚ := none
  inFlight : Bool := false
  failedDeliveries : ℕ := 0
  announced : Bool := false
  mutedUnannounced : Bool := false

inductive DropReason where
  | fence
  | noChannel
  | inFlight
  | cooldown
  deriving DecidableEq

def resolutionWaitAttempts : ℕ := 2

/-- The admission of a call: why it is dropped, or `none` when it goes ahead. -/
def admission (cooldownSec : ℤ) (tables : SendTables) (resolution fenceHolds channel : Bool)
    (now : ℚ) : Option DropReason :=
  if !fenceHolds then some .fence
  else if !channel then some .noChannel
  else
    let last := tables.lastFired.getD 0
    if tables.inFlight then some .inFlight
    else
      let retryAfterFailure := tables.failedDeliveries = 1
      if resolution = false ∧ 0 < last ∧ now - last < cooldownSec ∧ ¬retryAfterFailure then
        some .cooldown
      else none

/-- The `finally` of a call that was admitted. -/
def settle (tables : SendTables) (resolution attempted sent silenced : Bool) (now : ℚ) :
    SendTables where
  inFlight := false
  failedDeliveries :=
    if sent then 0
    else if attempted && !resolution then tables.failedDeliveries + 1
    else tables.failedDeliveries
  lastFired :=
    if sent && resolution then none
    else if attempted && !resolution then some now
    else tables.lastFired
  announced := if sent then !resolution else tables.announced
  mutedUnannounced :=
    if sent && !resolution then false
    else if silenced && !tables.announced then true
    else tables.mutedUnannounced

structure Post where
  admittedAt : ℚ
  endedAt : ℚ
  delivered : Bool

inductive Happening where
  | posted (post : Post)
  | recovered (delivered : Bool)
  | dropped (reason : DropReason) (resolution : Bool)
  | silenced
  | abandoned

structure Send where
  id : ℕ
  resolution : Bool
  admittedAt : ℚ
  attempted : Bool := false

structure AlertWorld where
  tables : SendTables := {}
  /-- The resolutions that wait for a send, with the waits that are left. -/
  waiting : List (ℕ × ℕ) := []
  sending : List Send := []
  clock : ℚ := 0
  log : List Happening := []

inductive AlertEvent where
  | fire (id : ℕ) (fenceHolds channel : Bool)
  | resolve (id : ℕ) (fenceHolds channel : Bool)
  /-- A wait of a resolution ends: the send is done or the time is up. -/
  | wake (id : ℕ) (fenceHolds channel : Bool)
  | cancelWait (id : ℕ)
  /-- A firing finds its type muted, or all alerts snoozed. -/
  | silence (id : ℕ) (snoozed : Bool)
  /-- The second look at the fence, the rendering, or a cancellation ends a call. -/
  | abandon (id : ℕ)
  | attempt (id : ℕ)
  /-- The channel accepts the message, or it does not, raises or is cancelled. -/
  | done (id : ℕ) (accepted : Bool)

namespace AlertWorld

variable (cooldownSec : ℤ)

def enter (world : AlertWorld) (id : ℕ) (resolution fenceHolds channel : Bool) : AlertWorld :=
  match admission cooldownSec world.tables resolution fenceHolds channel world.clock with
  | some reason => { world with log := .dropped reason resolution :: world.log }
  | none =>
    { world with
      tables := { world.tables with inFlight := true }
      sending := ⟨id, resolution, world.clock, false⟩ :: world.sending }

def finish (world : AlertWorld) (send : Send) (sent silenced : Bool) (happening : Happening) :
    AlertWorld :=
  { world with
    tables := settle world.tables send.resolution send.attempted sent silenced world.clock
    sending := world.sending.filter fun other => other.id ≠ send.id
    log := happening :: world.log }

def ended (world : AlertWorld) (send : Send) (accepted : Bool) : Happening :=
  if send.resolution then .recovered accepted
  else .posted ⟨send.admittedAt, world.clock, accepted⟩

def look (world : AlertWorld) (id waits : ℕ) (fenceHolds channel : Bool) : AlertWorld :=
  if world.tables.inFlight ∧ waits ≠ 0 then
    { world with waiting := (id, waits) :: world.waiting }
  else world.enter cooldownSec id true fenceHolds channel

def uses (world : AlertWorld) (id : ℕ) : Bool :=
  world.sending.any (fun send => send.id = id) || world.waiting.any fun waiter => waiter.1 = id

def act (world : AlertWorld) : AlertEvent → Option AlertWorld
  | .fire id fenceHolds channel =>
    if world.uses id then none
    else some (world.enter cooldownSec id false fenceHolds channel)
  | .resolve id fenceHolds channel =>
    if world.uses id then none
    else some (world.look cooldownSec id resolutionWaitAttempts fenceHolds channel)
  | .wake id fenceHolds channel =>
    (world.waiting.lookup id).map fun waits =>
      let woken := { world with waiting := world.waiting.filter fun waiter => waiter.1 ≠ id }
      woken.look cooldownSec id (waits - 1) fenceHolds channel
  | .cancelWait id =>
    some { world with waiting := world.waiting.filter fun waiter => waiter.1 ≠ id }
  | .silence id _ =>
    (world.sending.find? fun send => send.id = id && !send.attempted && !send.resolution).map
      fun send => world.finish send false true .silenced
  | .abandon id =>
    (world.sending.find? fun send => send.id = id && !send.attempted).map
      fun send => world.finish send false false .abandoned
  | .attempt id =>
    (world.sending.find? fun send => send.id = id && !send.attempted).map fun send =>
      { world with
        sending := world.sending.map fun other =>
          if other.id = send.id then { other with attempted := true } else other }
  | .done id accepted =>
    (world.sending.find? fun send => send.id = id && send.attempted).map
      fun send => world.finish send accepted false (world.ended send accepted)

def step (world : AlertWorld) (event : AlertEvent × ℚ) : Option AlertWorld :=
  if event.2 < world.clock ∨ event.2 ≤ 0 then none
  else { world with clock := event.2 }.act cooldownSec event.1

def machine : Machine AlertWorld (AlertEvent × ℚ) where
  step := step cooldownSec

end AlertWorld

def stretch : List Happening → List Post
  | [] => []
  | .posted post :: earlier => post :: stretch earlier
  | .recovered true :: _ => []
  | .recovered false :: earlier => stretch earlier
  | .dropped _ _ :: earlier => stretch earlier
  | .silenced :: earlier => stretch earlier
  | .abandoned :: earlier => stretch earlier

def failures (posts : List Post) : ℕ := (posts.takeWhile fun post => !post.delivered).length

def Admissible (cooldownSec : ℤ) (posts : List Post) (moment : ℚ) : Prop :=
  ∀ last, posts.head? = some last →
    last.endedAt ≤ moment ∧ (cooldownSec ≤ moment - last.endedAt ∨ failures posts = 1)

def Spaced (cooldownSec : ℤ) : List Post → Prop
  | [] => True
  | post :: before =>
    post.admittedAt ≤ post.endedAt ∧ Admissible cooldownSec before post.admittedAt ∧
      Spaced cooldownSec before

section Spacing

variable {cooldownSec : ℤ} {posts before : List Post} {post : Post} {moment : ℚ}

theorem failures_cons : failures (post :: before) =
    if post.delivered then 0 else failures before + 1 := by
  unfold failures
  cases isDelivered : post.delivered with
  | true => rw [List.takeWhile_cons_of_neg (by simp [isDelivered])]; rfl
  | false =>
    rw [List.takeWhile_cons_of_pos (by simp [isDelivered]), List.length_cons]
    rfl

theorem Admissible.ended_le (spaced : Spaced cooldownSec posts)
    (admissible : Admissible cooldownSec posts moment) (inside : post ∈ posts) :
    post.endedAt ≤ moment := by
  induction posts generalizing moment with
  | nil => cases inside
  | cons last before ih =>
    have ended := (admissible last rfl).1
    rcases List.mem_cons.mp inside with rfl | earlier
    · exact ended
    · exact (ih spaced.2.2 spaced.2.1 earlier).trans (spaced.1.trans ended)

theorem Admissible.cooldown_le (spaced : Spaced cooldownSec posts)
    (admissible : Admissible cooldownSec posts moment) (inside : post ∈ posts)
    (isDelivered : post.delivered = true) : cooldownSec ≤ moment - post.endedAt := by
  induction posts generalizing moment with
  | nil => cases inside
  | cons last before ih =>
    rcases admissible last rfl with ⟨ended, far | failed⟩
    · rcases List.mem_cons.mp inside with rfl | earlier
      · exact far
      · have le := Admissible.ended_le spaced.2.2 spaced.2.1 earlier
        linarith [spaced.1]
    · rcases List.mem_cons.mp inside with rfl | earlier
      · rw [failures_cons, if_pos isDelivered] at failed
        cases failed
      · have far := ih spaced.2.2 spaced.2.1 earlier
        linarith [spaced.1]

theorem Admissible.cooldown_le_of_two {last : Post} (spaced : Spaced cooldownSec (last :: before))
    (admissible : Admissible cooldownSec (last :: before) moment) (inside : post ∈ before) :
    cooldownSec ≤ moment - post.endedAt := by
  rcases admissible last rfl with ⟨ended, far | failed⟩
  · have le := Admissible.ended_le spaced.2.2 spaced.2.1 inside
    linarith [spaced.1]
  · cases before with
    | nil => cases inside
    | cons second earlier =>
      rw [failures_cons] at failed
      split_ifs at failed with lost
      rcases spaced.2.1 second rfl with ⟨secondEnded, secondFar | secondFailed⟩
      · rcases List.mem_cons.mp inside with rfl | before
        · linarith [spaced.1]
        · have le := Admissible.ended_le spaced.2.2.2.2 spaced.2.2.2.1 before
          linarith [spaced.1, spaced.2.2.1]
      · omega

theorem Admissible.cooldown_le_of_sublist {second first : Post} (spaced : Spaced cooldownSec posts)
    (admissible : Admissible cooldownSec posts moment) (part : [second, first].Sublist posts) :
    cooldownSec ≤ moment - first.endedAt := by
  cases posts with
  | nil => cases part
  | cons last before =>
    have inside : first ∈ before := by
      cases part with
      | cons _ later => exact later.subset (List.mem_cons_of_mem _ (List.mem_singleton.mpr rfl))
      | cons_cons _ rest => exact rest.subset (List.mem_singleton.mpr rfl)
    exact Admissible.cooldown_le_of_two spaced admissible inside

theorem Spaced.cooldown_le_of_sublist {third second first : Post}
    (spaced : Spaced cooldownSec posts) (part : [third, second, first].Sublist posts) :
    cooldownSec ≤ third.admittedAt - first.endedAt := by
  induction posts with
  | nil => cases part
  | cons post before ih =>
    cases part with
    | cons _ later => exact ih spaced.2.2 later
    | cons_cons _ rest => exact Admissible.cooldown_le_of_sublist spaced.2.2 spaced.2.1 rest

theorem Spaced.delivered (spaced : Spaced cooldownSec posts) :
    (posts.filter Post.delivered).Pairwise fun later earlier =>
      (cooldownSec : ℚ) ≤ later.admittedAt - earlier.endedAt := by
  induction posts with
  | nil => exact List.Pairwise.nil
  | cons post before ih =>
    rw [List.filter_cons]
    split_ifs
    · rw [List.pairwise_cons]
      refine ⟨?_, ih spaced.2.2⟩
      intro earlier member
      rw [List.mem_filter] at member
      exact Admissible.cooldown_le spaced.2.2 spaced.2.1 member.1 member.2
    · exact ih spaced.2.2

theorem length_window_le_two {Record : Type} {records : List Record} {moment : Record → ℚ}
    {width : ℚ} (apart : ∀ third second first, [third, second, first].Sublist records →
      width ≤ moment third - moment first) (start : ℚ) :
    (records.filter fun record =>
      start ≤ moment record ∧ moment record < start + width).length ≤ 2 := by
  by_contra more
  generalize isKept : (records.filter fun record =>
    start ≤ moment record ∧ moment record < start + width) = kept at more
  match kept, isKept, more with
  | [], _, more => simp at more
  | [_], _, more => simp at more
  | [_, _], _, more => simp at more
  | third :: second :: first :: rest, isKept, _ =>
    have part : [third, second, first].Sublist records := by
      have whole : (third :: second :: first :: rest).Sublist records := by
        rw [← isKept]
        exact List.filter_sublist
      exact (List.sublist_append_left [third, second, first] rest).trans whole
    have inside : ∀ record ∈ third :: second :: first :: rest,
        start ≤ moment record ∧ moment record < start + width := by
      intro record member
      rw [← isKept, List.mem_filter, decide_eq_true_eq] at member
      exact member.2
    have late := (inside third (by simp)).2
    have early := (inside first (by simp)).1
    linarith [apart third second first part]

end Spacing

namespace AlertWorld

/-- The firing posts since the last delivered recovery, one that is still going on included. -/
def attempts (world : AlertWorld) : List Post :=
  ((world.sending.filter fun send => send.attempted && !send.resolution).map fun send =>
    ⟨send.admittedAt, world.clock, false⟩) ++ stretch world.log

/-- The tables tell of the present stretch, and a call is past its admission rightly. -/
structure Sound (cooldownSec : ℤ) (world : AlertWorld) : Prop where
  one : (world.sending = [] ∧ world.tables.inFlight = false) ∨
    ∃ send, world.sending = [send] ∧ world.tables.inFlight = true ∧ send.admittedAt ≤ world.clock ∧
      (send.resolution = false → Admissible cooldownSec (stretch world.log) send.admittedAt)
  lastFired : world.tables.lastFired = (stretch world.log).head?.map Post.endedAt
  failed : world.tables.failedDeliveries = failures (stretch world.log)
  spaced : Spaced cooldownSec (stretch world.log)
  past : ∀ post ∈ stretch world.log, 0 < post.endedAt ∧ post.endedAt ≤ world.clock
  refusals : ∀ resolution, .dropped .cooldown resolution ∈ world.log → resolution = false

section Steps

variable {cooldownSec : ℤ} {world : AlertWorld} {id : ℕ} {resolution fenceHolds channel : Bool}
  {send : Send}

theorem Sound.tick {now : ℚ} (sound : Sound cooldownSec world) (late : world.clock ≤ now) :
    Sound cooldownSec { world with clock := now } := by
  refine ⟨?_, sound.lastFired, sound.failed, sound.spaced, ?_, sound.refusals⟩
  · rcases sound.one with idle | ⟨send, isSending, inFlight, admitted, admissible⟩
    · exact Or.inl idle
    · exact Or.inr ⟨send, isSending, inFlight, admitted.trans late, admissible⟩
  · intro post member
    exact ⟨(sound.past post member).1, (sound.past post member).2.trans late⟩

theorem admissible_of_admission (sound : Sound cooldownSec world) (admitted :
      admission cooldownSec world.tables resolution fenceHolds channel world.clock = none) :
    world.tables.inFlight = false ∧
      (resolution = false → Admissible cooldownSec (stretch world.log) world.clock) := by
  unfold admission at admitted
  dsimp only at admitted
  split_ifs at admitted with fenced unrouted busy cooling
  refine ⟨by simpa using busy, ?_⟩
  rintro rfl last isLast
  rcases sound.past last (List.mem_of_mem_head? isLast) with ⟨positive, past⟩
  refine ⟨past, ?_⟩
  rw [sound.lastFired, isLast, sound.failed] at cooling
  by_contra tooSoon
  rw [not_or, not_le] at tooSoon
  exact cooling ⟨rfl, positive, tooSoon.1, tooSoon.2⟩

theorem resolution_of_admission
    (dropped : admission cooldownSec world.tables resolution fenceHolds channel world.clock =
      some .cooldown) : resolution = false := by
  unfold admission at dropped
  dsimp only at dropped
  split_ifs at dropped with fenced unrouted busy cooling
  · cases dropped
  · cases dropped
  · cases dropped
  · exact cooling.1

section

variable (sound : Sound cooldownSec world)

include sound

theorem Sound.enter :
    Sound cooldownSec (world.enter cooldownSec id resolution fenceHolds channel) := by
  unfold AlertWorld.enter
  split
  · rename_i reason dropped
    refine ⟨sound.one, sound.lastFired, sound.failed, sound.spaced, sound.past, ?_⟩
    intro other member
    rcases List.mem_cons.mp member with same | earlier
    · cases same
      exact resolution_of_admission dropped
    · exact sound.refusals other earlier
  · rename_i admitted
    rcases admissible_of_admission sound admitted with ⟨idle, admissible⟩
    refine ⟨Or.inr ⟨⟨id, resolution, world.clock, false⟩, ?_, rfl, le_rfl, admissible⟩,
      sound.lastFired, sound.failed, sound.spaced,
      sound.past, sound.refusals⟩
    rcases sound.one with ⟨none_, _⟩ | ⟨_, _, busy, _⟩
    · rw [none_]
    · rw [idle] at busy
      cases busy

theorem sending_eq (member : send ∈ world.sending) :
    world.sending = [send] ∧ send.admittedAt ≤ world.clock ∧
      (send.resolution = false → Admissible cooldownSec (stretch world.log) send.admittedAt) := by
  rcases sound.one with ⟨none_, _⟩ | ⟨only, isOnly, _, admitted, admissible⟩
  · rw [none_] at member
    cases member
  · rw [isOnly, List.mem_singleton] at member
    subst member
    exact ⟨isOnly, admitted, admissible⟩

theorem Sound.unattempted {silenced : Bool} {happening : Happening} (member : send ∈ world.sending)
    (unattempted : send.attempted = false)
    (quiet : happening = .silenced ∨ happening = .abandoned) :
    Sound cooldownSec (world.finish send false silenced happening) := by
  have gone : world.sending.filter (fun other => other.id ≠ send.id) = [] := by
    rw [(sending_eq sound member).1]
    simp
  have same : stretch (happening :: world.log) = stretch world.log := by
    rcases quiet with rfl | rfl <;> rfl
  unfold AlertWorld.finish
  refine ⟨Or.inl ⟨gone, rfl⟩, ?_, ?_, ?_, ?_, ?_⟩
  · rw [same, ← sound.lastFired]
    simp [settle, unattempted]
  · rw [same, ← sound.failed]
    simp [settle, unattempted]
  · rw [same]
    exact sound.spaced
  · rw [same]
    exact sound.past
  · intro resolution dropped
    rcases List.mem_cons.mp dropped with now | earlier
    · rcases quiet with rfl | rfl <;> cases now
    · exact sound.refusals resolution earlier

theorem Sound.done {accepted : Bool} (positive : 0 < world.clock)
    (member : send ∈ world.sending) (attempted : send.attempted = true) :
    Sound cooldownSec (world.finish send accepted false (world.ended send accepted)) := by
  rcases sending_eq sound member with ⟨only, admitted, admissible⟩
  have gone : world.sending.filter (fun other => other.id ≠ send.id) = [] := by
    rw [only]
    simp
  have refusals : ∀ resolution, .dropped .cooldown resolution ∈
      world.ended send accepted :: world.log → resolution = false := by
    intro resolution dropped
    rcases List.mem_cons.mp dropped with now | earlier
    · unfold AlertWorld.ended at now
      split_ifs at now
    · exact sound.refusals resolution earlier
  unfold AlertWorld.finish
  cases isResolution : send.resolution with
  | true =>
    have isEnded : world.ended send accepted = .recovered accepted := by
      unfold AlertWorld.ended
      rw [if_pos isResolution]
    rw [isEnded] at refusals ⊢
    cases accepted with
    | true =>
      exact ⟨Or.inl ⟨gone, rfl⟩, by simp [settle, stretch], by simp [settle, stretch, failures],
        trivial, by simp [stretch], refusals⟩
    | false =>
      have same : stretch (.recovered false :: world.log) = stretch world.log := rfl
      refine ⟨Or.inl ⟨gone, rfl⟩, ?_, ?_, ?_, ?_, refusals⟩
      · rw [same, ← sound.lastFired]
        simp [settle]
      · rw [same, ← sound.failed]
        simp [settle]
      · rw [same]
        exact sound.spaced
      · rw [same]
        exact sound.past
  | false =>
    have isEnded : world.ended send accepted =
        .posted ⟨send.admittedAt, world.clock, accepted⟩ := by
      unfold AlertWorld.ended
      rw [isResolution]
      rfl
    rw [isEnded] at refusals ⊢
    refine ⟨Or.inl ⟨gone, rfl⟩, ?_, ?_, ?_, ?_, refusals⟩
    · simp [settle, attempted, stretch]
    · rw [stretch, failures_cons, ← sound.failed]
      simp [settle, attempted]
    · exact ⟨admitted, admissible isResolution, sound.spaced⟩
    · intro post inside
      rcases List.mem_cons.mp inside with rfl | earlier
      · exact ⟨positive, le_rfl⟩
      · exact sound.past post earlier

theorem Sound.wait {waiting : List (ℕ × ℕ)} : Sound cooldownSec { world with waiting := waiting } :=
  ⟨sound.one, sound.lastFired, sound.failed, sound.spaced, sound.past, sound.refusals⟩

theorem Sound.look {waits : ℕ} :
    Sound cooldownSec (world.look cooldownSec id waits fenceHolds channel) := by
  unfold AlertWorld.look
  split_ifs
  · exact sound.wait
  · exact sound.enter

theorem Sound.attempt (member : send ∈ world.sending) :
    Sound cooldownSec { world with
      sending := world.sending.map fun other =>
        if other.id = send.id then { other with attempted := true } else other } := by
  rcases sound.one with ⟨none_, _⟩ | ⟨only, isOnly, busy, admitted, admissible⟩
  · rw [none_] at member
    cases member
  · refine ⟨Or.inr ⟨if only.id = send.id then { only with attempted := true } else only, ?_, busy,
      ?_, ?_⟩, sound.lastFired, sound.failed, sound.spaced, sound.past, sound.refusals⟩
    · rw [isOnly]
      rfl
    · split_ifs <;> exact admitted
    · split_ifs <;> exact admissible

theorem Sound.act {event : AlertEvent} {next : AlertWorld}
    (positive : 0 < world.clock) (acted : world.act cooldownSec event = some next) :
    Sound cooldownSec next := by
  cases event with
  | fire id fenceHolds channel =>
    simp only [AlertWorld.act] at acted
    split_ifs at acted
    cases acted
    exact sound.enter
  | resolve id fenceHolds channel =>
    simp only [AlertWorld.act] at acted
    split_ifs at acted
    cases acted
    exact sound.look
  | wake id fenceHolds channel =>
    rcases Option.map_eq_some_iff.mp acted with ⟨waits, _, rfl⟩
    exact sound.wait.look
  | cancelWait id =>
    cases acted
    exact sound.wait
  | silence id snoozed =>
    rcases Option.map_eq_some_iff.mp acted with ⟨send, found, rfl⟩
    have isSend := List.find?_some found
    simp only [Bool.and_eq_true, decide_eq_true_eq, Bool.not_eq_true'] at isSend
    exact sound.unattempted (List.mem_of_find?_eq_some found) isSend.1.2 (Or.inl rfl)
  | abandon id =>
    rcases Option.map_eq_some_iff.mp acted with ⟨send, found, rfl⟩
    have isSend := List.find?_some found
    simp only [Bool.and_eq_true, decide_eq_true_eq, Bool.not_eq_true'] at isSend
    exact sound.unattempted (List.mem_of_find?_eq_some found) isSend.2 (Or.inr rfl)
  | attempt id =>
    rcases Option.map_eq_some_iff.mp acted with ⟨send, found, rfl⟩
    exact sound.attempt (List.mem_of_find?_eq_some found)
  | done id accepted =>
    rcases Option.map_eq_some_iff.mp acted with ⟨send, found, rfl⟩
    have isSend := List.find?_some found
    simp only [Bool.and_eq_true, decide_eq_true_eq] at isSend
    exact sound.done positive (List.mem_of_find?_eq_some found) isSend.2

/-- One step keeps the alert tables sound. -/
theorem Sound.step {event : AlertEvent × ℚ} {next : AlertWorld}
    (stepped : world.step cooldownSec event = some next) : Sound cooldownSec next := by
  unfold AlertWorld.step at stepped
  split_ifs at stepped with late
  rw [not_or, not_lt, not_le] at late
  exact (sound.tick late.1).act late.2 stepped

end

end Steps

/-- A silenced alert leaves both tables as they are. -/
theorem silence_keeps {cooldownSec : ℤ} {world next : AlertWorld} {id : ℕ} {snoozed : Bool}
    {now : ℚ} (stepped : world.step cooldownSec (.silence id snoozed, now) = some next) :
    next.tables.lastFired = world.tables.lastFired ∧
      next.tables.failedDeliveries = world.tables.failedDeliveries := by
  unfold AlertWorld.step at stepped
  split_ifs at stepped
  rcases Option.map_eq_some_iff.mp stepped with ⟨send, found, rfl⟩
  have isSend := List.find?_some found
  simp only [Bool.and_eq_true, decide_eq_true_eq, Bool.not_eq_true'] at isSend
  simp [AlertWorld.finish, settle, isSend.1.2, isSend.2]

theorem Sound.apart {cooldownSec : ℤ} {world : AlertWorld} (sound : Sound cooldownSec world)
    {third second first : Post} (part : [third, second, first].Sublist world.attempts) :
    cooldownSec ≤ third.admittedAt - first.endedAt := by
  unfold AlertWorld.attempts at part
  rcases sound.one with ⟨none_, _⟩ | ⟨send, only, _, _, admissible⟩
  · rw [none_] at part
    exact sound.spaced.cooldown_le_of_sublist part
  · rw [only] at part
    by_cases posting : (send.attempted && !send.resolution) = true
    · have kept : [send].filter (fun send => send.attempted && !send.resolution) = [send] := by
        simpa using posting
      rw [kept] at part
      cases part with
      | cons _ earlier => exact sound.spaced.cooldown_le_of_sublist earlier
      | cons_cons _ earlier =>
        rw [Bool.and_eq_true, Bool.not_eq_true'] at posting
        exact (admissible posting.2).cooldown_le_of_sublist sound.spaced earlier
    · have none_ : [send].filter (fun send => send.attempted && !send.resolution) = [] := by
        simpa using posting
      rw [none_] at part
      exact sound.spaced.cooldown_le_of_sublist part

/-- In every order of calls and outcomes: one send of the key at a time, delivered firings a
cooldown apart, two posts in a cooldown at whatever time of its send each was made, no cooldown
for what is silenced and none for a resolution. -/
theorem alert_send_admission (cooldownSec : ℤ) (events : List (AlertEvent × ℚ)) (world : AlertWorld)
    (ran : (machine cooldownSec).run {} events = some world) :
    world.sending.length ≤ 1 ∧
      ((stretch world.log).filter Post.delivered).Pairwise (fun later earlier =>
        (cooldownSec : ℚ) ≤ later.admittedAt - earlier.endedAt) ∧
      (∀ madeAt : Post → ℚ, (∀ post ∈ world.attempts,
          post.admittedAt ≤ madeAt post ∧ madeAt post ≤ post.endedAt) →
        ∀ start : ℚ, (world.attempts.filter fun post =>
          start ≤ madeAt post ∧ madeAt post < start + cooldownSec).length ≤ 2) ∧
      (∀ id snoozed now next, (machine cooldownSec).step world (.silence id snoozed, now) =
          some next →
        next.tables.lastFired = world.tables.lastFired ∧
          next.tables.failedDeliveries = world.tables.failedDeliveries) ∧
      ∀ resolution, .dropped .cooldown resolution ∈ world.log → resolution = false := by
  have initial : Sound cooldownSec {} :=
    ⟨Or.inl ⟨rfl, rfl⟩, rfl, rfl, trivial, by simp [stretch], by simp⟩
  have sound : Sound cooldownSec world :=
    Machine.run_invariant (fun _ _ _ sound stepped => sound.step stepped) initial ran
  refine ⟨?_, sound.spaced.delivered, ?_, ?_, sound.refusals⟩
  · rcases sound.one with ⟨none_, _⟩ | ⟨send, only, _⟩
    · rw [none_]
      exact Nat.zero_le _
    · rw [only]
      exact le_rfl
  · intro madeAt within start
    apply length_window_le_two
    intro third second first part
    have far := sound.apart part
    have late := (within third (part.subset (by simp))).1
    have early := (within first (part.subset (by simp))).2
    linarith
  · intro id snoozed now next stepped
    exact silence_keeps stepped

def refusedPosts : List (AlertEvent × ℚ) :=
  [(.fire 1 true true, 1), (.attempt 1, 1), (.done 1 false, 2), (.fire 2 true true, 3),
    (.attempt 2, 3), (.done 2 false, 4), (.fire 3 true true, 5)]

theorem alert_send_admission_refused_posts :
    ∃ world, (machine 300).run {} refusedPosts = some world ∧
      world.attempts.map Post.endedAt = [4, 2] ∧
      (world.attempts.filter fun post => (0 : ℚ) ≤ post.admittedAt ∧
        post.admittedAt < 0 + ((300 : ℤ) : ℚ)).length ≤ 2 := by
  have ends : ((machine 300).run {} refusedPosts).map
      (fun world => world.attempts.map fun post => (post.admittedAt, post.endedAt)) =
        some [(3, 4), (1, 2)] := by
    decide +kernel
  rcases Option.map_eq_some_iff.mp ends with ⟨world, ran, posted⟩
  rcases List.map_eq_cons_iff.mp posted with ⟨second, earlier, isAttempts, isSecond, posted⟩
  rcases List.map_eq_singleton_iff.mp posted with ⟨first, rfl, isFirst⟩
  rcases Prod.mk.inj isSecond with ⟨secondAdmitted, secondEnded⟩
  rcases Prod.mk.inj isFirst with ⟨firstAdmitted, firstEnded⟩
  refine ⟨world, ran, ?_, ?_⟩
  · simp [isAttempts, secondEnded, firstEnded]
  · apply (alert_send_admission 300 refusedPosts world ran).2.2.1 Post.admittedAt
    intro post member
    rw [isAttempts] at member
    have isOne : post = second ∨ post = first := by simpa using member
    rcases isOne with rfl | rfl
    · exact ⟨le_rfl, by rw [secondAdmitted, secondEnded]; norm_num⟩
    · exact ⟨le_rfl, by rw [firstAdmitted, firstEnded]; norm_num⟩

end AlertWorld

end HybridInference.Alerts
