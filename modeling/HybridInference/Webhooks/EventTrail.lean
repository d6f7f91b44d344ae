import HybridInference.Webhooks.Outbox

/-!
# The life of an event

What one transaction does to a row of the outbox, and what the history of a row always
satisfies. A lease is taken over only when it ran out, and a lease that was given up by
its holder left a retry time behind.
-/

namespace HybridInference.Webhooks

open Library

namespace Entry

def claimedAttempt : Entry → Option ℕ
  | .claimed attempt _ _ _ => some attempt
  | _ => none

def recordedAttempt : Entry → Option ℕ
  | .delivered attempt | .failed attempt _ => some attempt
  | _ => none

end Entry

/-- What an event's row tells about its history. -/
structure Trailed (maxAttempts : ℕ) (event : WebhookEvent) : Prop where
  attempts : event.attempts ≤ maxAttempts
  claims : event.history.filterMap Entry.claimedAttempt = List.range' 1 event.attempts
  outcomes : (event.history.filterMap Entry.recordedAttempt).Pairwise (· < ·)
  recorded : ∀ attempt ∈ event.history.filterMap Entry.recordedAttempt, attempt ≤ event.attempts
  held : ∀ owner, event.leaseOwner = some owner →
    (∀ attempt ∈ event.history.filterMap Entry.recordedAttempt, attempt < event.attempts) ∧
      ∃ moment until_, event.leaseExpiresAt = some until_ ∧
        .claimed event.attempts owner moment until_ ∈ event.history
  free : event.leaseOwner = none → event.leaseExpiresAt = none ∧
    (event.status = .pending → event.attempts ≠ 0 →
      .failed event.attempts (some event.nextAttemptAt) ∈ event.history)
  again : ∀ past attempt worker moment until_ rest,
    event.history = past ++ .claimed (attempt + 1) worker moment until_ :: rest → attempt ≠ 0 →
      (∃ earlier started ended, .claimed attempt earlier started ended ∈ past ∧ ended ≤ moment) ∨
        ∃ retry, .failed attempt (some retry) ∈ past ∧ retry ≤ moment

inductive RowStep (maxAttempts : ℕ) (event : WebhookEvent) : WebhookEvent → Prop
  | claim (worker : String) (now leaseSeconds : ℚ) (due : event.isDue maxAttempts now = true) :
      RowStep maxAttempts event (event.claim worker now leaseSeconds)
  | exhausted (pending : event.status = .pending) :
      RowStep maxAttempts event event.failExhausted
  | orphaned (pending : event.status = .pending) :
      RowStep maxAttempts event event.failOrphaned
  | markDelivered (worker : String) (attempt : ℕ) :
      RowStep maxAttempts event (event.markDelivered worker attempt)
  | markFailed (worker : String) (attempt : ℕ) (nextAttemptAt : Option ℚ) :
      RowStep maxAttempts event (event.markFailed worker attempt nextAttemptAt)

section Rows

variable {maxAttempts : ℕ} {event : WebhookEvent}

theorem trailed_new {userId batchId : String} {moment : ℚ} :
    Trailed maxAttempts { userId := userId, batchId := batchId, nextAttemptAt := moment } := by
  constructor <;> simp

theorem Trailed.again_concat {entry : Entry} (trailed : Trailed maxAttempts event)
    (leases : entry.claimedAttempt = none) :
    ∀ past attempt worker moment until_ rest,
      event.history ++ [entry] = past ++ .claimed (attempt + 1) worker moment until_ :: rest →
      attempt ≠ 0 →
      (∃ earlier started ended, .claimed attempt earlier started ended ∈ past ∧ ended ≤ moment) ∨
        ∃ retry, .failed attempt (some retry) ∈ past ∧ retry ≤ moment := by
  intro past attempt worker moment until_ rest split later
  rcases split_of_concat split with ⟨-, rfl⟩ | ⟨before, earlier⟩
  · cases leases
  · exact trailed.again past attempt worker moment until_ before earlier later

theorem Trailed.claim {worker : String} {now leaseSeconds : ℚ}
    (trailed : Trailed maxAttempts event) (due : event.isDue maxAttempts now = true) :
    Trailed maxAttempts (event.claim worker now leaseSeconds) := by
  simp only [WebhookEvent.isDue, Bool.and_eq_true, decide_eq_true_eq] at due
  rcases due with ⟨⟨⟨pending, dueNow⟩, room⟩, leaseIsFree⟩
  constructor
  · exact room
  · simp only [WebhookEvent.claim, List.filterMap_append, trailed.claims]
    rw [List.range'_concat]
    simp [Entry.claimedAttempt, Nat.add_comm]
  · simpa [WebhookEvent.claim, List.filterMap_cons, Entry.recordedAttempt] using trailed.outcomes
  · intro attempt isRecorded
    have earlier : attempt ≤ event.attempts := by
      apply trailed.recorded
      simpa [WebhookEvent.claim, List.filterMap_cons, Entry.recordedAttempt] using isRecorded
    simp only [WebhookEvent.claim]
    omega
  · rintro owner isOwner
    simp only [WebhookEvent.claim, Option.some.injEq] at isOwner
    subst isOwner
    refine ⟨?_, now, now + leaseSeconds, rfl, by simp [WebhookEvent.claim]⟩
    intro attempt isRecorded
    have earlier : attempt ≤ event.attempts := by
      apply trailed.recorded
      simpa [WebhookEvent.claim, List.filterMap_cons, Entry.recordedAttempt] using isRecorded
    simp only [WebhookEvent.claim]
    omega
  · intro noOwner
    cases noOwner
  · intro past attempt other moment until_ rest split later
    simp only [WebhookEvent.claim] at split
    rcases split_of_concat split with ⟨rfl, same⟩ | ⟨before, earlier⟩
    · rcases same with ⟨rfl, rfl, rfl, rfl⟩
      cases owner : event.leaseOwner with
      | none =>
        right
        exact ⟨event.nextAttemptAt, (trailed.free owner).2 pending later, dueNow⟩
      | some held =>
        rcases (trailed.held held owner).2 with ⟨started, ended, expires, isClaimed⟩
        left
        simp only [WebhookEvent.leaseIsFree, expires, decide_eq_true_eq] at leaseIsFree
        exact ⟨held, started, ended, isClaimed, leaseIsFree⟩
    · exact trailed.again past attempt other moment until_ before earlier later

theorem Trailed.failExhausted (trailed : Trailed maxAttempts event) :
    Trailed maxAttempts event.failExhausted := by
  constructor
  · exact trailed.attempts
  · simpa [WebhookEvent.failExhausted, List.filterMap_cons, Entry.claimedAttempt] using
      trailed.claims
  · simpa [WebhookEvent.failExhausted, List.filterMap_cons, Entry.recordedAttempt] using
      trailed.outcomes
  · simpa [WebhookEvent.failExhausted, List.filterMap_cons, Entry.recordedAttempt] using
      trailed.recorded
  · intro owner isOwner
    rcases trailed.held owner isOwner with ⟨below, moment, until_, expires, isClaimed⟩
    refine ⟨?_, moment, until_, expires, List.mem_append_left _ isClaimed⟩
    simpa [WebhookEvent.failExhausted, List.filterMap_cons, Entry.recordedAttempt] using below
  · intro noOwner
    exact ⟨(trailed.free noOwner).1, fun pending => by cases pending⟩
  · exact trailed.again_concat rfl

theorem Trailed.release {status : EventStatus} {entry : Entry} {nextAttemptAt : ℚ}
    (trailed : Trailed maxAttempts event) (leases : entry.claimedAttempt = none)
    (records : ∀ attempt, entry.recordedAttempt = some attempt → attempt = event.attempts ∧
      event.leaseOwner ≠ none)
    (retries : status = .pending → entry = .failed event.attempts (some nextAttemptAt)) :
    Trailed maxAttempts { event with
      status := status
      nextAttemptAt := nextAttemptAt
      leaseOwner := none
      leaseExpiresAt := none
      history := event.history ++ [entry] } := by
  constructor
  · exact trailed.attempts
  · simp only [List.filterMap_append, trailed.claims]
    simp [leases]
  · rcases isRecorded : entry.recordedAttempt with _ | attempt
    · simpa [isRecorded] using trailed.outcomes
    · rcases records attempt isRecorded with ⟨rfl, owned⟩
      rcases Option.ne_none_iff_exists'.mp owned with ⟨owner, isOwner⟩
      simp only [List.filterMap_append, List.filterMap_cons, isRecorded, List.filterMap_nil,
        List.pairwise_append]
      refine ⟨trailed.outcomes, List.pairwise_singleton _ _, ?_⟩
      intro earlier isEarlier last isLast
      rw [List.mem_singleton.mp isLast]
      exact (trailed.held owner isOwner).1 earlier isEarlier
  · intro attempt isRecorded
    rw [List.filterMap_append, List.mem_append] at isRecorded
    rcases isRecorded with earlier | last
    · exact trailed.recorded attempt earlier
    · simp only [List.mem_filterMap, List.mem_singleton, exists_eq_left] at last
      exact (records attempt last).1.le
  · intro owner isOwner
    cases isOwner
  · intro _
    refine ⟨rfl, ?_⟩
    intro pending _
    rw [retries pending]
    simp
  · exact trailed.again_concat leases

variable {next : WebhookEvent}

/-- One write to the row keeps the history true. -/
theorem Trailed.step (trailed : Trailed maxAttempts event)
    (stepped : RowStep maxAttempts event next) : Trailed maxAttempts next := by
  cases stepped with
  | claim worker now leaseSeconds due => exact trailed.claim due
  | exhausted pending => exact trailed.failExhausted
  | orphaned pending =>
    exact trailed.release rfl (by simp [Entry.recordedAttempt]) (by simp)
  | markDelivered worker attempt =>
    unfold WebhookEvent.markDelivered
    split_ifs with held
    · simp only [WebhookEvent.isHeld, Bool.and_eq_true, decide_eq_true_eq] at held
      apply trailed.release rfl _ (by simp)
      rintro recorded same
      cases same
      exact ⟨held.1.2.symm, by simp [held.1.1]⟩
    · exact trailed
  | markFailed worker attempt nextAttemptAt =>
    unfold WebhookEvent.markFailed
    by_cases held : event.isHeld worker attempt = true
    · rw [if_pos held]
      simp only [WebhookEvent.isHeld, Bool.and_eq_true, decide_eq_true_eq] at held
      apply trailed.release rfl
      · rintro recorded same
        cases same
        exact ⟨held.1.2.symm, by simp [held.1.1]⟩
      · cases nextAttemptAt with
        | none => simp
        | some retry => simp [held.1.2]
    · rw [if_neg held]
      exact trailed

theorem RowStep.eq_of_final (stepped : RowStep maxAttempts event next)
    (final : event.status ≠ .pending) : next = event := by
  cases stepped with
  | claim worker now leaseSeconds due => simp [WebhookEvent.isDue, final] at due
  | exhausted pending => exact absurd pending final
  | orphaned pending => exact absurd pending final
  | markDelivered worker attempt =>
    simp [WebhookEvent.markDelivered, WebhookEvent.isHeld, final]
  | markFailed worker attempt nextAttemptAt =>
    simp [WebhookEvent.markFailed, WebhookEvent.isHeld, final]

theorem RowStep.same_batch (stepped : RowStep maxAttempts event next) :
    next.userId = event.userId ∧ next.batchId = event.batchId := by
  cases stepped with
  | claim | exhausted | orphaned => exact ⟨rfl, rfl⟩
  | markDelivered worker attempt =>
    unfold WebhookEvent.markDelivered
    split_ifs <;> exact ⟨rfl, rfl⟩
  | markFailed worker attempt nextAttemptAt =>
    unfold WebhookEvent.markFailed
    split_ifs <;> exact ⟨rfl, rfl⟩

end Rows

end HybridInference.Webhooks
