import HybridInference.Phone.Codes

/-!
# The rate limits of phone codes

Every attempt that is admitted was counted against all attempts of its window while
no other attempt on its phone or its address could be admitted, so the bounds hold
in every window, in whatever order the transactions began. Rows are deleted after
two days; a transaction that counts a day behind such a cleanup may miss rows.
-/

namespace HybridInference.Phone

open Library

def Entry.attempt? : Entry → Option Attempt
  | .admitted attempt => some attempt
  | .swept _ | .reserved _ _ _ _ | .activated _ | .compared _ _ _ _ _ => none

def Entry.sweep? : Entry → Option ℤ
  | .swept now => some now
  | .admitted _ | .reserved _ _ _ _ | .activated _ | .compared _ _ _ _ _ => none

def admittedOf (history : List Entry) : List Attempt := history.filterMap Entry.attempt?

def sweepsOf (history : List Entry) : List ℤ := history.filterMap Entry.sweep?

/-- At most `bound` attempts of a kind from one phone, or from one address, in every
window. -/
structure Cap where
  kind : Kind
  byPhone : Bool
  window : ℤ
  bound : ℕ

def caps (limits : Limits) : List Cap :=
  [⟨.send, true, hour, limits.phoneHour⟩, ⟨.send, true, day, limits.phoneDay⟩,
    ⟨.send, false, hour, limits.ipHour⟩, ⟨.send, false, day, limits.ipDay⟩,
    ⟨.verify, true, 15 * minute, limits.verifyPerPhone⟩, ⟨.verify, false, hour, limits.verifyPerIp⟩]

def Cap.counts (cap : Cap) (phone ip : String) (attempt : Attempt) : Bool :=
  attempt.kind = cap.kind && if cap.byPhone then attempt.phone = phone else attempt.ip = ip

/-- The admitted attempts keep the cooldown and every cap. -/
structure RateLimited (limits : Limits) (history : List Entry) : Prop where
  windows : ∀ cap ∈ caps limits, ∀ phone ip until_, (admittedOf history).countP (fun attempt =>
    cap.counts phone ip attempt && until_ - cap.window < attempt.createdAt &&
      attempt.createdAt ≤ until_) ≤ cap.bound
  cooldown : ∀ phone, ((admittedOf history).filter fun attempt =>
    attempt.kind = .send && attempt.phone = phone).Pairwise fun earlier later =>
      earlier.createdAt + limits.cooldown ≤ later.createdAt

/-- The windows leave room for one attempt more. -/
structure Room (limits : Limits) (admitted : List Attempt) (kind : Kind) (phone ip : String)
    (now : ℤ) : Prop where
  windows : ∀ cap ∈ caps limits, cap.kind = kind → admitted.countP (fun attempt =>
    cap.counts phone ip attempt && now - cap.window < attempt.createdAt) < cap.bound
  cooldown : kind = .send → ∀ attempt ∈ admitted, attempt.kind = .send → attempt.phone = phone →
    attempt.createdAt + limits.cooldown ≤ now

def Transaction.pending : Transaction → Option (Kind × String × String × ℤ)
  | .reserveAdmitted reserve => some (.send, reserve.key.phone, reserve.ip, reserve.now)
  | .reserveSwept reserve _ _ => some (.send, reserve.key.phone, reserve.ip, reserve.now)
  | .consumeAdmitted consume => some (.verify, consume.key.phone, consume.ip, consume.now)
  | .consumeSelected consume _ => some (.verify, consume.key.phone, consume.ip, consume.now)
  | .reserving _ | .consuming _ | .ended => none

theorem quarter_le_hour : 15 * minute ≤ hour := by decide

theorem hour_le_day : hour ≤ day := by decide

section Counting

variable {limits : Limits} {admitted attempts : List Attempt} {gone : ℕ → Bool}
  {phone ip : String} {now : ℤ}

section

variable (kept : attempts = admitted.filter fun attempt => !gone attempt.id)
  (old : ∀ attempt ∈ admitted, gone attempt.id = true → attempt.createdAt < now - day)

include kept old

theorem countP_kept {test : Attempt → Bool}
    (recent : ∀ attempt, test attempt = true → now - day < attempt.createdAt) :
    attempts.countP test = admitted.countP test := by
  rw [kept, List.countP_filter]
  apply List.countP_congr
  intro attempt isAdmitted
  cases isGone : gone attempt.id with
  | false => simp
  | true =>
    have isOld := old attempt isAdmitted isGone
    simp only [Bool.not_true, Bool.and_false, Bool.false_eq_true, false_iff]
    intro passes
    have := recent attempt passes
    omega

theorem countP_admitted_lt {test counted : Attempt → Bool} {bound : ℕ}
    (counts : ∀ attempt, test attempt = true →
      now - day < attempt.createdAt ∧ counted attempt = true)
    (room : attempts.countP counted < bound) : admitted.countP test < bound := by
  rw [← countP_kept kept old fun attempt passes => (counts attempt passes).1]
  refine Nat.lt_of_le_of_lt (List.countP_mono_left ?_) room
  intro attempt _ passes
  exact (counts attempt passes).2

theorem sinceLast_cooldown (short : limits.cooldown ≤ day)
    (rested : (sinceLast attempts phone ip now).any (fun since => since < limits.cooldown) = false)
    {attempt : Attempt} (isAdmitted : attempt ∈ admitted) (isSend : attempt.kind = .send)
    (samePhone : attempt.phone = phone) : attempt.createdAt + limits.cooldown ≤ now := by
  by_cases recent : now - day < attempt.createdAt
  · have inTable : attempt ∈ attempts := by
      rw [kept, List.mem_filter]
      refine ⟨isAdmitted, ?_⟩
      cases isGone : gone attempt.id with
      | false => rfl
      | true =>
        have := old attempt isAdmitted isGone
        omega
    have looked : attempt.createdAt ∈
        ((sendRows attempts phone ip now).filter fun attempt => attempt.phone = phone).map
          Attempt.createdAt := by
      refine List.mem_map.mpr ⟨attempt, ?_, rfl⟩
      simp [sendRows, inTable, isSend, samePhone, recent]
    cases last : (((sendRows attempts phone ip now).filter fun attempt =>
        attempt.phone = phone).map Attempt.createdAt).max? with
    | none =>
      rw [List.max?_eq_none_iff] at last
      rw [last] at looked
      cases looked
    | some newest =>
      have upper := (List.max?_eq_some_iff.mp last).2 _ looked
      simp only [sinceLast, last, Option.map_some, Option.any_some, decide_eq_false_iff_not]
        at rested
      omega
  · omega

end

/-- What a send has counted in the kept attempts holds for all that were admitted. -/
theorem room_send (short : limits.cooldown ≤ day)
    (kept : attempts = admitted.filter fun attempt => !gone attempt.id)
    (old : ∀ attempt ∈ admitted, gone attempt.id = true → attempt.createdAt < now - day)
    (admits : admitsSend limits attempts phone ip now = true) :
    Room limits admitted .send phone ip now := by
  simp only [admitsSend, Bool.and_eq_true, decide_eq_true_eq, Bool.not_eq_true', sendRows,
    List.countP_filter] at admits
  rcases admits with ⟨⟨⟨⟨rested, phoneHour⟩, phoneDay⟩, ipHour⟩, ipDay⟩
  have shorter := hour_le_day
  constructor
  · intro cap isCap sameKind
    simp only [caps, List.mem_cons, List.not_mem_nil, or_false] at isCap
    rcases isCap with rfl | rfl | rfl | rfl | rfl | rfl
    · refine countP_admitted_lt kept old ?_ phoneHour
      intro attempt passes
      simp only [Cap.counts, if_true, Bool.and_eq_true, Bool.or_eq_true, decide_eq_true_eq]
        at passes ⊢
      rcases passes with ⟨⟨isSend, samePhone⟩, recent⟩
      exact ⟨by omega, ⟨samePhone, recent⟩, ⟨isSend, by omega⟩, Or.inl samePhone⟩
    · refine countP_admitted_lt kept old ?_ phoneDay
      intro attempt passes
      simp only [Cap.counts, if_true, Bool.and_eq_true, Bool.or_eq_true, decide_eq_true_eq]
        at passes ⊢
      rcases passes with ⟨⟨isSend, samePhone⟩, recent⟩
      exact ⟨recent, samePhone, ⟨isSend, recent⟩, Or.inl samePhone⟩
    · refine countP_admitted_lt kept old ?_ ipHour
      intro attempt passes
      simp only [Cap.counts, Bool.false_eq_true, if_false, Bool.and_eq_true, Bool.or_eq_true,
        decide_eq_true_eq] at passes ⊢
      rcases passes with ⟨⟨isSend, sameIp⟩, recent⟩
      exact ⟨by omega, ⟨sameIp, recent⟩, ⟨isSend, by omega⟩, Or.inr sameIp⟩
    · refine countP_admitted_lt kept old ?_ ipDay
      intro attempt passes
      simp only [Cap.counts, Bool.false_eq_true, if_false, Bool.and_eq_true, Bool.or_eq_true,
        decide_eq_true_eq] at passes ⊢
      rcases passes with ⟨⟨isSend, sameIp⟩, recent⟩
      exact ⟨recent, sameIp, ⟨isSend, recent⟩, Or.inr sameIp⟩
    · cases sameKind
    · cases sameKind
  · intro _ attempt isAdmitted isSend samePhone
    exact sinceLast_cooldown kept old short rested isAdmitted isSend samePhone

/-- What a verification has counted holds for all that were admitted. -/
theorem room_verify (kept : attempts = admitted.filter fun attempt => !gone attempt.id)
    (old : ∀ attempt ∈ admitted, gone attempt.id = true → attempt.createdAt < now - day)
    (admits : admitsVerify limits attempts phone ip now = true) :
    Room limits admitted .verify phone ip now := by
  simp only [admitsVerify, Bool.and_eq_true, decide_eq_true_eq, List.countP_filter] at admits
  rcases admits with ⟨byPhone, byIp⟩
  have shortest := quarter_le_hour
  have shorter := hour_le_day
  refine ⟨?_, by simp⟩
  intro cap isCap sameKind
  simp only [caps, List.mem_cons, List.not_mem_nil, or_false] at isCap
  rcases isCap with rfl | rfl | rfl | rfl | rfl | rfl
  · cases sameKind
  · cases sameKind
  · cases sameKind
  · cases sameKind
  · refine countP_admitted_lt kept old ?_ byPhone
    intro attempt passes
    simp only [Cap.counts, if_true, Bool.and_eq_true, Bool.or_eq_true, decide_eq_true_eq]
      at passes ⊢
    rcases passes with ⟨⟨isVerify, samePhone⟩, recent⟩
    exact ⟨by omega, ⟨samePhone, recent⟩, ⟨isVerify, by omega⟩, Or.inl samePhone⟩
  · refine countP_admitted_lt kept old ?_ byIp
    intro attempt passes
    simp only [Cap.counts, Bool.false_eq_true, if_false, Bool.and_eq_true, Bool.or_eq_true,
      decide_eq_true_eq] at passes ⊢
    rcases passes with ⟨⟨isVerify, sameIp⟩, recent⟩
    exact ⟨by omega, sameIp, ⟨isVerify, recent⟩, Or.inr sameIp⟩

end Counting

/-- The history is rate limited, and what is pending still has room. -/
structure Paced (limits : Limits) (store : Store) : Prop where
  limited : RateLimited limits store.history
  ids : (admittedOf store.history).map Attempt.id = List.range store.nextId
  kept : ∃ gone : ℕ → Bool,
    store.attempts = ((admittedOf store.history).filter fun attempt => !gone attempt.id) ∧
    ∀ attempt ∈ admittedOf store.history, gone attempt.id = true →
      ∃ sweep ∈ sweepsOf store.history, attempt.createdAt < sweep - 2 * day
  room : ∀ (place : ℕ) (transaction : Transaction) (kind : Kind) (phone ip : String) (now : ℤ),
    store.transactions[place]? = some transaction →
    transaction.pending = some (kind, phone, ip, now) →
    Room limits (admittedOf store.history) kind phone ip now
  exclusive : ∀ (place other : ℕ) (transaction another : Transaction) (kind : Kind)
    (phone ip : String) (now : ℤ), store.transactions[place]? = some transaction →
    store.transactions[other]? = some another → other ≠ place →
    transaction.pending = some (kind, phone, ip, now) → another.holds kind phone ip = false
  sweeping : ∀ (place : ℕ) (reserve : Reserve) (attempts : List ℕ) (codes : List CodeKey),
    store.transactions[place]? = some (.reserveSwept reserve attempts codes) →
    ∀ attempt ∈ admittedOf store.history, attempt.id ∈ attempts →
      attempt.createdAt < reserve.now - 2 * day
  known : ∀ (place : ℕ) (reserve : Reserve) (attempts : List ℕ) (codes : List CodeKey),
    store.transactions[place]? = some (.reserveSwept reserve attempts codes) →
    ∀ id ∈ attempts, id < store.nextId

section Paces

variable {limits : Limits} {store : Store}

theorem Transaction.lock_eq_pending (transaction : Transaction) :
    transaction.lock = transaction.pending.map fun (kind, phone, ip, _) => (kind, phone, ip) := by
  cases transaction <;> rfl

variable {transaction : Transaction}

theorem Transaction.holds_eq_false_of_pending
    (free : transaction.pending = none) (kind : Kind) (phone ip : String) :
    transaction.holds kind phone ip = false := by
  simp [holds, lock_eq_pending, free]

theorem Transaction.holds_comm {kind other : Kind}
    {phone otherPhone ip otherIp : String} {now otherNow : ℤ} {another : Transaction}
    (pending : transaction.pending = some (kind, phone, ip, now))
    (otherPending : another.pending = some (other, otherPhone, otherIp, otherNow))
    (free : transaction.holds other otherPhone otherIp = false) :
    another.holds kind phone ip = false := by
  simp only [holds, lock_eq_pending, pending, otherPending, Option.map_some, Bool.and_eq_false_iff,
    Bool.or_eq_false_iff, decide_eq_false_iff_not] at free ⊢
  rcases free with kinds | ⟨phones, ips⟩
  · exact Or.inl fun same => kinds same.symm
  · exact Or.inr ⟨fun same => phones same.symm, fun same => ips same.symm⟩

variable {place : ℕ}

variable {before after : Transaction}

theorem Paced.move (paced : Paced limits store) (found : store.transactions[place]? = some before)
    (room : ∀ kind phone ip now, after.pending = some (kind, phone, ip, now) →
      Room limits (admittedOf store.history) kind phone ip now)
    (alone : ∀ (other : ℕ) (another : Transaction) (kind : Kind) (phone ip : String) (now : ℤ),
      store.transactions[other]? = some another → other ≠ place → after.pending =
        some (kind, phone, ip, now) → another.holds kind phone ip = false)
    (swept : ∀ reserve attempts codes, after = .reserveSwept reserve attempts codes →
      (∀ attempt ∈ admittedOf store.history, attempt.id ∈ attempts →
        attempt.createdAt < reserve.now - 2 * day) ∧ ∀ id ∈ attempts, id < store.nextId) :
    Paced limits (store.setTransaction place after) := by
  refine ⟨paced.limited, paced.ids, paced.kept, ?_, ?_, ?_, ?_⟩
  · intro other transaction kind phone ip now isFound pending
    rcases Store.setTransaction_cases found isFound with ⟨-, rfl⟩ | ⟨-, earlier⟩
    · exact room kind phone ip now pending
    · exact paced.room other transaction kind phone ip now earlier pending
  · intro first second transaction another kind phone ip now isFirst isSecond different pending
    rcases Store.setTransaction_cases found isFirst with ⟨rfl, rfl⟩ | ⟨notPlace, earlierFirst⟩
    · rcases Store.setTransaction_cases found isSecond with ⟨rfl, -⟩ | ⟨-, earlierSecond⟩
      · exact absurd rfl different
      · exact alone second another kind phone ip now earlierSecond different pending
    · rcases Store.setTransaction_cases found isSecond with ⟨rfl, rfl⟩ | ⟨-, earlierSecond⟩
      · cases afterPending : another.pending with
        | none => exact Transaction.holds_eq_false_of_pending afterPending kind phone ip
        | some held =>
          rcases held with ⟨otherKind, otherPhone, otherIp, otherNow⟩
          exact Transaction.holds_comm pending afterPending
            (alone first transaction otherKind otherPhone otherIp otherNow earlierFirst notPlace
              afterPending)
      · exact paced.exclusive first second transaction another kind phone ip now earlierFirst
          earlierSecond different pending
  · intro other reserve attempts codes isFound
    rcases Store.setTransaction_cases found isFound with ⟨-, same⟩ | ⟨-, earlier⟩
    · exact (swept reserve attempts codes same.symm).1
    · exact paced.sweeping other reserve attempts codes earlier
  · intro other reserve attempts codes isFound
    rcases Store.setTransaction_cases found isFound with ⟨-, same⟩ | ⟨-, earlier⟩
    · exact (swept reserve attempts codes same.symm).2
    · exact paced.known other reserve attempts codes earlier

theorem Paced.advance (paced : Paced limits store)
    (found : store.transactions[place]? = some before) (same : after.pending = before.pending)
    (swept : ∀ reserve attempts codes, after = .reserveSwept reserve attempts codes →
      (∀ attempt ∈ admittedOf store.history, attempt.id ∈ attempts →
        attempt.createdAt < reserve.now - 2 * day) ∧ ∀ id ∈ attempts, id < store.nextId) :
    Paced limits (store.setTransaction place after) := by
  refine paced.move found ?_ ?_ swept
  · intro kind phone ip now pending
    exact paced.room place before kind phone ip now found (same ▸ pending)
  · intro other another kind phone ip now isOther different pending
    exact paced.exclusive place other before another kind phone ip now found isOther different
      (same ▸ pending)

theorem Paced.admit {kind : Kind} {phone ip : String} {now : ℤ} (paced : Paced limits store)
    (found : store.transactions[place]? = some before)
    (pending : after.pending = some (kind, phone, ip, now))
    (room : Room limits (admittedOf store.history) kind phone ip now)
    (free : store.anotherOne place (fun other => other.holds kind phone ip) = false)
    (notSwept : ∀ reserve attempts codes, after ≠ .reserveSwept reserve attempts codes) :
    Paced limits (store.setTransaction place after) := by
  rw [Store.anotherOne_eq_false_iff] at free
  refine paced.move found ?_ ?_ ?_
  · intro otherKind otherPhone otherIp otherNow same
    cases pending.symm.trans same
    exact room
  · intro other another otherKind otherPhone otherIp otherNow isOther different same
    cases pending.symm.trans same
    exact free other another isOther different
  · intro reserve attempts codes same
    exact absurd same (notSwept reserve attempts codes)

theorem Paced.begin (paced : Paced limits store) (free : transaction.pending = none) :
    Paced limits { store with transactions := store.transactions ++ [transaction] } := by
  have notSwept {reserve : Reserve} {attempts : List ℕ} {codes : List CodeKey} :
      transaction ≠ .reserveSwept reserve attempts codes := by
    rintro rfl
    cases free
  refine ⟨paced.limited, paced.ids, paced.kept, ?_, ?_, ?_, ?_⟩
  · intro place other kind phone ip now isFound pending
    rcases getElem?_concat_cases isFound with earlier | ⟨-, rfl⟩
    · exact paced.room place other kind phone ip now earlier pending
    · rw [free] at pending
      cases pending
  · intro first second other another kind phone ip now isFirst isSecond different pending
    rcases getElem?_concat_cases isFirst with earlierFirst | ⟨-, rfl⟩
    · rcases getElem?_concat_cases isSecond with earlierSecond | ⟨-, rfl⟩
      · exact paced.exclusive first second other another kind phone ip now earlierFirst
          earlierSecond different pending
      · exact Transaction.holds_eq_false_of_pending free kind phone ip
    · rw [free] at pending
      cases pending
  · intro place reserve attempts codes isFound
    rcases getElem?_concat_cases isFound with earlier | ⟨-, same⟩
    · exact paced.sweeping place reserve attempts codes earlier
    · exact absurd same.symm notSwept
  · intro place reserve attempts codes isFound
    rcases getElem?_concat_cases isFound with earlier | ⟨-, same⟩
    · exact paced.known place reserve attempts codes earlier
    · exact absurd same.symm notSwept

/-- An attempt that has room keeps the history rate limited. -/
theorem RateLimited.counting {history later : List Entry} {attempt : Attempt}
    (limited : RateLimited limits history)
    (longer : admittedOf later = admittedOf history ++ [attempt])
    (room : Room limits (admittedOf history) attempt.kind attempt.phone attempt.ip
      attempt.createdAt) : RateLimited limits later := by
  constructor
  · intro cap isCap phone ip until_
    rw [longer, List.countP_append, List.countP_singleton]
    split_ifs with counted
    · simp only [Bool.and_eq_true, decide_eq_true_eq] at counted
      rcases counted with ⟨⟨counts, after⟩, before⟩
      have kinds : cap.kind = attempt.kind := by
        simp only [Cap.counts, Bool.and_eq_true, decide_eq_true_eq] at counts
        exact counts.1.symm
      have free := room.windows cap isCap kinds
      refine Nat.lt_of_le_of_lt (List.countP_mono_left ?_) free
      intro other _ inWindow
      simp only [Bool.and_eq_true, decide_eq_true_eq] at inWindow ⊢
      refine ⟨?_, by omega⟩
      simp only [Cap.counts, Bool.and_eq_true] at inWindow counts ⊢
      refine ⟨inWindow.1.1.1, ?_⟩
      cases byPhone : cap.byPhone with
      | true => simp_all
      | false => simp_all
    · exact limited.windows cap isCap phone ip until_
  · intro phone
    rw [longer, List.filter_append, List.pairwise_append]
    refine ⟨limited.cooldown phone, ?_, ?_⟩
    · exact (List.pairwise_singleton _ _).sublist List.filter_sublist
    · intro earlier isEarlier last isLast
      simp only [List.mem_filter, List.mem_singleton, Bool.and_eq_true, decide_eq_true_eq]
        at isEarlier isLast
      rcases isLast with ⟨rfl, isSend, samePhone⟩
      exact room.cooldown isSend earlier isEarlier.1 isEarlier.2.1
        (isEarlier.2.2.trans samePhone.symm)

theorem Room.counting {admitted : List Attempt} {attempt : Attempt} {kind : Kind}
    {phone ip : String} {now : ℤ} (room : Room limits admitted kind phone ip now)
    (apart : attempt.kind = kind → attempt.phone ≠ phone ∧ attempt.ip ≠ ip) :
    Room limits (admitted ++ [attempt]) kind phone ip now := by
  constructor
  · intro cap isCap kinds
    have uncounted : cap.counts phone ip attempt = false := by
      by_contra counted
      simp only [Cap.counts, Bool.not_eq_false, Bool.and_eq_true, decide_eq_true_eq] at counted
      rcases apart (counted.1.trans kinds) with ⟨otherPhone, otherIp⟩
      cases byPhone : cap.byPhone <;> simp_all
    simpa [uncounted] using room.windows cap isCap kinds
  · intro isSend other isOther otherSend samePhone
    rcases List.mem_append.mp isOther with earlier | last
    · exact room.cooldown isSend other earlier otherSend samePhone
    · rw [List.mem_singleton] at last
      subst last
      exact absurd samePhone (apart (otherSend.trans isSend.symm)).1

/-- Committing what had room keeps the pace. -/
theorem Paced.commit {later : Store} {before : Transaction} {kind : Kind}
    {phone ip : String} {now : ℤ} {ids : List ℕ} (paced : Paced limits store)
    (found : store.transactions[place]? = some before)
    (pending : before.pending = some (kind, phone, ip, now))
    (transactions : later.transactions = (store.setTransaction place .ended).transactions)
    (history : admittedOf later.history =
      admittedOf store.history ++ [store.newAttempt phone ip kind now])
    (sweeps : ∀ sweep ∈ sweepsOf store.history, sweep ∈ sweepsOf later.history)
    (nextId : later.nextId = store.nextId + 1)
    (attempts : later.attempts = (store.attempts.filter fun old => old.id ∉ ids) ++
      [store.newAttempt phone ip kind now])
    (swept : ∀ attempt ∈ admittedOf store.history, attempt.id ∈ ids →
      ∃ sweep ∈ sweepsOf later.history, attempt.createdAt < sweep - 2 * day) :
    Paced limits later := by
  have room := paced.room place before kind phone ip now found pending
  have earlierId {attempt : Attempt} (isAdmitted : attempt ∈ admittedOf store.history) :
      attempt.id < store.nextId := by
    have member := List.mem_map_of_mem (f := Attempt.id) isAdmitted
    rw [paced.ids] at member
    exact List.mem_range.mp member
  refine ⟨paced.limited.counting history room, ?_, ?_, ?_, ?_, ?_, ?_⟩
  · rw [history, nextId, List.map_append, paced.ids, List.range_succ]
    rfl
  · rcases paced.kept with ⟨gone, kept, old⟩
    refine ⟨fun id => (gone id || id ∈ ids) && id ≠ store.nextId, ?_, ?_⟩
    · have last : [store.newAttempt phone ip kind now].filter (fun attempt =>
          !((gone attempt.id || attempt.id ∈ ids) && attempt.id ≠ store.nextId)) =
            [store.newAttempt phone ip kind now] := by
        simp [Store.newAttempt]
      rw [attempts, history, List.filter_append, kept, List.filter_filter, last]
      congr 1
      apply List.filter_congr
      intro attempt isAdmitted
      have different : attempt.id ≠ store.nextId := Nat.ne_of_lt (earlierId isAdmitted)
      cases isGone : gone attempt.id <;> simp [different, isGone]
    · intro attempt isAdmitted isGone
      simp only [Bool.and_eq_true, Bool.or_eq_true, decide_eq_true_eq] at isGone
      rw [history] at isAdmitted
      rcases List.mem_append.mp isAdmitted with earlier | last
      · rcases isGone.1 with wasGone | inIds
        · rcases old attempt earlier wasGone with ⟨sweep, isSweep, isOld⟩
          exact ⟨sweep, sweeps sweep isSweep, isOld⟩
        · exact swept attempt earlier inIds
      · rw [List.mem_singleton] at last
        exact absurd (by rw [last]; rfl) isGone.2
  · intro other transaction otherKind otherPhone otherIp otherNow isFound otherPending
    rw [transactions] at isFound
    rcases Store.setTransaction_cases found isFound with ⟨-, rfl⟩ | ⟨different, earlier⟩
    · cases otherPending
    · rw [history]
      apply (paced.room other transaction otherKind otherPhone otherIp otherNow earlier
        otherPending).counting
      intro sameKind
      have apart := paced.exclusive other place transaction before otherKind otherPhone otherIp
        otherNow earlier found (fun same => different same.symm) otherPending
      simp only [Transaction.holds, Transaction.lock_eq_pending, pending, Option.map_some,
        Bool.and_eq_false_iff, Bool.or_eq_false_iff, decide_eq_false_iff_not] at apart
      exact apart.resolve_left fun kinds => kinds sameKind
  · intro first second transaction another otherKind otherPhone otherIp otherNow isFirst isSecond
      different otherPending
    rw [transactions] at isFirst isSecond
    rcases Store.setTransaction_cases found isFirst with ⟨-, rfl⟩ | ⟨-, earlierFirst⟩
    · cases otherPending
    · rcases Store.setTransaction_cases found isSecond with ⟨-, rfl⟩ | ⟨-, earlierSecond⟩
      · rfl
      · exact paced.exclusive first second transaction another otherKind otherPhone otherIp
          otherNow earlierFirst earlierSecond different otherPending
  · intro other reserve swept codes isFound attempt isAdmitted inSwept
    rw [transactions] at isFound
    rcases Store.setTransaction_cases found isFound with ⟨-, same⟩ | ⟨-, earlier⟩
    · cases same
    · rw [history] at isAdmitted
      rcases List.mem_append.mp isAdmitted with before | last
      · exact paced.sweeping other reserve swept codes earlier attempt before inSwept
      · rw [List.mem_singleton] at last
        have inside := paced.known other reserve swept codes earlier attempt.id inSwept
        have newest : attempt.id = store.nextId := by
          rw [last]
          rfl
        omega
  · intro other reserve swept codes isFound id inSwept
    rw [transactions] at isFound
    rw [nextId]
    rcases Store.setTransaction_cases found isFound with ⟨-, same⟩ | ⟨-, earlier⟩
    · cases same
    · exact Nat.lt_succ_of_lt (paced.known other reserve swept codes earlier id inSwept)

/-- The `NOW()` of a transaction that has not counted yet. -/
def Transaction.clock : Transaction → Option ℤ
  | .reserving reserve => some reserve.now
  | .consuming consume => some consume.now
  | _ => none

def prompt (store : Store) : Step → Bool
  | .count place =>
    match store.transactions[place]?.bind Transaction.clock with
    | some now => (sweepsOf store.history).all fun sweep => sweep ≤ now + day
    | none => true
  | _ => true

theorem Paced.kept_of_prompt {now : ℤ}
    (paced : Paced limits store) (isPrompt : prompt store (.count place) = true)
    (found : store.transactions[place]? = some transaction) (clock : transaction.clock = some now) :
    ∃ gone : ℕ → Bool,
      store.attempts = ((admittedOf store.history).filter fun attempt => !gone attempt.id) ∧
      ∀ attempt ∈ admittedOf store.history, gone attempt.id = true →
        attempt.createdAt < now - day := by
  rcases paced.kept with ⟨gone, kept, old⟩
  simp only [prompt, found, Option.bind_some, clock, List.all_eq_true, decide_eq_true_eq]
    at isPrompt
  refine ⟨gone, kept, ?_⟩
  intro attempt isAdmitted isGone
  rcases old attempt isAdmitted isGone with ⟨sweep, isSweep, isOld⟩
  have near := isPrompt sweep isSweep
  omega

theorem paced_commitConsume {consume : Consume} {row : Option CodeRow} (paced : Paced limits store)
    (found : store.transactions[place]? = some (.consumeSelected consume row)) :
    Paced limits (store.commitConsume limits place consume row) := by
  have attempts : (store.attempts.filter fun old => old.id ∉ ([] : List ℕ)) = store.attempts := by
    simp
  have committed (later : Store)
      (transactions : later.transactions = (store.setTransaction place .ended).transactions)
      (history : admittedOf later.history = admittedOf store.history ++
        [store.newAttempt consume.key.phone consume.ip .verify consume.now])
      (sweeps : sweepsOf later.history = sweepsOf store.history)
      (nextId : later.nextId = store.nextId + 1)
      (rows : later.attempts = store.attempts ++
        [store.newAttempt consume.key.phone consume.ip .verify consume.now]) :
      Paced limits later := by
    refine paced.commit found rfl transactions history (fun _ isSweep => sweeps ▸ isSweep) nextId
      (rows.trans (by rw [attempts])) ?_
    intro attempt _ inIds
    cases inIds
  cases row with
  | none =>
    apply committed
    · rfl
    · simp [Store.commitConsume, admittedOf, Entry.attempt?]
    · simp [Store.commitConsume, sweepsOf, Entry.sweep?, List.filterMap_cons]
    · rfl
    · rfl
  | some row =>
    unfold Store.commitConsume
    simp only
    by_cases compared : row.comparable limits consume.now = true
    · rw [if_pos compared]
      apply committed
      · rfl
      · simp [admittedOf, Entry.attempt?, List.filterMap_cons]
      · simp [sweepsOf, Entry.sweep?, List.filterMap_cons]
      · rfl
      · rfl
    · rw [if_neg compared]
      apply committed
      · rfl
      · simp [admittedOf, Entry.attempt?]
      · simp [sweepsOf, Entry.sweep?, List.filterMap_cons]
      · rfl
      · rfl

theorem paced_commitReserve {reserve : Reserve} {attempts : List ℕ}
    {codes : List CodeKey} (paced : Paced limits store)
    (found : store.transactions[place]? = some (.reserveSwept reserve attempts codes)) :
    Paced limits (store.commitReserve limits place reserve attempts codes) := by
  refine paced.commit found rfl rfl ?_ ?_ rfl rfl ?_
  · simp [Store.commitReserve, admittedOf, Entry.attempt?, List.filterMap_cons]
  · intro sweep isSweep
    simp only [Store.commitReserve, sweepsOf, List.filterMap_append] at isSweep ⊢
    exact List.mem_append_left _ isSweep
  · intro attempt isAdmitted inIds
    refine ⟨reserve.now, ?_, paced.sweeping place reserve attempts codes found attempt isAdmitted
      inIds⟩
    simp [Store.commitReserve, sweepsOf, Entry.sweep?, List.filterMap_cons]

theorem paced_sweep {reserve : Reserve} {codes : List CodeKey} (paced : Paced limits store)
    (found : store.transactions[place]? = some (.reserveAdmitted reserve)) :
    Paced limits (store.setTransaction place (.reserveSwept reserve
      ((store.attempts.filter fun attempt =>
        attempt.createdAt < reserve.now - 2 * day).map Attempt.id) codes)) := by
  rcases paced.kept with ⟨gone, kept, -⟩
  have nodup : ((admittedOf store.history).map Attempt.id).Nodup := by
    rw [paced.ids]
    exact List.nodup_range
  have inAdmitted {attempt : Attempt} (inTable : attempt ∈ store.attempts) :
      attempt ∈ admittedOf store.history := by
    rw [kept] at inTable
    exact (List.mem_filter.mp inTable).1
  refine paced.advance found rfl ?_
  intro other ids keys same
  cases same
  refine ⟨?_, ?_⟩
  · intro attempt isAdmitted inIds
    rcases List.mem_map.mp inIds with ⟨row, isRow, sameId⟩
    rcases List.mem_filter.mp isRow with ⟨inTable, isOld⟩
    obtain rfl : row = attempt :=
      List.inj_on_of_nodup_map nodup (inAdmitted inTable) isAdmitted sameId
    simpa using isOld
  · intro id inIds
    rcases List.mem_map.mp inIds with ⟨row, isRow, rfl⟩
    have member := List.mem_map_of_mem (f := Attempt.id) (inAdmitted (List.mem_filter.mp isRow).1)
    rw [paced.ids] at member
    exact List.mem_range.mp member

theorem Paced.unrelated {later : Store} (paced : Paced limits store)
    (attempts : later.attempts = store.attempts) (nextId : later.nextId = store.nextId)
    (transactions : later.transactions = store.transactions)
    (admitted : admittedOf later.history = admittedOf store.history)
    (sweeps : sweepsOf later.history = sweepsOf store.history) : Paced limits later := by
  rcases paced with ⟨⟨windows, cooldown⟩, ids, kept, room, exclusive, sweeping, known⟩
  refine ⟨⟨?_, ?_⟩, ?_, ?_, ?_, ?_, ?_, ?_⟩
  · rwa [admitted]
  · rwa [admitted]
  · rwa [admitted, nextId]
  · rwa [admitted, attempts, sweeps]
  · rwa [admitted, transactions]
  · rwa [transactions]
  · rwa [admitted, transactions]
  · rwa [transactions, nextId]

/-- One prompt step keeps the pace. -/
theorem paced_step (short : limits.cooldown ≤ day) {event : Step} {next : Store}
    (paced : Paced limits store) (isPrompt : prompt store event = true)
    (stepped : store.step limits event = some next) : Paced limits next := by
  cases Store.stepped_of_step stepped with
  | beginReserve reserve fresh => exact paced.begin rfl
  | beginConsume consume => exact paced.begin rfl
  | admitReserve place reserve found free admits =>
    rcases paced.kept_of_prompt isPrompt found rfl with ⟨gone, kept, old⟩
    exact paced.admit found rfl (room_send short kept old admits) free nofun
  | admitConsume place consume found free admits =>
    rcases paced.kept_of_prompt isPrompt found rfl with ⟨gone, kept, old⟩
    exact paced.admit found rfl (room_verify kept old admits) free nofun
  | sweep place reserve found free => exact paced_sweep paced found
  | select place consume found free =>
    exact paced.advance found rfl nofun
  | commitReserve place reserve attempts codes found free => exact paced_commitReserve paced found
  | commitConsume place consume row found => exact paced_commitConsume paced found
  | ends event place transaction found =>
    exact paced.move found nofun nofun nofun
  | unchanged event => exact paced
  | activate challengeId now free some_ =>
    exact paced.unrelated rfl rfl rfl (by simp [admittedOf, Entry.attempt?, List.filterMap_cons])
      (by simp [sweepsOf, Entry.sweep?, List.filterMap_cons])
  | invalidate challengeId free => exact paced.unrelated rfl rfl rfl rfl rfl

theorem paced_initial : Paced limits ({} : Store) where
  limited := ⟨by simp [admittedOf], by simp [admittedOf]⟩
  ids := rfl
  kept := ⟨fun _ => false, rfl, by simp [admittedOf]⟩
  room := by simp
  exclusive := by simp
  sweeping := by simp
  known := by simp

end Paces

end HybridInference.Phone
