import HybridInference.Login.Windows

/-!
# The limits and the isolation of logins

The bounds of every window, and what a verdict does not depend on: attempts without a
device entry where the attempt carries one, and the refused attempts of another address
that carry none.
-/

namespace HybridInference.Login

open Library

variable {limits : Limits} {accountKey : Text → Text}

section Bounds

variable {Key : Type*} [DecidableEq Key]

def allowedIn (log : List Answer) (queueOf : Answer → Option Key) (key : Key)
    (length until_ : ℚ) : ℕ :=
  log.countP fun answer => (queueOf answer = some key && answer.2 = .allowed) &&
    until_ - length ≤ answer.moment && answer.moment ≤ until_

/-- No queue of the log allows more than its limit in its window. -/
structure WithinLimits (limits : Limits) (accountKey : Text → Text) (log : List Answer) : Prop where
  address : ∀ account ip until_, allowedIn log (Answer.addressQueue accountKey) (account, ip)
    fifteenMinutes until_ ≤ limits.per15min.toNat
  account : ∀ account until_, allowedIn log (Answer.accountQueue accountKey) account
    fifteenMinutes until_ ≤ limits.accountPer15min.toNat
  device : ∀ device until_, allowedIn log Answer.deviceQueue device
    fifteenMinutes until_ ≤ limits.per15min.toNat
  devices : ∀ account until_, allowedIn log (Answer.devicesQueue accountKey) account
    fifteenMinutes until_ ≤ limits.accountPer15min.toNat
  ip : ∀ ip until_, allowedIn log Answer.ipQueue ip hour until_ ≤ limits.perHourPerIp.toNat

variable {log : List Answer}

theorem room_of_allowed {attempt : Attempt} (isDevice : attempt.device = none)
    (allowed : verdict limits accountKey log attempt = .allowed) :
    (countSince log Answer.ipQueue (normalizeIpBucket attempt.ip) (attempt.now - hour) : ℤ) <
        limits.perHourPerIp ∧
      (countSince log (Answer.addressQueue accountKey)
        (accountKey attempt.email, normalizeIpBucket attempt.ip)
        (attempt.now - fifteenMinutes) : ℤ) < limits.per15min ∧
      (countSince log (Answer.accountQueue accountKey) (accountKey attempt.email)
        (attempt.now - fifteenMinutes) : ℤ) < limits.accountPer15min := by
  simp only [verdict, isDevice] at allowed
  split_ifs at allowed with ipFull addressFull accountFull
  exact ⟨not_le.mp ipFull, not_le.mp addressFull, not_le.mp accountFull⟩

theorem deviceRoom_of_allowed {attempt : Attempt} {device : Text}
    (isDevice : attempt.device = some device)
    (allowed : verdict limits accountKey log attempt = .allowed) :
    (countSince log Answer.deviceQueue device (attempt.now - fifteenMinutes) : ℤ) <
        limits.per15min ∧
      (countSince log (Answer.devicesQueue accountKey) (accountKey attempt.email)
        (attempt.now - fifteenMinutes) : ℤ) < limits.accountPer15min := by
  simp only [verdict, isDevice] at allowed
  split_ifs at allowed with full allFull
  exact ⟨not_le.mp full, not_le.mp allFull⟩

theorem allowedIn_le {queueOf : Answer → Option Key} {key : Key} {limit : ℤ}
    {length : ℚ} (judged : Judged (verdict limits accountKey) log)
    (sorted : log.Pairwise fun earlier later => earlier.moment ≤ later.moment)
    (room : ∀ earlier answer, queueOf answer = some key → answer.2 = .allowed →
      answer.2 = verdict limits accountKey earlier answer.1 →
      (countSince earlier queueOf key (answer.moment - length) : ℤ) < limit) (until_ : ℚ) :
    allowedIn log queueOf key length until_ ≤ limit.toNat := by
  have isRecorded (answer : Answer) (counted : (decide (queueOf answer = some key) &&
      decide (answer.2 = .allowed)) = true) : decide (queueOf answer = some key) = true :=
    (Bool.and_eq_true _ _ ▸ counted).1
  apply SlidingWindow.countP_window_le sorted isRecorded
  intro earlier answer later split counted
  simp only [Bool.and_eq_true, decide_eq_true_eq] at counted
  have found := room earlier answer counted.1 counted.2 (judged earlier answer later split)
  have inRoom : countSince earlier queueOf key (answer.moment - length) < limit.toNat := by
    omega
  exact inRoom

/-- A judged log stays within the limits. -/
theorem withinLimits (judged : Judged (verdict limits accountKey) log)
    (sorted : log.Pairwise fun earlier later => earlier.moment ≤ later.moment) :
    WithinLimits limits accountKey log := by
  refine ⟨?_, ?_, ?_, ?_, ?_⟩
  · intro account ip
    apply allowedIn_le judged sorted
    intro earlier answer isKey allowed isVerdict
    simp only [Answer.addressQueue, Option.isNone_iff_eq_none] at isKey
    split_ifs at isKey with isDevice
    rw [← Option.some.inj isKey]
    exact (room_of_allowed isDevice (isVerdict ▸ allowed)).2.1
  · intro account
    apply allowedIn_le judged sorted
    intro earlier answer isKey allowed isVerdict
    simp only [Answer.accountQueue, Bool.and_eq_true, Option.isNone_iff_eq_none] at isKey
    split_ifs at isKey with isDevice
    rw [← Option.some.inj isKey]
    exact (room_of_allowed isDevice.1 (isVerdict ▸ allowed)).2.2
  · intro device
    apply allowedIn_le judged sorted
    intro earlier answer isKey allowed isVerdict
    exact (deviceRoom_of_allowed isKey (isVerdict ▸ allowed)).1
  · intro account
    apply allowedIn_le judged sorted
    intro earlier answer isKey allowed isVerdict
    simp only [Answer.devicesQueue, Bool.and_eq_true] at isKey
    split_ifs at isKey with isDevice
    rcases Option.isSome_iff_exists.mp isDevice.1 with ⟨device, isDevice⟩
    rw [← Option.some.inj isKey]
    exact (deviceRoom_of_allowed isDevice (isVerdict ▸ allowed)).2
  · intro ip
    apply allowedIn_le judged sorted
    intro earlier answer isKey allowed isVerdict
    simp only [Answer.ipQueue, Option.isNone_iff_eq_none] at isKey
    split_ifs at isKey with isDevice
    rw [← Option.some.inj isKey]
    exact (room_of_allowed isDevice (isVerdict ▸ allowed)).1

end Bounds

section Isolation

variable {Key : Type*} [DecidableEq Key]

variable {log : List Answer}

theorem countSince_filter {queueOf : Answer → Option Key} {key : Key}
    {keep : Answer → Bool} (cutoff : ℚ)
    (elsewhere : ∀ answer, queueOf answer = some key → keep answer = true) :
    countSince (log.filter keep) queueOf key cutoff = countSince log queueOf key cutoff := by
  unfold countSince
  rw [List.countP_filter]
  apply List.countP_congr
  intro answer _
  simp only [Bool.and_eq_true, decide_eq_true_eq]
  constructor
  · rintro ⟨counted, -⟩
    exact counted
  · intro counted
    exact ⟨counted, elsewhere answer counted.1⟩

def Answer.recognized (answer : Answer) : Bool := answer.1.device.isSome

def Answer.refusedFrom (ip : Text) (answer : Answer) : Bool :=
  answer.1.device.isNone && normalizeIpBucket answer.1.ip = ip && answer.2 ≠ .allowed

theorem verdict_filter_recognized {attempt : Attempt} {device : Text}
    (isDevice : attempt.device = some device) :
    verdict limits accountKey (log.filter Answer.recognized) attempt =
      verdict limits accountKey log attempt := by
  simp only [verdict, isDevice]
  rw [countSince_filter, countSince_filter]
  · intro answer isKey
    simp only [Answer.devicesQueue] at isKey
    split_ifs at isKey with recognized
    simp only [Bool.and_eq_true] at recognized
    exact recognized.1
  · intro answer isKey
    simp only [Answer.deviceQueue] at isKey
    simp [Answer.recognized, isKey]

/-- Recognized devices are answered as if they were alone. -/
theorem answers_recognized (judged : Judged (verdict limits accountKey) log) :
    Judged (verdict limits accountKey) (log.filter Answer.recognized) := by
  apply judged.filter
  intro earlier answer recognized isVerdict
  rcases Option.isSome_iff_exists.mp recognized with ⟨device, isDevice⟩
  rw [verdict_filter_recognized isDevice]
  exact isVerdict

def verdictBeside (limits : Limits) (accountKey : Text → Text) (ip : Text) (log : List Answer)
    (attempt : Attempt) : Verdict :=
  if attempt.device.isNone && normalizeIpBucket attempt.ip = ip then .allowed
  else verdict limits accountKey log attempt

theorem verdict_filter_refusedFrom {ip : Text} {attempt : Attempt}
    (elsewhere : ¬ (attempt.device.isNone && normalizeIpBucket attempt.ip = ip) = true) :
    verdict limits accountKey (log.filter fun answer => !answer.refusedFrom ip) attempt =
      verdict limits accountKey log attempt := by
  cases isDevice : attempt.device with
  | some device =>
    simp only [verdict, isDevice]
    rw [countSince_filter, countSince_filter]
    · intro answer isKey
      simp only [Answer.devicesQueue] at isKey
      split_ifs at isKey with recognized
      simp only [Bool.and_eq_true, decide_eq_true_eq] at recognized
      simp [Answer.refusedFrom, recognized.2]
    · intro answer isKey
      simp only [Answer.deviceQueue] at isKey
      simp [Answer.refusedFrom, isKey]
  | none =>
    have different : normalizeIpBucket attempt.ip ≠ ip := by
      simpa [isDevice] using elsewhere
    simp only [verdict, isDevice]
    rw [countSince_filter, countSince_filter, countSince_filter]
    · intro answer isKey
      simp only [Answer.accountQueue] at isKey
      split_ifs at isKey with allowed
      simp only [Bool.and_eq_true, decide_eq_true_eq] at allowed
      simp [Answer.refusedFrom, allowed.2]
    · intro answer isKey
      simp only [Answer.addressQueue] at isKey
      split_ifs at isKey
      simp only [Option.some.injEq, Prod.mk.injEq] at isKey
      simp [Answer.refusedFrom, isKey.2, different]
    · intro answer isKey
      simp only [Answer.ipQueue] at isKey
      split_ifs at isKey
      simp only [Option.some.injEq] at isKey
      simp [Answer.refusedFrom, isKey, different]

/-- The others are answered as if an address had not made its refused attempts. -/
theorem answers_beside (ip : Text) (judged : Judged (verdict limits accountKey) log) :
    Judged (verdictBeside limits accountKey ip)
      (log.filter fun answer => !answer.refusedFrom ip) := by
  apply judged.filter
  intro earlier answer kept isVerdict
  unfold verdictBeside
  by_cases inAddress : (answer.1.device.isNone && normalizeIpBucket answer.1.ip = ip) = true
  · simpa [Answer.refusedFrom, inAddress] using kept
  · rw [if_neg inAddress, verdict_filter_refusedFrom inAddress]
    exact isVerdict

end Isolation

/-- Every verdict is exact, every window keeps its limits, attempts with a device entry are answered
whatever the others do, and no verdict depends on the sweeps. -/
theorem login_throttling {every : ℕ} {attempts : List Attempt} (inOrder : InOrder attempts) :
    Judged (verdict limits accountKey) (answers limits accountKey every attempts) ∧
    WithinLimits limits accountKey (answers limits accountKey every attempts) ∧
    (∀ others, InOrder others → (others.filter fun attempt => attempt.device.isSome) =
        attempts.filter (fun attempt => attempt.device.isSome) →
      (answers limits accountKey every others).filter Answer.recognized =
        (answers limits accountKey every attempts).filter Answer.recognized) ∧
    (∀ ip others, InOrder others → ((answers limits accountKey every others).filter fun answer =>
          !answer.refusedFrom ip).map Prod.fst =
        ((answers limits accountKey every attempts).filter fun answer =>
          !answer.refusedFrom ip).map Prod.fst →
      ((answers limits accountKey every others).filter fun answer => !answer.refusedFrom ip) =
        (answers limits accountKey every attempts).filter fun answer =>
          !answer.refusedFrom ip) ∧
    ∀ other, answers limits accountKey other attempts =
      answers limits accountKey every attempts := by
  have judged (number : ℕ) {calls : List Attempt} (sorted : InOrder calls) :
      Judged (verdict limits accountKey) (answers limits accountKey number calls) :=
    answers_judged sorted
  refine ⟨judged every inOrder, ?_, ?_, ?_, ?_⟩
  · apply withinLimits (judged every inOrder)
    have sorted : ((answers limits accountKey every attempts).map Prod.fst).Pairwise
        fun earlier later => earlier.now ≤ later.now := by
      rw [answers_attempts]
      exact inOrder
    rw [List.pairwise_map] at sorted
    exact sorted
  · intro others othersInOrder same
    apply (answers_recognized (judged every othersInOrder)).unique
      (answers_recognized (judged every inOrder))
    have attemptsOf (calls : List Attempt) :
        ((answers limits accountKey every calls).filter Answer.recognized).map Prod.fst =
          calls.filter fun attempt => attempt.device.isSome := by
      have all := @answers_attempts limits accountKey every calls
      conv_rhs => rw [← all]
      rw [List.filter_map]
      rfl
    rw [attemptsOf, attemptsOf]
    exact same
  · intro ip others othersInOrder same
    exact (answers_beside ip (judged every othersInOrder)).unique
      (answers_beside ip (judged every inOrder)) same
  · intro other
    apply (judged other inOrder).unique (judged every inOrder)
    rw [answers_attempts, answers_attempts]

def fromTwoAddresses : List Attempt :=
  [⟨['o'], ['a'], none, 0⟩, ⟨['o'], ['a'], none, 800⟩, ⟨['o'], ['b'], none, 801⟩,
    ⟨['o'], ['b'], some ['d'], 802⟩]

theorem login_throttling_two_addresses :
    WithinLimits ⟨1, 50, 20⟩ id (answers ⟨1, 50, 20⟩ id sweepEvery fromTwoAddresses) ∧
      answers ⟨1, 50, 20⟩ id 1 fromTwoAddresses =
        answers ⟨1, 50, 20⟩ id sweepEvery fromTwoAddresses := by
  have inOrder : InOrder fromTwoAddresses := by
    unfold InOrder fromTwoAddresses
    decide +kernel
  have throttled := @login_throttling ⟨1, 50, 20⟩ id sweepEvery _ inOrder
  exact ⟨throttled.2.1, throttled.2.2.2.2 1⟩

def elsewhere (accountKey : Text → Text) (attempt : Attempt) (log : List Answer) : List Answer :=
  log.filter fun answer => accountKey answer.1.email = accountKey attempt.email &&
    normalizeIpBucket answer.1.ip ≠ normalizeIpBucket attempt.ip

/-- Without a refused attempt, a later one of its address may be let through and take the
account's last place; and a refused attempt with a device entry counts for the device,
wherever that is used next. -/
theorem refused_attempt_is_felt_elsewhere :
    (¬ ∀ (limits : Limits) (accountKey : Text → Text) (earlier later : List Attempt)
        (refused : Attempt), InOrder (earlier ++ refused :: later) → refused.device = none →
      (∃ bucket, (refused, .refused bucket) ∈
        answers limits accountKey sweepEvery (earlier ++ refused :: later)) →
      elsewhere accountKey refused
          (answers limits accountKey sweepEvery (earlier ++ refused :: later)) =
        elsewhere accountKey refused (answers limits accountKey sweepEvery (earlier ++ later))) ∧
      ¬ ∀ (limits : Limits) (accountKey : Text → Text) (earlier later : List Attempt)
        (refused : Attempt), InOrder (earlier ++ refused :: later) → later.length = 1 →
      (∃ bucket, (refused, .refused bucket) ∈
        answers limits accountKey sweepEvery (earlier ++ refused :: later)) →
      elsewhere accountKey refused
          (answers limits accountKey sweepEvery (earlier ++ refused :: later)) =
        elsewhere accountKey refused (answers limits accountKey sweepEvery (earlier ++ later)) := by
  refine ⟨?_, ?_⟩
  · intro unfelt
    have same := unfelt ⟨1, 1, 20⟩ id [⟨['o'], ['a'], none, 0⟩]
      [⟨['o'], ['a'], none, 1000⟩, ⟨['o'], ['b'], none, 1001⟩] ⟨['o'], ['a'], none, 800⟩
      (by unfold InOrder; decide +kernel) rfl ⟨.email, by decide +kernel⟩
    revert same
    decide +kernel
  · intro unfelt
    have same := unfelt ⟨1, 50, 20⟩ id [⟨['o'], ['a'], some ['d'], 0⟩]
      [⟨['o'], ['b'], some ['d'], 1000⟩] ⟨['o'], ['a'], some ['d'], 800⟩
      (by unfold InOrder; decide +kernel) rfl ⟨.device, by decide +kernel⟩
    revert same
    decide +kernel

end HybridInference.Login
