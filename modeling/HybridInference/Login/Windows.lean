import HybridInference.Login.Throttle

/-!
# What the login buckets count

The five buckets count all earlier attempts in their windows, whatever was dropped or
swept, so each verdict is the one that the whole history calls for, and no window of the
history has more attempts let through than its limit.
-/

namespace HybridInference.Login

open Library

variable {limits : Limits} {accountKey : Text → Text} {every : ℕ}

def Answer.moment (answer : Answer) : ℚ := answer.1.now

/-- The buckets hold of every queue the attempts that still count. -/
structure Follows (accountKey : Text → Text) (buckets : Buckets) (log : List Answer) (now : ℚ) :
    Prop where
  device : SlidingWindow.Tracks Answer.moment Answer.deviceQueue buckets.deviceAttempts log
    (now - fifteenMinutes)
  devices : SlidingWindow.Tracks Answer.moment (Answer.devicesQueue accountKey)
    buckets.accountDeviceAttempts log (now - fifteenMinutes)
  address : SlidingWindow.Tracks Answer.moment (Answer.addressQueue accountKey)
    buckets.accountAddressAttempts log (now - fifteenMinutes)
  account : SlidingWindow.Tracks Answer.moment (Answer.accountQueue accountKey)
    buckets.accountAttempts log (now - fifteenMinutes)
  ip : SlidingWindow.Tracks Answer.moment Answer.ipQueue buckets.ipAttempts log (now - hour)

section Steps

variable {buckets : Buckets} {log : List Answer} {now later : ℚ}

theorem follows_empty (now : ℚ) : Follows accountKey {} [] now :=
  ⟨SlidingWindow.tracks_empty _, SlidingWindow.tracks_empty _, SlidingWindow.tracks_empty _,
    SlidingWindow.tracks_empty _, SlidingWindow.tracks_empty _⟩

theorem Follows.mono (follows : Follows accountKey buckets log now) (le : now ≤ later) :
    Follows accountKey buckets log later :=
  ⟨follows.device.mono (sub_le_sub_right le _), follows.devices.mono (sub_le_sub_right le _),
    follows.address.mono (sub_le_sub_right le _), follows.account.mono (sub_le_sub_right le _),
    follows.ip.mono (sub_le_sub_right le _)⟩

theorem Follows.swept (follows : Follows accountKey buckets log now) :
    Follows accountKey (buckets.swept every now) log now := by
  unfold Buckets.swept
  split_ifs
  · exact ⟨follows.device.sweep le_rfl, follows.devices.sweep le_rfl, follows.address.sweep le_rfl,
      follows.account.sweep le_rfl, follows.ip.sweep le_rfl⟩
  · exact ⟨follows.device, follows.devices, follows.address, follows.account, follows.ip⟩

theorem length_since_eq {Key : Type} [DecidableEq Key] {queueOf : Answer → Option Key}
    {queues : Dict Key (List ℚ)} {bound : ℚ}
    (tracks : SlidingWindow.Tracks Answer.moment queueOf queues log bound)
    (sorted : log.Pairwise fun earlier later => earlier.moment ≤ later.moment) (key : Key) :
    (SlidingWindow.since (SlidingWindow.queue queues key) bound).length =
      countSince log queueOf key bound :=
  tracks.length_since le_rfl sorted

/-- The verdict is the one that the whole history calls for, and the buckets count on. -/
theorem Follows.check {attempt : Attempt} {given : Verdict} {next : Buckets}
    (follows : Follows accountKey buckets log attempt.now)
    (sorted : log.Pairwise fun earlier later => earlier.moment ≤ later.moment)
    (checked : buckets.check limits accountKey attempt = (given, next)) :
    given = verdict limits accountKey log attempt ∧
      Follows accountKey next (log ++ [(attempt, given)]) attempt.now := by
  cases isDevice : attempt.device with
  | some device =>
    have keyless {given : Verdict} : Answer.addressQueue accountKey (attempt, given) = none ∧
        Answer.accountQueue accountKey (attempt, given) = none ∧
        Answer.ipQueue (attempt, given) = none := by
      simp [Answer.addressQueue, Answer.accountQueue, Answer.ipQueue, isDevice]
    simp only [Buckets.check, verdict, isDevice, length_since_eq follows.device sorted,
      length_since_eq follows.devices sorted] at checked ⊢
    split_ifs at checked ⊢ with full allFull
    all_goals
      cases checked
      refine ⟨rfl, follows.device.record le_rfl isDevice, ?_, follows.address.skip keyless.1,
        follows.account.skip keyless.2.1, follows.ip.skip keyless.2.2⟩
    · exact follows.devices.skip (by simp [Answer.devicesQueue])
    · exact (follows.devices.cut le_rfl).skip (by simp [Answer.devicesQueue])
    · exact follows.devices.record le_rfl (by simp [Answer.devicesQueue, isDevice])
  | none =>
    have deviceless {given : Verdict} : Answer.deviceQueue (attempt, given) = none ∧
        Answer.devicesQueue accountKey (attempt, given) = none := by
      simp [Answer.deviceQueue, Answer.devicesQueue, isDevice]
    simp only [Buckets.check, verdict, isDevice, length_since_eq follows.ip sorted,
      length_since_eq follows.address sorted, length_since_eq follows.account sorted] at checked ⊢
    split_ifs at checked ⊢ with ipFull addressFull accountFull
    all_goals
      cases checked
      refine ⟨rfl, follows.device.skip deviceless.1, follows.devices.skip deviceless.2,
        follows.address.record le_rfl (by simp [Answer.addressQueue, isDevice]), ?_,
        follows.ip.record le_rfl (by simp [Answer.ipQueue, isDevice])⟩
    · exact follows.account.skip (by simp [Answer.accountQueue])
    · exact follows.account.skip (by simp [Answer.accountQueue])
    · exact (follows.account.cut le_rfl).skip (by simp [Answer.accountQueue])
    · exact follows.account.record le_rfl (by simp [Answer.accountQueue, isDevice])

end Steps

def InOrder (attempts : List Attempt) : Prop :=
  attempts.Pairwise fun earlier later => earlier.now ≤ later.now

section Judges

variable {judge : List Answer → Attempt → Verdict}

theorem judged_nil : Judged judge [] := by
  intro earlier answer later split
  simp at split

variable {log : List Answer}

/-- An answer that the log decides extends a judged log. -/
theorem judged_concat {answer : Answer} (judged : Judged judge log)
    (isVerdict : answer.2 = judge log answer.1) : Judged judge (log ++ [answer]) := by
  intro earlier middle later split
  rcases List.eq_nil_or_concat later with rfl | ⟨before, last, rfl⟩
  · rcases List.append_inj' split rfl with ⟨rfl, same⟩
    cases same
    exact isVerdict
  · have same : log ++ [answer] = (earlier ++ middle :: before) ++ [last] := by
      simpa using split
    exact judged earlier middle before (List.append_inj' same rfl).1

theorem Judged.of_concat {answer : Answer} (judged : Judged judge (log ++ [answer])) :
    Judged judge log ∧ answer.2 = judge log answer.1 := by
  refine ⟨?_, judged log answer [] rfl⟩
  intro earlier middle later split
  exact judged earlier middle (later ++ [answer]) (by rw [split]; simp)

/-- Attempts are answered in one way only. -/
theorem Judged.unique {first second : List Answer} (judged : Judged judge first)
    (other : Judged judge second) (same : first.map Prod.fst = second.map Prod.fst) :
    first = second := by
  induction first using List.reverseRecOn generalizing second with
  | nil =>
    rw [List.map_nil, eq_comm, List.map_eq_nil_iff] at same
    exact same.symm
  | append_singleton earlier last ih =>
    rcases List.eq_nil_or_concat second with rfl | ⟨before, final, rfl⟩
    · simp at same
    · rw [List.concat_eq_append] at other same ⊢
      rw [List.map_append, List.map_append] at same
      rcases List.append_inj' same rfl with ⟨sameBefore, sameLast⟩
      rcases judged.of_concat with ⟨judgedBefore, lastVerdict⟩
      rcases other.of_concat with ⟨otherBefore, finalVerdict⟩
      obtain rfl := ih judgedBefore otherBefore sameBefore
      have sameAttempt : last.1 = final.1 := List.singleton_inj.mp sameLast
      have sameVerdict : last.2 = final.2 := by
        rw [lastVerdict, finalVerdict, sameAttempt]
      rw [Prod.ext sameAttempt sameVerdict]

theorem Judged.filter {keep : Answer → Bool}
    {narrow : List Answer → Attempt → Verdict} (judged : Judged judge log)
    (narrows : ∀ earlier answer, keep answer = true → answer.2 = judge earlier answer.1 →
      answer.2 = narrow (earlier.filter keep) answer.1) : Judged narrow (log.filter keep) := by
  intro earlier answer later split
  rcases List.filter_eq_append_iff.mp split with ⟨before, rest, rfl, rfl, isRest⟩
  rcases List.filter_eq_cons_iff.mp isRest with ⟨skipped, after, rfl, none, kept, -⟩
  have isVerdict := judged (before ++ skipped) answer after (by simp)
  have narrowed := narrows (before ++ skipped) answer kept isVerdict
  rwa [List.filter_append, List.filter_eq_nil_iff.mpr none, List.append_nil] at narrowed

end Judges

variable {attempts : List Attempt}

/-- Attempts in order are answered as the log of answers decides. -/
theorem answersFrom_judged {buckets : Buckets} {log : List Answer}
    {now : ℚ} (follows : Follows accountKey buckets log now)
    (judged : Judged (verdict limits accountKey) log)
    (sorted : log.Pairwise fun earlier later => earlier.moment ≤ later.moment)
    (past : ∀ answer ∈ log, answer.moment ≤ now)
    (later : ∀ attempt ∈ attempts, now ≤ attempt.now) (inOrder : InOrder attempts) :
    Judged (verdict limits accountKey)
      (log ++ (answersFrom limits accountKey every buckets attempts).1) := by
  induction attempts generalizing buckets log now with
  | nil => simpa [answersFrom] using judged
  | cons attempt rest ih =>
    rw [InOrder, List.pairwise_cons] at inOrder
    have begun := later attempt (by simp)
    have swept : Follows accountKey (buckets.swept every attempt.now) log attempt.now :=
      (follows.mono begun).swept
    rcases checked : (buckets.swept every attempt.now).check limits accountKey attempt with
      ⟨given, next⟩
    rcases swept.check sorted checked with ⟨isVerdict, followed⟩
    have rested := ih followed (judged_concat judged isVerdict) ?_ ?_ inOrder.1 inOrder.2
    · simpa [answersFrom, Buckets.checkAndRecordLogin, checked] using rested
    · rw [List.pairwise_append]
      refine ⟨sorted, by simp, ?_⟩
      intro earlier member last isLast
      rw [List.mem_singleton.mp isLast]
      exact (past earlier member).trans begun
    · intro answer member
      rcases List.mem_append.mp member with earlier | last
      · exact (past answer earlier).trans begun
      · rw [List.mem_singleton.mp last]
        exact le_rfl

theorem answersFrom_attempts (buckets : Buckets) (attempts : List Attempt) :
    ((answersFrom limits accountKey every buckets attempts).1.map Prod.fst) = attempts := by
  induction attempts generalizing buckets with
  | nil => rfl
  | cons attempt rest ih =>
    simp only [answersFrom, List.map_cons, ih]

theorem answers_attempts (attempts : List Attempt) :
    (answers limits accountKey every attempts).map Prod.fst = attempts :=
  answersFrom_attempts {} attempts

theorem answers_judged (inOrder : InOrder attempts) :
    Judged (verdict limits accountKey) (answers limits accountKey every attempts) := by
  cases attempts with
  | nil => exact judged_nil
  | cons attempt rest =>
    have later := List.pairwise_cons.mp inOrder
    refine answersFrom_judged (follows_empty attempt.now) judged_nil (by simp) (by simp) ?_ inOrder
    intro other member
    rcases List.mem_cons.mp member with rfl | inRest
    · exact le_rfl
    · exact later.1 other inRest

end HybridInference.Login
