import HybridInference.AuthFailures.Blocklist
import Mathlib.Data.List.DropRight

/-!
# What the block list answers

A history of calls says of each budget when it was blocked, if it was not cleared since, and which
failures were recorded since. The state of the module keeps of this what can still matter, so its
answers are those of the history, whenever it sweeps.
-/

namespace HybridInference.AuthFailures

open Library
open Login (Text normalizeIpBucket)

inductive Budget where
  | unresolved
  | bucket (key : Text)
  deriving DecidableEq

namespace Budget

def policy (settings : Settings) : Budget → Policy
  | .unresolved => settings.unresolved
  | .bucket _ => settings.resolved

def name : Budget → Text
  | .unresolved => unresolvedGlobal
  | .bucket key => key

end Budget

def budgetOf (settings : Settings) (provenance : Provenance) : Option Budget :=
  match clientIp provenance with
  | none => some .unresolved
  | some ip => if isExempt settings ip then none else some (.bucket (normalizeIpBucket ip))

/-- The budget that `clear_block` clears. -/
def clearedBudget (ip : Text) : Budget :=
  if normalizeIpBucket ip = unresolvedGlobal then .unresolved else .bucket (normalizeIpBucket ip)

/-- A budget's failures and the moments it was blocked, as the calls alone tell them. -/
structure History where
  blockedAt : Option ℚ := none
  failures : List ℚ := []

namespace History

variable (policy : Policy) (history : History) (now : ℚ)

def isBlocked : Bool := history.blockedAt.any fun moment => now - moment < policy.durationSec

def crosses : Bool :=
  policy.threshold ≤ history.failures.countP (fun moment => now - moment ≤ policy.windowSec) + 1

def fail : History :=
  if history.isBlocked policy now then history
  else if history.crosses policy now then { blockedAt := some now, failures := [] }
  else { history with failures := history.failures ++ [now] }

end History

def historyOf (settings : Settings) (budget : Budget) : List TimedCall → History
  | [] => {}
  | timed :: earlier =>
    let history := historyOf settings budget earlier
    match timed.call with
    | .recordAuthFailure provenance =>
      if budgetOf settings provenance = some budget then
        history.fail (budget.policy settings) timed.now
      else history
    | .clearBlock ip => if clearedBudget ip = budget then {} else history
    | .isIpBlocked _ | .listActiveBlocks => history

def listed (settings : Settings) (earlier : List TimedCall) (now : ℚ) (budget : Budget) :
    Option ActiveBlock :=
  ((historyOf settings budget earlier).blockedAt.filter fun moment =>
    now - moment < (budget.policy settings).durationSec).map fun moment =>
      Blocklist.entry now budget.name (moment + (budget.policy settings).durationSec)

/-- What a call may answer after the earlier ones. -/
def Answers (settings : Settings) (earlier : List TimedCall) (timed : TimedCall) : Answer → Prop
  | .recorded blockedNow =>
    ∃ provenance, timed.call = .recordAuthFailure provenance ∧
      blockedNow = (budgetOf settings provenance).any fun budget =>
        let history := historyOf settings budget earlier
        !history.isBlocked (budget.policy settings) timed.now &&
          history.crosses (budget.policy settings) timed.now
  | .blocked blocked wait =>
    ∃ provenance, timed.call = .isIpBlocked provenance ∧
      (blocked = ((budgetOf settings provenance).any fun budget =>
        (historyOf settings budget earlier).isBlocked (budget.policy settings) timed.now)) ∧
      wait = (((budgetOf settings provenance).bind fun budget =>
        listed settings earlier timed.now budget).elim 0 ActiveBlock.retryAfterSec)
  | .active blocks =>
    timed.call = .listActiveBlocks ∧
    blocks.Pairwise (fun first second => Blocklist.listedBefore first second = true) ∧
    ∃ budgets : List Budget, budgets.Nodup ∧ (∀ budget, budget ∈ budgets ↔
        (historyOf settings budget earlier).isBlocked (budget.policy settings) timed.now = true) ∧
      blocks.Perm (budgets.filterMap (listed settings earlier timed.now))
  | .cleared lifted =>
    ∃ ip, timed.call = .clearBlock ip ∧
      lifted = (historyOf settings (clearedBudget ip) earlier).isBlocked
        ((clearedBudget ip).policy settings) timed.now

namespace Blocklist

def kept (list : Blocklist) : Budget → List ℚ
  | .unresolved => list.unresolvedFailures
  | .bucket key => SlidingWindow.queue list.failures key

def deadline (list : Blocklist) : Budget → Option ℚ
  | .unresolved => list.unresolvedBlockedUntil
  | .bucket key => list.blockedUntil.find key

end Blocklist

/-- What is kept of a budget tells its history since the window began. -/
structure Keeps (policy : Policy) (history : History) (kept : List ℚ) (deadline : Option ℚ)
    (clock : ℚ) : Prop where
  failures : SlidingWindow.Trails history.failures kept (clock - policy.windowSec)
  sorted : history.failures.Pairwise (· ≤ ·)
  past : ∀ moment ∈ history.failures, moment ≤ clock
  block : deadline = history.blockedAt.map (fun moment : ℚ => moment + policy.durationSec) ∨
    deadline = none ∧ ∀ moment, history.blockedAt = some moment →
      moment + policy.durationSec ≤ clock

namespace Keeps

variable {policy : Policy} {history : History} {kept : List ℚ} {deadline : Option ℚ} {clock now : ℚ}

theorem fresh (clock : ℚ) : Keeps policy {} [] none clock :=
  { failures := SlidingWindow.trails_nil _
    sorted := List.Pairwise.nil
    past := by simp
    block := Or.inl rfl }

theorem mono (keeps : Keeps policy history kept deadline clock) (le : clock ≤ now) :
    Keeps policy history kept deadline now :=
  { failures := keeps.failures.mono (by linarith)
    sorted := keeps.sorted
    past := fun moment inside => (keeps.past moment inside).trans le
    block := keeps.block.imp_right fun lapsed =>
      ⟨lapsed.1, fun moment found => (lapsed.2 moment found).trans le⟩ }

section

variable (keeps : Keeps policy history kept deadline now)

include keeps

theorem isBlocked_eq :
    (deadline.any fun until_ => now < until_) = history.isBlocked policy now := by
  unfold History.isBlocked
  rcases keeps.block with rfl | ⟨rfl, lapsed⟩
  · rw [Option.any_map]
    congr 1
    funext moment
    apply decide_eq_decide.mpr
    constructor
    · intro below
      linarith
    · intro below
      linarith
  · cases found : history.blockedAt with
    | none => rfl
    | some moment =>
      have over_ := lapsed moment found
      simp only [Option.any_none, Option.any_some]
      symm
      rw [decide_eq_false_iff_not]
      linarith

theorem filter_eq : (deadline.filter fun until_ => now < until_) =
      (history.blockedAt.filter fun moment => now - moment < policy.durationSec).map
        fun moment : ℚ => moment + policy.durationSec := by
  have blocked := keeps.isBlocked_eq
  unfold History.isBlocked at blocked
  rcases keeps.block with rfl | ⟨rfl, lapsed⟩
  · cases found : history.blockedAt with
    | none => rfl
    | some moment =>
      rw [found] at blocked
      simp only [Option.map_some, Option.any_some] at blocked ⊢
      simp only [Option.filter, blocked]
      split_ifs <;> rfl
  · cases found : history.blockedAt with
    | none => rfl
    | some moment =>
      have over_ := lapsed moment found
      have notBlocked : ¬now - moment < policy.durationSec := by linarith
      simp [Option.filter, notBlocked]

theorem crosses_eq : decide (policy.threshold ≤
      ((SlidingWindow.since kept (now - policy.windowSec) ++ [now]).length : ℤ)) =
        history.crosses policy now := by
  have counted := keeps.failures.length_since le_rfl keeps.sorted
  have same : history.failures.countP (fun moment => now - policy.windowSec ≤ moment) =
      history.failures.countP fun moment => now - moment ≤ policy.windowSec := by
    apply List.countP_congr
    intro moment _
    simp only [decide_eq_true_eq]
    constructor
    all_goals
      intro le
      linarith
  rw [List.length_append, counted, same]
  rfl

theorem trim {left : List ℚ} {leftDeadline : Option ℚ}
    (failures : left = kept ∨ left = SlidingWindow.since kept (now - policy.windowSec))
    (block : leftDeadline = deadline ∨ leftDeadline = deadline.filter fun until_ => now < until_) :
    Keeps policy history left leftDeadline now := by
  refine ⟨?_, keeps.sorted, keeps.past, ?_⟩
  · rcases failures with rfl | rfl
    · exact keeps.failures
    · exact keeps.failures.since le_rfl
  · rcases block with rfl | rfl
    · exact keeps.block
    · rcases keeps.block with rfl | ⟨rfl, lapsed⟩
      · cases found : history.blockedAt with
        | none => exact Or.inl rfl
        | some moment =>
          by_cases active : now < moment + policy.durationSec
          · left
            simp [Option.filter, active]
          · right
            refine ⟨by simp [Option.filter, active], ?_⟩
            intro other same
            rw [Option.some.injEq] at same
            rw [← same]
            exact not_lt.mp active
      · exact Or.inr ⟨rfl, lapsed⟩

theorem fail : Keeps policy (history.fail policy now) (if history.isBlocked policy now then kept
        else if history.crosses policy now then []
        else SlidingWindow.since kept (now - policy.windowSec) ++ [now])
      (if history.isBlocked policy now then deadline
        else if history.crosses policy now then some (now + policy.durationSec) else deadline)
      now := by
  unfold History.fail
  split_ifs with blocked crosses
  · exact keeps
  · exact ⟨SlidingWindow.trails_nil _, List.Pairwise.nil, by simp, Or.inl rfl⟩
  · refine ⟨(keeps.failures.since le_rfl).append now, ?_, ?_, keeps.block⟩
    · rw [List.pairwise_append]
      refine ⟨keeps.sorted, List.pairwise_singleton _ _, ?_⟩
      intro moment inside last isLast
      rw [List.mem_singleton.mp isLast]
      exact keeps.past moment inside
    · intro moment inside
      rcases List.mem_append.mp inside with inside | last
      · exact keeps.past moment inside
      · rw [List.mem_singleton.mp last]

end

end Keeps

/-- Every budget of the list keeps its history. -/
def Follows (settings : Settings) (list : Blocklist) (earlier : List TimedCall)
    (clock : ℚ) : Prop :=
  ∀ budget : Budget, Keeps (budget.policy settings) (historyOf settings budget earlier)
    (list.kept budget) (list.deadline budget) clock

section Steps

variable {settings : Settings} {list : Blocklist} {earlier : List TimedCall} {history : History}
  {now : ℚ} {key : Text}

theorem find_eraseAll_lapsedKeys (list : Blocklist) (key : Text) :
    (list.blockedUntil.eraseAll (list.lapsedKeys now)).find key =
      (list.blockedUntil.find key).filter fun until_ => now < until_ := by
  rw [Dict.find_eraseAll]
  cases found : list.blockedUntil.find key with
  | none =>
    split_ifs <;> rfl
  | some until_ =>
    have lapsed : key ∈ list.lapsedKeys now ↔ until_ ≤ now := by
      unfold Blocklist.lapsedKeys
      rw [Dict.mem_keysWhere_iff]
      constructor
      · rintro ⟨value, there, le⟩
        rw [found, Option.some.injEq] at there
        rw [there]
        simpa using le
      · intro le
        exact ⟨until_, found, by simpa using le⟩
    by_cases le : until_ ≤ now <;> simp [lapsed, le, Option.filter]

theorem kept_swept (list : Blocklist) (budget : Budget) :
    (list.swept settings now).kept budget = list.kept budget ∨
      (list.swept settings now).kept budget =
        SlidingWindow.since (list.kept budget) (now - (budget.policy settings).windowSec) := by
  unfold Blocklist.swept
  split_ifs
  · right
    cases budget with
    | unresolved => rfl
    | bucket key => exact SlidingWindow.queue_sweep list.failures key
  · left
    cases budget <;> rfl

theorem deadline_swept (list : Blocklist) (budget : Budget) :
    (list.swept settings now).deadline budget = list.deadline budget ∨
      (list.swept settings now).deadline budget =
        (list.deadline budget).filter fun until_ => now < until_ := by
  unfold Blocklist.swept
  split_ifs
  · right
    cases budget with
    | unresolved => rfl
    | bucket key => exact find_eraseAll_lapsedKeys list key
  · left
    cases budget <;> rfl

theorem Follows.swept (follows : Follows settings list earlier now) :
    Follows settings (list.swept settings now) earlier now :=
  fun budget => (follows budget).trim (kept_swept list budget) (deadline_swept list budget)

/-- A failure of an address follows its history and blocks as the history says. -/
theorem recordBucket_spec
    (keeps : Keeps settings.resolved history (list.kept (.bucket key)) (list.deadline (.bucket key))
      now) :
    (list.recordBucket settings now key).1 =
        (!history.isBlocked settings.resolved now && history.crosses settings.resolved now) ∧
      Keeps settings.resolved (history.fail settings.resolved now)
        ((list.recordBucket settings now key).2.kept (.bucket key))
        ((list.recordBucket settings now key).2.deadline (.bucket key)) now ∧
      ∀ budget, budget ≠ .bucket key →
        (list.recordBucket settings now key).2.kept budget = list.kept budget ∧
        (list.recordBucket settings now key).2.deadline budget = list.deadline budget := by
  have failed := keeps.fail
  have blocked : ((list.blockedUntil.find key).any fun until_ => now < until_) =
      history.isBlocked settings.resolved now := keeps.isBlocked_eq
  have crosses : decide (settings.resolved.threshold ≤ ((SlidingWindow.since
      (SlidingWindow.queue list.failures key) (now - settings.resolved.windowSec) ++
        [now]).length : ℤ)) = history.crosses settings.resolved now := keeps.crosses_eq
  unfold Blocklist.recordBucket
  dsimp only
  rw [blocked]
  cases isBlocked : history.isBlocked settings.resolved now with
  | true =>
    rw [isBlocked] at failed
    exact ⟨rfl, failed, fun _ _ => ⟨rfl, rfl⟩⟩
  | false =>
    rw [isBlocked] at failed
    cases crossed : history.crosses settings.resolved now with
    | true =>
      rw [crossed] at failed crosses
      rw [if_neg Bool.false_ne_true, if_pos (of_decide_eq_true crosses)]
      refine ⟨rfl, ?_, ?_⟩
      · have kept : SlidingWindow.queue (list.failures.erase key) key = [] := by
          unfold SlidingWindow.queue
          rw [Dict.find_erase, if_pos rfl]
          rfl
        unfold Blocklist.kept Blocklist.deadline
        dsimp only
        rw [kept, Dict.find_insert, if_pos rfl]
        exact failed
      · intro budget other
        cases budget with
        | unresolved => exact ⟨rfl, rfl⟩
        | bucket otherKey =>
          have distinct : otherKey ≠ key := fun same => other (congrArg _ same)
          unfold Blocklist.kept Blocklist.deadline SlidingWindow.queue
          dsimp only
          rw [Dict.find_erase, if_neg distinct, Dict.find_insert, if_neg distinct]
          exact ⟨rfl, rfl⟩
    | false =>
      rw [crossed] at failed crosses
      rw [if_neg Bool.false_ne_true, if_neg (of_decide_eq_false crosses)]
      refine ⟨rfl, ?_, ?_⟩
      · unfold Blocklist.kept Blocklist.deadline
        dsimp only
        rw [SlidingWindow.queue_insert, if_pos rfl]
        exact failed
      · intro budget other
        cases budget with
        | unresolved => exact ⟨rfl, rfl⟩
        | bucket otherKey =>
          have distinct : otherKey ≠ key := fun same => other (congrArg _ same)
          unfold Blocklist.kept Blocklist.deadline
          dsimp only
          rw [SlidingWindow.queue_insert, if_neg distinct]
          exact ⟨rfl, rfl⟩

/-- A failure of an unresolved client, as `recordBucket_spec`. -/
theorem recordUnresolved_spec
    (keeps : Keeps settings.unresolved history (list.kept .unresolved) (list.deadline .unresolved)
      now) :
    (list.recordUnresolved settings now).1 =
        (!history.isBlocked settings.unresolved now && history.crosses settings.unresolved now) ∧
      Keeps settings.unresolved (history.fail settings.unresolved now)
        ((list.recordUnresolved settings now).2.kept .unresolved)
        ((list.recordUnresolved settings now).2.deadline .unresolved) now ∧
      ∀ key, (list.recordUnresolved settings now).2.kept (.bucket key) = list.kept (.bucket key) ∧
        (list.recordUnresolved settings now).2.deadline (.bucket key) =
          list.deadline (.bucket key) := by
  have failed := (keeps.trim (Or.inr rfl) (Or.inl rfl)).fail
  have blocked : (list.unresolvedBlockedUntil.any fun until_ => now < until_) =
      history.isBlocked settings.unresolved now := keeps.isBlocked_eq
  have crosses : decide (settings.unresolved.threshold ≤ ((SlidingWindow.since
      list.unresolvedFailures (now - settings.unresolved.windowSec) ++ [now]).length : ℤ)) =
        history.crosses settings.unresolved now := keeps.crosses_eq
  have twice : SlidingWindow.since (SlidingWindow.since (list.kept .unresolved)
      (now - settings.unresolved.windowSec)) (now - settings.unresolved.windowSec) =
      SlidingWindow.since (list.kept .unresolved) (now - settings.unresolved.windowSec) := by
    unfold SlidingWindow.since
    exact List.dropWhile_idempotent _ _
  rw [twice] at failed
  unfold Blocklist.recordUnresolved
  dsimp only
  rw [blocked]
  cases isBlocked : history.isBlocked settings.unresolved now with
  | true =>
    rw [isBlocked] at failed
    exact ⟨rfl, failed, fun _ => ⟨rfl, rfl⟩⟩
  | false =>
    rw [isBlocked] at failed
    cases crossed : history.crosses settings.unresolved now with
    | true =>
      rw [crossed] at failed crosses
      rw [if_neg Bool.false_ne_true, if_pos (of_decide_eq_true crosses)]
      exact ⟨rfl, failed, fun _ => ⟨rfl, rfl⟩⟩
    | false =>
      rw [crossed] at failed crosses
      rw [if_neg Bool.false_ne_true, if_neg (of_decide_eq_false crosses)]
      exact ⟨rfl, failed, fun _ => ⟨rfl, rfl⟩⟩

end Steps

section Answers

variable {settings : Settings} {list : Blocklist} {earlier : List TimedCall} {timed : TimedCall}

theorem listed_eq {now : ℚ} (follows : Follows settings list earlier now) (budget : Budget) :
    listed settings earlier now budget =
      ((list.deadline budget).filter fun until_ => now < until_).map
        (Blocklist.entry now budget.name) := by
  rw [(follows budget).filter_eq, Option.map_map]
  rfl

variable {provenance : Provenance}

/-- A recorded failure keeps every budget's history. -/
theorem follows_record (enabled : settings.authFailureBlockEnabled = true)
    (follows : Follows settings list earlier timed.now)
    (isRecord : timed.call = .recordAuthFailure provenance) :
    Answers settings earlier timed (list.answer settings timed).1 ∧
      Follows settings (list.answer settings timed).2 (timed :: earlier) timed.now := by
  unfold Blocklist.answer
  rw [isRecord]
  have history : ∀ budget, historyOf settings budget (timed :: earlier) =
      if budgetOf settings provenance = some budget then
        (historyOf settings budget earlier).fail (budget.policy settings) timed.now
      else historyOf settings budget earlier := by
    intro budget
    rw [historyOf, isRecord]
  unfold Blocklist.recordAuthFailure Follows
  simp only [enabled, Bool.not_true, Bool.false_eq_true, if_false, history]
  cases resolved : clientIp provenance with
  | none =>
    have isBudget : budgetOf settings provenance = some .unresolved := by
      unfold budgetOf
      rw [resolved]
    rcases recordUnresolved_spec (follows .unresolved) with ⟨answered, keeps, others⟩
    refine ⟨⟨provenance, isRecord, ?_⟩, ?_⟩
    · rw [isBudget]
      exact answered
    · intro budget
      rw [isBudget]
      cases budget with
      | unresolved => exact keeps
      | bucket key =>
        have kept := follows (.bucket key)
        rw [← (others key).1, ← (others key).2] at kept
        exact kept
  | some ip =>
    dsimp only
    by_cases exempt : isExempt settings ip = true
    · have isBudget : budgetOf settings provenance = none := by
        unfold budgetOf
        rw [resolved]
        exact if_pos exempt
      rw [if_pos exempt, isBudget]
      refine ⟨⟨provenance, isRecord, ?_⟩, follows⟩
      rw [isBudget]
      rfl
    · have isBudget : budgetOf settings provenance = some (.bucket (normalizeIpBucket ip)) := by
        unfold budgetOf
        rw [resolved]
        exact if_neg exempt
      rw [if_neg exempt, isBudget]
      rcases recordBucket_spec (follows.swept (.bucket (normalizeIpBucket ip))) with
        ⟨answered, keeps, others⟩
      refine ⟨⟨provenance, isRecord, ?_⟩, ?_⟩
      · rw [isBudget]
        exact answered
      · intro budget
        by_cases same : budget = .bucket (normalizeIpBucket ip)
        · rw [same, if_pos rfl]
          exact keeps
        · have kept := follows.swept budget
          rw [← (others budget same).1, ← (others budget same).2] at kept
          rw [if_neg (fun equal => same (Option.some.inj equal).symm)]
          exact kept

theorem Follows.of_trim {next : Blocklist} {now : ℚ} (follows : Follows settings list earlier now)
    (kept : ∀ budget, next.kept budget = list.kept budget)
    (deadline : ∀ budget, next.deadline budget = list.deadline budget ∨
      next.deadline budget = (list.deadline budget).filter fun until_ => now < until_) :
    Follows settings next earlier now :=
  fun budget => (follows budget).trim (Or.inl (kept budget)) (deadline budget)

/-- A call that is no failure and clears nothing leaves every history as it is. -/
theorem Follows.read {next : Blocklist} (follows : Follows settings next earlier timed.now)
    (reads : (∃ provenance, timed.call = .isIpBlocked provenance) ∨
      timed.call = .listActiveBlocks) :
    Follows settings next (timed :: earlier) timed.now := by
  intro budget
  rcases reads with ⟨provenance, isRead⟩ | isList
  · rw [historyOf, isRead]
    exact follows budget
  · rw [historyOf, isList]
    exact follows budget

/-- Reading a budget's deadline answers by its history, also when the lapsed one is dropped. -/
theorem follows_lookup (follows : Follows settings list earlier timed.now)
    (isRead : timed.call = .isIpBlocked provenance) {budget : Budget}
    (isBudget : budgetOf settings provenance = some budget) (dropped : Blocklist)
    (kept : ∀ other, dropped.kept other = list.kept other)
    (deadline : ∀ other, dropped.deadline other = if other = budget then none else
      list.deadline other) {answer : (Bool × ℤ) × Blocklist}
    (answered : answer = match list.deadline budget with
      | none => ((false, 0), list)
      | some until_ => if until_ ≤ timed.now then ((false, 0), dropped)
        else ((true, retryAfterSec until_ timed.now), list)) :
    Answers settings earlier timed (.blocked answer.1.1 answer.1.2) ∧
      Follows settings answer.2 (timed :: earlier) timed.now := by
  have isBlocked := (follows budget).isBlocked_eq
  have isListed := listed_eq follows budget
  have told (blocked : Bool) (wait : ℤ)
      (found : (list.deadline budget).any (timed.now < ·) = blocked)
      (waits : ((list.deadline budget).filter (timed.now < ·)).elim 0 (retryAfterSec · timed.now) =
        wait) : Answers settings earlier timed (.blocked blocked wait) := by
    refine ⟨provenance, isRead, ?_, ?_⟩
    · rw [isBudget, Option.any_some, ← isBlocked, found]
    · rw [isBudget, Option.bind_some, isListed, ← waits]
      cases (list.deadline budget).filter (timed.now < ·) <;> rfl
  rw [answered]
  cases found : list.deadline budget with
  | none => exact ⟨told _ _ (by simp [found]) (by simp [found]), follows.read (.inl ⟨_, isRead⟩)⟩
  | some until_ =>
    dsimp only
    split_ifs with lapsed
    · refine ⟨told _ _ (by simp [found, lapsed]) (by simp [found, Option.filter, lapsed.not_gt]),
        (follows.of_trim kept fun other => ?_).read (.inl ⟨_, isRead⟩)⟩
      rw [deadline]
      split_ifs with same
      · right
        simp [same, found, Option.filter, lapsed.not_gt]
      · exact Or.inl rfl
    · exact ⟨told _ _ (by simp [found, not_le.mp lapsed])
        (by simp [found, Option.filter, not_le.mp lapsed]), follows.read (.inl ⟨_, isRead⟩)⟩

/-- Asking after an address answers by its history and forgets nothing needed. -/
theorem follows_isIpBlocked (enabled : settings.authFailureBlockEnabled = true)
    (follows : Follows settings list earlier timed.now)
    (isRead : timed.call = .isIpBlocked provenance) :
    Answers settings earlier timed (list.answer settings timed).1 ∧
      Follows settings (list.answer settings timed).2 (timed :: earlier) timed.now := by
  unfold Blocklist.answer
  rw [isRead]
  unfold Blocklist.isIpBlocked
  simp only [enabled, Bool.not_true, Bool.false_eq_true, if_false]
  cases resolved : clientIp provenance with
  | none =>
    have isBudget : budgetOf settings provenance = some .unresolved := by
      unfold budgetOf
      rw [resolved]
    refine follows_lookup follows isRead isBudget { list with unresolvedBlockedUntil := none }
      (fun other => ?_) (fun other => ?_) rfl
    · cases other <;> rfl
    · cases other <;> simp [Blocklist.deadline]
  | some ip =>
    dsimp only
    by_cases exempt : isExempt settings ip = true
    · have isBudget : budgetOf settings provenance = none := by
        unfold budgetOf
        rw [resolved]
        exact if_pos exempt
      rw [if_pos exempt]
      refine ⟨⟨provenance, isRead, ?_, ?_⟩, follows.read (.inl ⟨_, isRead⟩)⟩
      · rw [isBudget]
        rfl
      · rw [isBudget]
        rfl
    · have isBudget : budgetOf settings provenance = some (.bucket (normalizeIpBucket ip)) := by
        unfold budgetOf
        rw [resolved]
        exact if_neg exempt
      rw [if_neg exempt]
      refine follows_lookup follows isRead isBudget
        { list with blockedUntil := list.blockedUntil.erase (normalizeIpBucket ip) }
        (fun other => ?_) (fun other => ?_) rfl
      · cases other <;> rfl
      · cases other <;> simp [Blocklist.deadline, Dict.find_erase]

/-- Clearing a block answers by the history and clears that budget only. -/
theorem follows_clearBlock (enabled : settings.authFailureBlockEnabled = true)
    (follows : Follows settings list earlier timed.now) {ip : Text}
    (isClear : timed.call = .clearBlock ip) :
    Answers settings earlier timed (list.answer settings timed).1 ∧
      Follows settings (list.answer settings timed).2 (timed :: earlier) timed.now := by
  have history : ∀ budget, historyOf settings budget (timed :: earlier) =
      if clearedBudget ip = budget then {} else historyOf settings budget earlier := by
    intro budget
    rw [historyOf, isClear]
  have isBlocked := (follows (clearedBudget ip)).isBlocked_eq
  unfold Blocklist.answer
  rw [isClear]
  unfold Blocklist.clearBlock
  simp only [enabled, Bool.not_true, Bool.false_eq_true, if_false]
  by_cases isGlobal : normalizeIpBucket ip = unresolvedGlobal
  · have cleared : clearedBudget ip = .unresolved := if_pos isGlobal
    rw [if_pos isGlobal]
    rw [cleared] at isBlocked
    refine ⟨⟨ip, isClear, ?_⟩, ?_⟩
    · rw [cleared]
      exact isBlocked
    · intro budget
      rw [history, cleared]
      cases budget with
      | unresolved => exact Keeps.fresh _
      | bucket key => exact follows (.bucket key)
  · have cleared : clearedBudget ip = .bucket (normalizeIpBucket ip) := if_neg isGlobal
    rw [if_neg isGlobal]
    rw [cleared] at isBlocked
    refine ⟨⟨ip, isClear, ?_⟩, ?_⟩
    · rw [cleared]
      exact isBlocked
    · intro budget
      rw [history, cleared]
      cases budget with
      | unresolved => exact follows .unresolved
      | bucket key =>
        by_cases same : key = normalizeIpBucket ip
        · rw [same, if_pos rfl]
          simp [Blocklist.kept, Blocklist.deadline, SlidingWindow.queue, Dict.find_erase,
            Keeps.fresh]
        · have distinct : Budget.bucket (normalizeIpBucket ip) ≠ .bucket key :=
            fun equal => same (Budget.bucket.inj equal).symm
          rw [if_neg distinct]
          simpa [Blocklist.kept, Blocklist.deadline, SlidingWindow.queue, Dict.find_erase, same]
            using follows (.bucket key)

theorem listedBefore_trans (first second third : ActiveBlock)
    (one : Blocklist.listedBefore first second = true)
    (another : Blocklist.listedBefore second third = true) :
    Blocklist.listedBefore first third = true := by
  simp only [Blocklist.listedBefore, Bool.or_eq_true, Bool.and_eq_true, decide_eq_true_eq]
    at one another ⊢
  rcases one with one | ⟨one, name⟩
  · rcases another with another | ⟨another, -⟩
    · exact Or.inl (another.trans one)
    · exact Or.inl (another ▸ one)
  · rcases another with another | ⟨another, other⟩
    · exact Or.inl (one ▸ another)
    · exact Or.inr ⟨one.trans another, le_trans name other⟩

theorem listedBefore_total (first second : ActiveBlock) :
    (Blocklist.listedBefore first second || Blocklist.listedBefore second first) = true := by
  simp only [Blocklist.listedBefore, Bool.or_eq_true, Bool.and_eq_true, decide_eq_true_eq]
  rcases lt_trichotomy first.blockedUntil second.blockedUntil with less | same | more
  · exact Or.inr (Or.inl less)
  · rcases le_total first.ipBucket second.ipBucket with le | le
    · exact Or.inl (Or.inr ⟨same, le⟩)
    · exact Or.inr (Or.inr ⟨same.symm, le⟩)
  · exact Or.inl (Or.inl more)

def activeBudgets (list : Blocklist) : List Budget :=
  (list.unresolvedBlockedUntil.toList.map fun _ => .unresolved) ++
    list.blockedUntil.entries.map fun block => .bucket block.1

theorem mem_activeBudgets_iff (budget : Budget) :
    budget ∈ activeBudgets list ↔ (list.deadline budget).isSome = true := by
  unfold activeBudgets
  rw [List.mem_append]
  cases budget with
  | unresolved =>
    cases found : list.unresolvedBlockedUntil with
    | none => simp [Blocklist.deadline, found]
    | some until_ => simp [Blocklist.deadline, found]
  | bucket key =>
    have entries : (∃ block ∈ list.blockedUntil.entries, Budget.bucket block.1 = .bucket key) ↔
        key ∈ list.blockedUntil.keys := by
      unfold AList.keys List.keys
      simp
    rw [List.mem_map, List.mem_map, entries, ← Dict.find_isSome_iff]
    simp [Blocklist.deadline]

theorem nodup_activeBudgets : (activeBudgets list).Nodup := by
  unfold activeBudgets
  rw [List.nodup_append]
  refine ⟨?_, ?_, ?_⟩
  · cases list.unresolvedBlockedUntil <;> simp
  · have keys := list.blockedUntil.keys_nodup
    unfold AList.keys List.keys at keys
    have mapped := keys.map
      (fun _ _ equal => Budget.bucket.inj equal : Function.Injective Budget.bucket)
    rwa [List.map_map] at mapped
  · intro first one second another same
    rcases List.mem_map.mp one with ⟨until_, -, rfl⟩
    rcases List.mem_map.mp another with ⟨block, -, rfl⟩
    cases same

/-- The listed blocks are the blocked budgets, each once and in order. -/
theorem follows_listActiveBlocks (enabled : settings.authFailureBlockEnabled = true)
    (follows : Follows settings list earlier timed.now) (isList : timed.call = .listActiveBlocks) :
    Answers settings earlier timed (list.answer settings timed).1 ∧
      Follows settings (list.answer settings timed).2 (timed :: earlier) timed.now := by
  unfold Blocklist.answer
  rw [isList]
  unfold Blocklist.listActiveBlocks
  simp only [enabled, Bool.not_true, Bool.false_eq_true, if_false]
  set left : Blocklist := { list with
    blockedUntil := list.blockedUntil.eraseAll (list.lapsedKeys timed.now)
    unresolvedBlockedUntil := list.unresolvedBlockedUntil.filter fun until_ => timed.now < until_ }
    with isLeft
  have deadline : ∀ budget, left.deadline budget =
      (list.deadline budget).filter fun until_ => timed.now < until_ := by
    intro budget
    cases budget with
    | unresolved => rfl
    | bucket key => exact find_eraseAll_lapsedKeys list key
  have names : ∀ budget, listed settings earlier timed.now budget =
      (left.deadline budget).map (Blocklist.entry timed.now budget.name) := by
    intro budget
    rw [listed_eq follows, deadline]
  constructor
  · refine ⟨isList, ?_, activeBudgets left, nodup_activeBudgets, ?_, ?_⟩
    · exact List.pairwise_mergeSort listedBefore_trans listedBefore_total _
    · intro budget
      rw [mem_activeBudgets_iff, deadline, ← (follows budget).isBlocked_eq]
      cases list.deadline budget with
      | none => simp
      | some until_ => by_cases active : timed.now < until_ <;> simp [Option.filter, active]
    · refine (List.mergeSort_perm _ _).trans (List.Perm.of_eq ?_)
      unfold activeBudgets
      rw [List.filterMap_append, List.filterMap_map, List.filterMap_map]
      congr 1
      · have unresolved := names .unresolved
        have kept : left.deadline .unresolved = left.unresolvedBlockedUntil := rfl
        rw [kept] at unresolved
        change left.unresolvedBlockedUntil.toList.map _ = _
        cases found : left.unresolvedBlockedUntil with
        | none => rfl
        | some until_ =>
          rw [found, Option.map_some] at unresolved
          simp [unresolved, Budget.name]
      · rw [← List.filterMap_eq_map]
        apply List.filterMap_congr
        intro block inside
        have found : left.deadline (.bucket block.1) = some block.2 :=
          AList.mem_lookup_iff.mpr inside
        simp only [Function.comp]
        rw [names, found]
        rfl
  · refine (follows.of_trim ?_ fun budget => Or.inr (deadline budget)).read (.inr isList)
    intro budget
    cases budget <;> rfl

/-- One call keeps the histories and is answered by them. -/
theorem follows_answer (enabled : settings.authFailureBlockEnabled = true)
    (follows : Follows settings list earlier timed.now) :
    Answers settings earlier timed (list.answer settings timed).1 ∧
      Follows settings (list.answer settings timed).2 (timed :: earlier) timed.now := by
  cases isCall : timed.call with
  | recordAuthFailure provenance => exact follows_record enabled follows isCall
  | isIpBlocked provenance => exact follows_isIpBlocked enabled follows isCall
  | listActiveBlocks => exact follows_listActiveBlocks enabled follows isCall
  | clearBlock ip => exact follows_clearBlock enabled follows isCall

end Answers

section Runs

variable {settings : Settings}

/-- A run of calls keeps the histories. -/
theorem follows_after (enabled : settings.authFailureBlockEnabled = true) (calls : List TimedCall)
    (sorted : calls.Pairwise fun first second => first.now ≤ second.now) {clock : ℚ}
    (later : ∀ timed ∈ calls, timed.now ≤ clock) :
    Follows settings (Blocklist.after settings calls) calls.reverse clock := by
  induction calls using List.reverseRecOn generalizing clock with
  | nil =>
    intro budget
    cases budget <;> exact Keeps.fresh _
  | append_singleton calls timed ih =>
    rw [List.pairwise_append] at sorted
    have before := ih sorted.1 fun other inside =>
      sorted.2.2 other inside timed (List.mem_singleton_self _)
    have next := (follows_answer enabled before).2
    unfold Blocklist.after at next ⊢
    rw [List.foldl_append, List.reverse_append]
    intro budget
    exact (next budget).mono (later timed (by simp))

theorem answer_of_exempt (list : Blocklist) (now : ℚ) {provenance : Provenance}
    (exempt : budgetOf settings provenance = none) :
    (list.answer settings ⟨.recordAuthFailure provenance, now⟩).2 = list ∧
      (list.answer settings ⟨.isIpBlocked provenance, now⟩).2 = list := by
  unfold budgetOf at exempt
  unfold Blocklist.answer Blocklist.recordAuthFailure Blocklist.isIpBlocked
  cases resolved : clientIp provenance with
  | none =>
    rw [resolved] at exempt
    cases exempt
  | some ip =>
    rw [resolved] at exempt
    have isExempt_ : isExempt settings ip = true := by
      by_contra other
      simp [other] at exempt
    cases settings.authFailureBlockEnabled <;> simp [resolved, isExempt_]

/-- In every sequence of calls whose clock does not go back, every answer is the one of the sliding
windows, and an exempt source changes nothing. -/
theorem answers_follow_the_windows (enabled : settings.authFailureBlockEnabled = true)
    {earlier later : List TimedCall} {timed : TimedCall}
    (sorted : (earlier ++ timed :: later).Pairwise fun first second => first.now ≤ second.now) :
    Answers settings earlier.reverse timed
        ((Blocklist.after settings earlier).answer settings timed).1 ∧
      ∀ provenance, budgetOf settings provenance = none →
        timed.call = .recordAuthFailure provenance ∨ timed.call = .isIpBlocked provenance →
        ((Blocklist.after settings earlier).answer settings timed).2 =
          Blocklist.after settings earlier := by
  rw [List.pairwise_append] at sorted
  have follows : Follows settings (Blocklist.after settings earlier) earlier.reverse timed.now :=
    follows_after enabled earlier sorted.1 fun other inside =>
      sorted.2.2 other inside timed List.mem_cons_self
  refine ⟨(follows_answer enabled follows).1, ?_⟩
  intro provenance exempt isCall
  rcases timed with ⟨call, now⟩
  rcases isCall with rfl | rfl
  · exact (answer_of_exempt _ now exempt).1
  · exact (answer_of_exempt _ now exempt).2

def twoInAMinute : Settings := ⟨true, ⟨2, 60, 60⟩, ⟨2, 60, 60⟩, []⟩

def failureAt (now : ℚ) : TimedCall := ⟨.recordAuthFailure (.address "192.0.2.1".toList), now⟩

/-- The second of two failures a second apart blocks the address. -/
theorem answers_follow_the_windows_second_failure :
    Answers twoInAMinute [failureAt 0] (failureAt 1) (.recorded true) := by
  have follows := (@answers_follow_the_windows twoInAMinute rfl [failureAt 0] [] (failureAt 1)
    (by decide +kernel)).1
  have answered : ((Blocklist.after twoInAMinute [failureAt 0]).answer twoInAMinute
      (failureAt 1)).1 = .recorded true := by
    decide +kernel
  rwa [answered] at follows

end Runs

end HybridInference.AuthFailures
