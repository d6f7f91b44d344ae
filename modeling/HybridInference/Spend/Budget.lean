import HybridInference.Spend.Reservations

/-!
# No gate admits past a limit

A cost that a gate does not see in its counters was not confirmed before the gate
read, so it is among those the ledger adds. What a gate admits against is therefore
every cost recorded, every reservation in flight and the counters as they were,
except for what the counters lost to rounding.
-/

namespace HybridInference.Spend

open Library

def SpendEvent.Regular (owner : ℤ → String) (today : Day) : SpendEvent → Prop
  | .record userId _ apiKeyId _ _ => ∀ key, apiKeyId = some key → userId = owner key
  | .begin _ store => store ≠ .gone
  | .check gate day _ => day = today ∧ ∀ key, gate.keyId = some key → gate.userId = owner key
  | _ => True

namespace Entry

variable {owner : ℤ → String} {gone : Prop} {clock : ℚ}

/-- A cost that is its key's owner's, that no store gave up, and that landed for
what it is or rounded. -/
structure Regular (owner : ℤ → String) (entry : Entry) : Prop where
  owned : ∀ key, entry.key.keyId = some key → entry.key.userId = owner key
  kept : entry.place ≠ .dropped
  added : ∀ confirmedAt added, entry.place = .landed confirmedAt added →
    ∃ atomic, added = entry.added atomic

theorem Regular.moved {before after : Entry} (regular : before.Regular owner)
    (moved : before.Moved gone clock after) (there : ¬gone) : after.Regular owner := by
  have cause := moved.cause
  simp only [Entry.cause, Prod.mk.injEq] at cause
  have sameAdded (atomic : Bool) : after.added atomic = before.added atomic := by
    simp only [Entry.added, cause.2]
  refine ⟨?_, ?_, ?_⟩
  · rw [cause.1]
    exact regular.owned
  · rcases moved.place with same | ⟨-, unconfirmed | ⟨isGone, -⟩ | ⟨now, atomic, -, landed⟩⟩
    · rw [same]
      exact regular.kept
    · intro dropped
      rw [dropped] at unconfirmed
      cases unconfirmed
    · exact absurd isGone there
    · simp [landed]
  · intro confirmedAt added landed
    simp only [sameAdded]
    rcases moved.place with same | ⟨-, unconfirmed | ⟨isGone, -⟩ | ⟨now, atomic, -, landedNow⟩⟩
    · rw [same] at landed
      exact regular.added confirmedAt added landed
    · rw [landed] at unconfirmed
      cases unconfirmed
    · exact absurd isGone there
    · rw [landed] at landedNow
      simp only [Place.landed.injEq] at landedNow
      exact ⟨atomic, landedNow.2⟩

theorem Moved.confirmedBefore {before after : Entry} (moved : before.Moved gone clock after)
    {time : ℚ} (past : time ≤ clock) :
    after.confirmedBefore time = before.confirmedBefore time := by
  have nothing {entry : Entry} (unconfirmed : entry.place.isUnconfirmed = true) :
      entry.confirmedBefore time = 0 := by
    unfold Entry.confirmedBefore
    cases place : entry.place <;> simp_all [Place.isUnconfirmed, Place.isPending,
      Place.isWriting, Place.isUnknown]
  rcases moved.place with
    same | ⟨unconfirmed, still | ⟨-, dropped⟩ | ⟨now, atomic, later, landed⟩⟩
  · simp only [Entry.confirmedBefore, same]
  · rw [nothing unconfirmed, nothing still]
  · rw [nothing unconfirmed]
    simp only [Entry.confirmedBefore, dropped]
  · rw [nothing unconfirmed]
    simp only [Entry.confirmedBefore, landed]
    exact if_neg (not_lt.mpr (past.trans later))

end Entry

namespace SpendWorld

variable {world next : SpendWorld} {opening : SpendCheck → Limit → ℚ} {owner : ℤ → String}
  {today : Day}

variable {event : SpendEvent}

theorem readsAtLeast_of_effect {check : SpendCheck}
    (effect : Effect opening world event next) (past : check.readAt ≤ world.clock)
    (enough : world.readsAtLeast opening check today) :
    next.readsAtLeast opening check today := by
  intro limit member limited
  rcases effect.entries with ⟨change, entries, moved⟩
  have fresh : tally (fun entry : Entry =>
      if entry.key.against check today limit then entry.confirmedBefore check.readAt else 0)
        event.entered = 0 := by
    apply tally_eq_zero
    intro entry inEntered
    rcases List.mem_map.mp inEntered with ⟨cost, -, rfl⟩
    simp [Entry.confirmedBefore]
  have same : tally (fun entry : Entry =>
      if entry.key.against check today limit then entry.confirmedBefore check.readAt else 0)
        next.entries =
      tally (fun entry : Entry =>
        if entry.key.against check today limit then entry.confirmedBefore check.readAt else 0)
        world.entries := by
    rw [entries, tally_append, fresh, add_zero, tally_map]
    apply tally_congr
    intro entry _
    have key : (change entry).key = entry.key := congrArg Prod.fst (moved entry).cause
    rw [key, (moved entry).confirmedBefore past]
  rw [same]
  exact enough limit member limited

/-- The ledger is in account, and no check read less than the day had cost. -/
structure Guarded (opening : SpendCheck → Limit → ℚ) (owner : ℤ → String) (today : Day)
    (world : SpendWorld) : Prop where
  accounted : Accounted world
  windowed : Windowed world
  reserved : Reserved world
  entries : ∀ entry ∈ world.entries, entry.Regular owner
  past : ∀ check ∈ world.checks, check.readAt ≤ world.clock
  enough : ∀ check ∈ world.checks, world.readsAtLeast opening check today
  owned : ∀ check ∈ world.checks, ∀ key, check.keyId = some key → check.userId = owner key

theorem Guarded.fresh : Guarded opening owner today {} where
  accounted := Accounted.fresh
  windowed := Windowed.fresh
  reserved := Reserved.fresh
  entries := by simp
  past := by simp
  enough := by simp
  owned := by simp

theorem entered_regular (regular : event.Regular owner today) :
    ∀ entry ∈ event.entered, entry.Regular owner := by
  intro entry member
  rcases List.mem_map.mp member with ⟨cost, recorded, rfl⟩
  refine ⟨?_, by simp, by simp⟩
  cases event with
  | record userId costUsd apiKeyId day loop =>
    simp only [SpendEvent.recorded] at recorded
    split_ifs at recorded
    · simp at recorded
    · simp only [Option.toList_some, List.mem_singleton] at recorded
      rw [recorded]
      exact regular
  | _ => simp [SpendEvent.recorded] at recorded

/-- A regular step keeps the guard. -/
theorem Guarded.step (guarded : Guarded opening owner today world)
    (regular : event.Regular owner today) (stepped : world.step opening event = some next) :
    Guarded opening owner today next := by
  have effect := effect_of_step stepped
  have there : ¬event.FindsGone := by
    rintro ⟨task, rfl⟩
    exact regular rfl
  refine ⟨guarded.accounted.step stepped, guarded.windowed.step guarded.accounted stepped,
    guarded.reserved.step stepped, ?_, ?_, ?_, ?_⟩
  · intro entry member
    rcases effect.entries with ⟨change, entries, moved⟩
    rw [entries] at member
    rcases List.mem_append.mp member with old | entered
    · rcases List.mem_map.mp old with ⟨before, stored, rfl⟩
      exact (guarded.entries before stored).moved (moved before) there
    · exact entered_regular regular entry entered
  · intro check member
    rcases effect.checks check member with old | ⟨day, now, -, taken, -⟩
    · exact (guarded.past check old).trans effect.later
    · exact taken
  · intro check member
    rcases effect.checks check member with old | ⟨day, now, rfl, -, enough⟩
    · exact readsAtLeast_of_effect effect (guarded.past check old) (guarded.enough check old)
    · rw [regular.1] at enough
      exact enough
  · intro check member
    rcases effect.checks check member with old | ⟨day, now, rfl, -, -⟩
    · exact guarded.owned check old
    · exact regular.2

theorem run_guarded {events : List SpendEvent}
    (ran : (spendMachine opening).run {} events = some world)
    (regular : ∀ event ∈ events, event.Regular owner today) :
    Guarded opening owner today world := by
  have preserved : ∀ state event next, Guarded opening owner today state →
      event.Regular owner today → (spendMachine opening).step state event = some next →
      Guarded opening owner today next :=
    fun _ _ _ guarded holds stepped => guarded.step holds stepped
  exact Machine.run_invariant_along (fun _ event => event.Regular owner today) preserved
    Guarded.fresh (Machine.along_of_forall_mem _ regular) ran

end SpendWorld

theorem sub_countedAmount_le (cost : ℚ) : cost - countedAmount cost ≤ 1 / 2000000 := by
  unfold countedAmount
  split_ifs
  · have floor := Int.lt_floor_add_one (cost * 1000000 + 1 / 2)
    linarith
  · have floor := Int.floor_le (-cost * 1000000 + 1 / 2)
    linarith

namespace Entry

variable {owner : ℤ → String} {entry : Entry}

def landedBefore (time : ℚ) (entry : Entry) : Bool :=
  match entry.place with
  | .landed confirmedAt _ => confirmedAt < time
  | _ => false

def roundedAway (time : ℚ) (entry : Entry) : ℚ :=
  if entry.landedBefore time then entry.cost - entry.confirmedBefore time else 0

section

variable (regular : entry.Regular owner)

include regular

theorem Regular.cost_eq (time : ℚ) :
    entry.cost = entry.confirmedBefore time + entry.roundedAway time +
      if entry.place.isUnconfirmed || entry.place.landedSince time then entry.cost else 0 := by
  unfold Entry.roundedAway Entry.landedBefore Entry.confirmedBefore
  cases place : entry.place with
  | pending => simp [Place.isUnconfirmed, Place.isPending]
  | writing => simp [Place.isUnconfirmed, Place.isWriting]
  | unknown => simp [Place.isUnconfirmed, Place.isUnknown]
  | dropped => exact absurd place regular.kept
  | landed confirmedAt added =>
    by_cases before : confirmedAt < time
    · simp [before, Place.isUnconfirmed, Place.isPending, Place.isWriting, Place.isUnknown,
        Place.landedSince]
    · simp [before, Place.landedSince, not_lt.mp before]

theorem Regular.roundedAway_eq {time : ℚ}
    (landed : entry.landedBefore time = true) :
    ∃ atomic, entry.roundedAway time = entry.cost - entry.added atomic := by
  unfold Entry.roundedAway Entry.confirmedBefore
  rw [if_pos landed]
  unfold Entry.landedBefore at landed
  cases place : entry.place with
  | landed confirmedAt added =>
    rcases regular.added confirmedAt added place with ⟨atomic, sameAdded⟩
    rw [place] at landed
    dsimp only at landed ⊢
    rw [if_pos (of_decide_eq_true landed), sameAdded]
    exact ⟨atomic, rfl⟩
  | _ => simp [place] at landed

theorem Regular.roundedAway_le (time : ℚ) :
    entry.roundedAway time ≤ if entry.landedBefore time then 1 / 2000000 else 0 := by
  by_cases landed : entry.landedBefore time = true
  · rcases regular.roundedAway_eq landed with ⟨atomic, lost⟩
    rw [lost, if_pos landed]
    unfold Entry.added
    split_ifs
    · exact sub_countedAmount_le entry.cost
    · norm_num
  · rw [Entry.roundedAway, if_neg landed, if_neg landed]

theorem Regular.roundedAway_eq_zero (time : ℚ)
    (whole : countedAmount entry.cost = entry.cost) : entry.roundedAway time = 0 := by
  by_cases landed : entry.landedBefore time = true
  · rcases regular.roundedAway_eq landed with ⟨atomic, lost⟩
    rw [lost]
    unfold Entry.added
    split_ifs
    · rw [whole, sub_self]
    · exact sub_self _
  · rw [Entry.roundedAway, if_neg landed]

theorem Regular.chosenCost_eq {check : SpendCheck}
    (owned : ∀ key, check.keyId = some key → check.userId = owner key) (today : Day)
    (limit : Limit) :
    chosenCost check.userId (fun keyId day => countsFor check.keyId today keyId day limit) entry =
      if entry.key.against check today limit then entry.cost else 0 := by
  have sameUser (key : check.keyId.isSome = true) (same : entry.key.keyId = check.keyId) :
      entry.key.userId = check.userId := by
    rcases Option.isSome_iff_exists.mp key with ⟨keyId, isKey⟩
    rw [owned keyId isKey]
    exact regular.owned keyId (same.trans isKey)
  have keyed (counts : countsFor check.keyId today entry.key.keyId entry.key.day limit = true)
      (ofKey : limit = .keyDay ∨ limit = .keyMonth) : entry.key.userId = check.userId := by
    rcases ofKey with rfl | rfl
    · simp only [countsFor, Bool.and_eq_true, decide_eq_true_eq] at counts
      exact sameUser counts.1.2.1 counts.1.2.2
    · simp only [countsFor, Bool.and_eq_true, decide_eq_true_eq] at counts
      exact sameUser counts.2.1 counts.2.2
  unfold chosenCost CostKey.against
  by_cases counts : countsFor check.keyId today entry.key.keyId entry.key.day limit = true
  · cases limit with
    | accountDay => simp [counts]
    | accountMonth => simp [counts]
    | keyDay => simp [counts, keyed counts (Or.inl rfl)]
    | keyMonth => simp [counts, keyed counts (Or.inr rfl)]
  · simp [counts]

end

end Entry

def recordedCost (check : SpendCheck) (today : Day) (limit : Limit) (events : List SpendEvent) :
    ℚ :=
  tally (fun cost : CostKey × ℚ => if cost.1.against check today limit then cost.2 else 0)
    (events.filterMap SpendEvent.recorded)

namespace SpendWorld

variable {world : SpendWorld} {opening : SpendCheck → Limit → ℚ} {owner : ℤ → String}
  {today : Day} {check : SpendCheck}

def openReservations (world : SpendWorld) (check : SpendCheck) (limit : Limit) : ℚ :=
  tally (fun reservation : Reservation =>
    if reservation.against check limit then reservation.amount else 0) world.reservations

def roundedAway (world : SpendWorld) (check : SpendCheck) (today : Day) (limit : Limit) : ℚ :=
  tally (fun entry : Entry =>
    if entry.key.against check today limit then entry.roundedAway check.readAt else 0)
    world.entries

def confirmedCosts (world : SpendWorld) (check : SpendCheck) (today : Day) (limit : Limit) : ℕ :=
  world.entries.countP fun entry =>
    entry.key.against check today limit && entry.landedBefore check.readAt

theorem recordedCost_eq {events : List SpendEvent}
    (ran : (spendMachine opening).run {} events = some world) (check : SpendCheck) (today : Day)
    (limit : Limit) :
    recordedCost check today limit events =
      tally (fun entry : Entry => if entry.key.against check today limit then entry.cost else 0)
        world.entries := by
  unfold recordedCost
  rw [← run_recordedBy ran, tally_map]
  rfl

theorem Guarded.spent_covered (guarded : Guarded opening owner today world)
    (taken : check ∈ world.checks) {now : ℚ} (later : world.clock ≤ now)
    (recent : now - landedWindowSeconds ≤ check.readAt) {limit : Limit}
    (limited : (check.limitUsd limit).isSome = true) :
    opening check limit +
        tally (fun entry : Entry => if entry.key.against check today limit then entry.cost else 0)
          world.entries + world.openReservations check limit ≤
      check.spentUsd limit +
        (world.ledger.forgetLanded now).extra check.userId check.keyId check.readAt today now
          limit + world.roundedAway check today limit := by
  have reading := guarded.enough check taken limit (mem_limits limit) limited
  have reserved := guarded.reserved.reservedFor check limit
  have costs := guarded.windowed.sum_extraCosts guarded.accounted check.userId
    (fun keyId day => countsFor check.keyId today keyId day limit) later recent
  have extra : (world.ledger.forgetLanded now).extra check.userId check.keyId check.readAt today
      now limit = tally (fun entry : Entry =>
          if entry.place.isUnconfirmed || entry.place.landedSince check.readAt then
            chosenCost check.userId
              (fun keyId day => countsFor check.keyId today keyId day limit) entry
          else 0) world.entries + world.openReservations check limit := by
    unfold SpendLedger.extra
    rw [foldl_add_eq_tally, zero_add, costs]
    exact congrArg _ reserved
  have split : tally (fun entry : Entry =>
        if entry.key.against check today limit then entry.cost else 0) world.entries =
      tally (fun entry : Entry =>
        if entry.key.against check today limit then entry.confirmedBefore check.readAt else 0)
          world.entries + world.roundedAway check today limit +
        tally (fun entry : Entry =>
          if entry.place.isUnconfirmed || entry.place.landedSince check.readAt then
            chosenCost check.userId
              (fun keyId day => countsFor check.keyId today keyId day limit) entry
          else 0) world.entries := by
    unfold SpendWorld.roundedAway
    rw [← tally_add, ← tally_add]
    apply tally_congr
    intro entry member
    have regular := guarded.entries entry member
    rw [regular.chosenCost_eq (guarded.owned check taken)]
    by_cases counts : entry.key.against check today limit = true
    · simp only [counts, if_true]
      exact regular.cost_eq check.readAt
    · simp [counts]
  rw [extra, split]
  linarith

theorem Guarded.roundedAway_le (guarded : Guarded opening owner today world) (check : SpendCheck)
    (limit : Limit) :
    world.roundedAway check today limit ≤ world.confirmedCosts check today limit / 2000000 := by
  calc
    _ ≤ tally (fun entry : Entry =>
          if entry.key.against check today limit && entry.landedBefore check.readAt then
            (1 / 2000000 : ℚ)
          else 0) world.entries := by
      apply tally_le_tally
      intro entry member
      have lost := (guarded.entries entry member).roundedAway_le check.readAt
      by_cases counts : entry.key.against check today limit = true
      · simpa only [counts, if_true, Bool.true_and] using lost
      · simp [counts]
    _ = _ := by
      rw [tally_const_if, nsmul_eq_mul, mul_one_div]
      rfl

theorem Guarded.roundedAway_eq_zero (guarded : Guarded opening owner today world)
    (check : SpendCheck) (limit : Limit)
    (whole : ∀ entry ∈ world.entries, countedAmount entry.cost = entry.cost) :
    world.roundedAway check today limit = 0 := by
  apply tally_eq_zero
  intro entry member
  have lost := (guarded.entries entry member).roundedAway_eq_zero check.readAt (whole entry member)
  rw [lost, ite_self]

end SpendWorld

theorem fits_of_granted {ledger after : SpendLedger} {check : SpendCheck} {amount now : ℚ}
    {today : Day} {reservation : Reservation}
    (granted : ledger.admitRequest check amount today now = (after, .ok reservation))
    {limit : Limit} {quota : ℚ} (limited : check.limitUsd limit = some quota) :
    check.spentUsd limit +
        (ledger.forgetLanded now).extra check.userId check.keyId check.readAt today now limit +
          estimatedRequestCostUsd ≤ quota := by
  unfold SpendLedger.admitRequest at granted
  split at granted
  · simp at granted
  · rename_i admitted
    exact fits_of_firstRefusal_none admitted limit limited

/-- A request granted within the window of its reading fits under every limit, up to half a
micro-dollar for each cost that the counters rounded. -/
theorem granted_request_fits_budgets {opening : SpendCheck → Limit → ℚ} {owner : ℤ → String}
    {today : Day} {events : List SpendEvent} {world : SpendWorld}
    (ran : (spendMachine opening).run {} events = some world)
    (regular : ∀ event ∈ events, event.Regular owner today) {check : SpendCheck}
    (taken : check ∈ world.checks) {amount now : ℚ} (later : world.clock ≤ now)
    (recent : now - landedWindowSeconds ≤ check.readAt) {after : SpendLedger}
    {reservation : Reservation}
    (granted : world.ledger.admitRequest check amount today now = (after, .ok reservation))
    (limit : Limit) {quota : ℚ} (limited : check.limitUsd limit = some quota) :
    opening check limit + recordedCost check today limit events +
        world.openReservations check limit + estimatedRequestCostUsd ≤
      quota + world.roundedAway check today limit ∧
    world.roundedAway check today limit ≤ world.confirmedCosts check today limit / 2000000 ∧
    ((∀ cost ∈ events.filterMap SpendEvent.recorded, countedAmount cost.2 = cost.2) →
      opening check limit + recordedCost check today limit events +
        world.openReservations check limit + estimatedRequestCostUsd ≤ quota) := by
  have guarded := SpendWorld.run_guarded ran regular
  have isLimited : (check.limitUsd limit).isSome = true := by simp [limited]
  have covered := guarded.spent_covered taken later recent isLimited
  have fits := fits_of_granted granted limited
  rw [SpendWorld.recordedCost_eq ran]
  refine ⟨by linarith, guarded.roundedAway_le check limit, ?_⟩
  intro whole
  have nothing := guarded.roundedAway_eq_zero check limit (by
    intro entry member
    rw [← SpendWorld.run_recordedBy ran] at whole
    exact whole entry.cause (List.mem_map_of_mem member))
  linarith

theorem exists_of_isOk {ledger : SpendLedger} {check : SpendCheck} {amount now : ℚ} {today : Day}
    (granted : (ledger.admitRequest check amount today now).2.isOk = true) :
    ∃ after reservation, ledger.admitRequest check amount today now = (after, .ok reservation) := by
  rcases outcome : ledger.admitRequest check amount today now with ⟨after, refusal | reservation⟩
  · simp [outcome, Except.isOk, Except.toBool] at granted
  · exact ⟨after, reservation, rfl⟩

/-- A gate that read before a write landed, with another cost pending and another
request in flight, grants to the last cent of the key's budget. -/
theorem granted_request_fits_budgets_last_cent :
    let day : Day := { year := 2026, month := 1, day := 1 }
    let check : SpendCheck :=
      { userId := "user", keyId := some 7, readAt := 1, accountQuotaUsd := 1, accountSpentUsd := 0,
        keyBudgetDailyUsd := some (7 / 100) }
    let events : List SpendEvent :=
      [.check check day 1, .record "user" (3 / 100) (some 7) day true, .begin 0 .atomic,
        .answerAtomic 0 .applied 2, .writeFinished 0, .record "user" (2 / 100) (some 7) day true,
        .admitRequest 0 (1 / 100) day 3]
    ∃ world after reservation, (spendMachine fun _ _ => 0).run {} events = some world ∧
      world.ledger.admitRequest check estimatedRequestCostUsd day 4 = (after, .ok reservation) ∧
      recordedCost check day .keyDay events = 5 / 100 ∧
      world.openReservations check .keyDay = 1 / 100 ∧
      0 + recordedCost check day .keyDay events + world.openReservations check .keyDay +
        estimatedRequestCostUsd ≤ 7 / 100 := by
  intro day check events
  have checked : (((spendMachine fun _ _ => 0).run {} events).any fun world =>
      decide (check ∈ world.checks ∧ world.clock ≤ 4 ∧
        (world.ledger.admitRequest check estimatedRequestCostUsd day 4).2.isOk = true ∧
        world.openReservations check .keyDay = 1 / 100)) = true := by
    decide +kernel
  rcases (Option.any_eq_true _ _).mp checked with ⟨world, ran, facts⟩
  rcases of_decide_eq_true facts with ⟨taken, later, isOk, reserved⟩
  rcases exists_of_isOk isOk with ⟨after, reservation, granted⟩
  have regular : ∀ event ∈ events, event.Regular (fun _ => "user") day := by
    simp [events, check, SpendEvent.Regular]
  have whole : ∀ cost ∈ events.filterMap SpendEvent.recorded, countedAmount cost.2 = cost.2 := by
    decide +kernel
  have recorded : recordedCost check day .keyDay events = 5 / 100 := by decide +kernel
  have fits := granted_request_fits_budgets ran regular taken later
    (by norm_num [landedWindowSeconds, check]) granted .keyDay rfl
  exact ⟨world, after, reservation, ran, granted, recorded, reserved, fits.2.2 whole⟩

/-- A cost below half a micro-dollar that an atomic store counts as nothing: the next
request is granted a whole quota. -/
theorem granted_request_past_true_cost :
    let day : Day := { year := 2026, month := 1, day := 1 }
    let check : SpendCheck :=
      { userId := "user", keyId := none, readAt := 2, accountQuotaUsd := 1 / 100,
        accountSpentUsd := 0 }
    let events : List SpendEvent :=
      [.record "user" (4 / 10000000) none day true, .begin 0 .atomic, .answerAtomic 0 .applied 1,
        .writeFinished 0, .check check day 2]
    (∀ event ∈ events, event.Regular (fun _ => "user") day) ∧
    ∃ world after reservation, (spendMachine fun _ _ => 0).run {} events = some world ∧
      check ∈ world.checks ∧ world.clock ≤ 2 ∧ 2 - landedWindowSeconds ≤ check.readAt ∧
      world.ledger.admitRequest check estimatedRequestCostUsd day 2 = (after, .ok reservation) ∧
      check.limitUsd .accountDay = some (1 / 100) ∧
      ¬0 + recordedCost check day .accountDay events + world.openReservations check .accountDay +
        estimatedRequestCostUsd ≤ 1 / 100 := by
  intro day check events
  have checked : (((spendMachine fun _ _ => 0).run {} events).any fun world =>
      decide (check ∈ world.checks ∧ world.clock ≤ 2 ∧ 2 - landedWindowSeconds ≤ check.readAt ∧
        (world.ledger.admitRequest check estimatedRequestCostUsd day 2).2.isOk = true ∧
        ¬0 + recordedCost check day .accountDay events +
          world.openReservations check .accountDay + estimatedRequestCostUsd ≤ 1 / 100)) =
        true := by
    decide +kernel
  rcases (Option.any_eq_true _ _).mp checked with ⟨world, ran, facts⟩
  rcases of_decide_eq_true facts with ⟨taken, later, recent, isOk, past⟩
  rcases exists_of_isOk isOk with ⟨after, reservation, granted⟩
  refine ⟨by simp [events, check, SpendEvent.Regular], ?_⟩
  exact ⟨world, after, reservation, ran, taken, later, recent, granted, rfl, past⟩

end HybridInference.Spend
