import HybridInference.Spend.Accounting
import Mathlib.Data.List.Dedup

/-!
# What a gate adds to its reading

A gate adds to the counters it read the costs that are not confirmed and those
of the writes confirmed since. Both are sums over recorded costs.
-/

namespace HybridInference.Spend

open Library

def chosenCost (userId : String) (chosen : Option ℤ → Day → Bool) (entry : Entry) : ℚ :=
  if entry.key.userId = userId && chosen entry.key.keyId entry.key.day then entry.cost else 0

def Place.landedSince (time : ℚ) : Place → Bool
  | .landed confirmedAt _ => time ≤ confirmedAt
  | _ => false

theorem tally_cost {Record : Type*} (measure : Record → Amount) (records : List Record) :
    (tally measure records).cost = tally (fun record => (measure record).cost) records := by
  induction records with
  | nil => rfl
  | cons record rest ih => rw [tally_cons, tally_cons, Amount.add_cost, ih]

theorem held_cost (places : Place → Bool) (key : CostKey) (entries : List Entry) :
    (held places key entries).cost =
      tally (fun entry : Entry => if places entry.place && entry.key = key then entry.cost else 0)
        entries := by
  unfold held
  rw [tally_cost]
  apply tally_congr
  intro entry _
  split_ifs <;> rfl

namespace SpendWorld

variable {world : SpendWorld}

theorem Accounted.unconfirmedAmount_cost (accounted : Accounted world) (key : CostKey) :
    (world.ledger.unconfirmedAmount key).cost = tally (fun entry : Entry =>
        if entry.place.isUnconfirmed && entry.key = key then entry.cost else 0) world.entries := by
  simp only [SpendLedger.unconfirmedAmount, accounted.pending, accounted.writing,
    accounted.unknown, Amount.add_cost, held_cost, ← tally_add]
  apply tally_congr
  intro entry _
  cases entry.place <;> simp [Place.isUnconfirmed, Place.isPending, Place.isWriting,
    Place.isUnknown]

theorem Accounted.unconfirmed_entry (accounted : Accounted world) {entry : Entry}
    (member : entry ∈ world.entries) (unconfirmed : entry.place.isUnconfirmed = true) :
    world.ledger.unconfirmedOf entry.key ≠ none := by
  rw [accounted.unconfirmed, Amount.entry_sum, SpendLedger.unconfirmedAmount, accounted.pending,
    accounted.writing, accounted.unknown, Amount.add_requests, Amount.add_requests]
  have counted : ∀ places : Place → Bool, places entry.place = true →
      0 < (held places entry.key world.entries).requests :=
    fun places here => held_requests_pos member here
  simp only [Place.isUnconfirmed, Bool.or_eq_true] at unconfirmed
  rw [if_neg]
  · simp
  · rcases unconfirmed with (here | here) | here
    · have := counted _ here
      omega
    · have := counted _ here
      omega
    · have := counted _ here
      omega

theorem Accounted.sum_unconfirmed (accounted : Accounted world) (userId : String)
    (chosen : Option ℤ → Day → Bool) :
    tally (fun entry : (_ : Option ℤ × Day) × CountedSum =>
        if chosen entry.1.1 entry.1.2 then entry.2.total else 0)
      ((world.ledger.unconfirmed.find userId).getD ∅).entries =
      tally (fun entry : Entry =>
        if entry.place.isUnconfirmed then chosenCost userId chosen entry else 0) world.entries := by
  generalize table : (world.ledger.unconfirmed.find userId).getD ∅ = perUser
  have found : ∀ place, perUser.find place =
      world.ledger.unconfirmedOf { userId := userId, keyId := place.1, day := place.2 } := by
    intro place
    rw [← table]
    simp only [SpendLedger.unconfirmedOf]
    cases world.ledger.unconfirmed.find userId <;> rfl
  have distinct : perUser.keys.Nodup := perUser.nodupKeys
  calc
    _ = tally (fun place : Option ℤ × Day => tally (fun entry : Entry =>
          if (entry.key.keyId, entry.key.day) = place then
            if entry.place.isUnconfirmed then chosenCost userId chosen entry else 0
          else 0) world.entries) perUser.keys := by
      apply Dict.tally_entries fun (place : Option ℤ × Day) (sum : CountedSum) =>
        if chosen place.1 place.2 then sum.total else 0
      intro place sum present
      rw [found, accounted.unconfirmed, Amount.entry_sum] at present
      split_ifs at present
      simp only [Option.some.injEq] at present
      rw [← present, accounted.unconfirmedAmount_cost, ← tally_if]
      apply tally_congr
      intro entry _
      rcases place with ⟨keyId, day⟩
      rcases entry with ⟨⟨entryUser, entryKey, entryDay⟩, cost, entryPlace, appliedAs⟩
      by_cases same : entryKey = keyId ∧ entryDay = day
      · rcases same with ⟨rfl, rfl⟩
        by_cases user : entryUser = userId <;> by_cases picked : chosen entryKey entryDay = true <;>
          by_cases unconfirmed : entryPlace.isUnconfirmed = true <;>
            simp [chosenCost, user, picked, unconfirmed]
      · simp [same]
    _ = _ := by
      apply tally_by_key (fun entry : Entry => (entry.key.keyId, entry.key.day)) distinct
      intro entry member
      by_cases counts : entry.place.isUnconfirmed = true ∧ entry.key.userId = userId
      · left
        have present := accounted.unconfirmed_entry member counts.1
        apply Dict.find_isSome_iff.mp
        rw [found, ← counts.2]
        exact Option.ne_none_iff_isSome.mp present
      · right
        by_cases unconfirmed : entry.place.isUnconfirmed = true
        · have other : entry.key.userId ≠ userId := fun same => counts ⟨unconfirmed, same⟩
          simp [chosenCost, other]
        · simp [unconfirmed]

end SpendWorld

def Landed.share (userId : String) (chosen : Option ℤ → Day → Bool) (write : Landed) : ℚ :=
  tally (fun cost : Option ℤ × Day × ℚ => if chosen cost.1 cost.2.1 then cost.2.2 else 0)
    ((write.byUser.find userId).getD [])

namespace SpendLedger

theorem landedByUser_find (keys : List CostKey) (batch : Dict CostKey Amount) (userId : String) :
    ((landedByUser keys batch).find userId).getD [] =
      (keys.filter fun key => key.userId = userId).map fun key =>
        (key.keyId, key.day, (batch.read key).cost) := by
  have general : ∀ byUser : Dict String (List (Option ℤ × Day × ℚ)), ((keys.foldl (fun byUser key =>
          byUser.insert key.userId (((byUser.find key.userId).getD []) ++
              [(key.keyId, key.day, (batch.read key).cost)])) byUser).find userId).getD [] =
        (byUser.find userId).getD [] ++ (keys.filter fun key => key.userId = userId).map fun key =>
            (key.keyId, key.day, (batch.read key).cost) := by
    induction keys with
    | nil => simp
    | cons key rest ih =>
      intro byUser
      rw [List.foldl_cons, ih, Dict.find_insert]
      by_cases same : key.userId = userId
      · subst same
        simp
      · simp [same, Ne.symm same]
  have all := general ∅
  exact all

variable {batch : Dict CostKey Amount}

theorem share_landedByUser {keys : List CostKey} {entries : List Entry} (distinct : keys.Nodup)
    (taken : ∀ key, batch.read key = held Place.isWriting key entries) (userId : String)
    (chosen : Option ℤ → Day → Bool) (now : ℚ) :
    Landed.share userId chosen { confirmedAt := now, byUser := landedByUser keys batch } =
      tally (fun entry : Entry =>
        if entry.place.isWriting && entry.key ∈ keys then chosenCost userId chosen entry else 0)
        entries := by
  unfold Landed.share
  rw [landedByUser_find, tally_map]
  calc
    _ = tally (fun key : CostKey =>
          if key.userId = userId then
            if chosen key.keyId key.day then (batch.read key).cost else 0
          else 0) keys := by
      have filtered := sum_map_filter
        (fun key : CostKey => if chosen key.keyId key.day then (batch.read key).cost else 0)
        (fun key => key.userId = userId) keys
      simp only [decide_eq_true_eq] at filtered
      exact filtered
    _ = tally (fun key => tally (fun entry : Entry =>
          if entry.key = key then
            if entry.place.isWriting && entry.key ∈ keys then chosenCost userId chosen entry
            else 0
          else 0) entries) keys := by
      apply tally_congr
      intro key inKeys
      rw [taken, held_cost, ← tally_if, ← tally_if]
      apply tally_congr
      intro entry _
      by_cases same : entry.key = key
      · subst same
        by_cases user : entry.key.userId = userId <;>
          by_cases picked : chosen entry.key.keyId entry.key.day = true <;>
            by_cases writing : entry.place.isWriting = true <;>
              simp [chosenCost, user, picked, writing, inKeys]
      · simp [same]
    _ = _ := by
      apply tally_by_key Entry.key distinct
      intro entry _
      by_cases inKeys : entry.key ∈ keys
      · exact Or.inl inKeys
      · right
        simp [inKeys]

def sharesSince (since : ℚ) (userId : String) (chosen : Option ℤ → Day → Bool)
    (landed : List Landed) : ℚ :=
  tally (fun write : Landed => if since ≤ write.confirmedAt then write.share userId chosen else 0)
    landed

section

variable {since now : ℚ} (recent : now - landedWindowSeconds ≤ since) (userId : String)
  (chosen : Option ℤ → Day → Bool) (landed : List Landed)

include recent

theorem sharesSince_forget : sharesSince since userId chosen
        (landed.dropWhile fun write => write.confirmedAt < now - landedWindowSeconds) =
      sharesSince since userId chosen landed := by
  apply tally_dropWhile
  intro write _ forgotten
  have early : write.confirmedAt < now - landedWindowSeconds := by simpa using forgotten
  rw [if_neg (by linarith)]

theorem sharesSince_landedAfter (applied : List CostKey) (batch : Dict CostKey Amount) :
    sharesSince since userId chosen (landedAfter landed applied batch now) =
      sharesSince since userId chosen landed + if since ≤ now then
          Landed.share userId chosen { confirmedAt := now, byUser := landedByUser applied batch }
        else 0 := by
  unfold landedAfter
  by_cases nothing : applied.isEmpty = true
  · have empty : Landed.share userId chosen
        { confirmedAt := now, byUser := landedByUser applied batch } = 0 := by
      rw [List.isEmpty_iff.mp nothing]
      rfl
    rw [if_pos nothing, empty, ite_self, add_zero]
  · rw [if_neg nothing, sharesSince_forget recent]
    simp [sharesSince]

end

variable {landed : List Landed}

theorem mem_landedAfter {applied : List CostKey} {now : ℚ} {write : Landed}
    (member : write ∈ landedAfter landed applied batch now) :
    write ∈ landed ∨ write.confirmedAt = now := by
  unfold landedAfter at member
  split_ifs at member
  · exact Or.inl member
  · have kept := (List.dropWhile_sublist _).subset member
    rcases List.mem_append.mp kept with earlier | last
    · exact Or.inl earlier
    · right
      rw [List.mem_singleton.mp last]

theorem landedAfter_sorted {now : ℚ}
    (sorted : landed.Pairwise fun earlier later => earlier.confirmedAt ≤ later.confirmedAt)
    (past : ∀ write ∈ landed, write.confirmedAt ≤ now) (applied : List CostKey)
    (batch : Dict CostKey Amount) :
    (landedAfter landed applied batch now).Pairwise fun earlier later =>
      earlier.confirmedAt ≤ later.confirmedAt := by
  unfold landedAfter
  split_ifs
  · exact sorted
  · apply List.Pairwise.sublist (List.dropWhile_sublist _)
    rw [List.pairwise_append]
    refine ⟨sorted, List.pairwise_singleton _ _, ?_⟩
    intro earlier member last inLast
    rw [List.mem_singleton.mp inLast]
    exact past earlier member

theorem sharesSince_reverse (since : ℚ)
    (sorted : landed.Pairwise fun earlier later => earlier.confirmedAt ≤ later.confirmedAt)
    (userId : String) (chosen : Option ℤ → Day → Bool) :
    tally (Landed.share userId chosen)
        (landed.reverse.takeWhile fun write => !(write.confirmedAt < since && !false)) =
      sharesSince since userId chosen landed := by
  rw [tally_takeWhile]
  · rw [tally_reverse]
    apply tally_congr
    intro write _
    simp
  · rw [List.pairwise_reverse]
    apply sorted.imp
    intro earlier later ordered
    simp only [Bool.not_false, Bool.and_true, Bool.not_eq_true', decide_eq_false_iff_not, not_lt]
    intro since
    exact since.trans ordered

end SpendLedger

def landedCost (since : ℚ) (userId : String) (chosen : Option ℤ → Day → Bool)
    (entries : List Entry) : ℚ :=
  tally (fun entry : Entry =>
    if entry.place.landedSince since then chosenCost userId chosen entry else 0) entries

theorem chosenCost_of_cause {first second : Entry} (same : first.cause = second.cause)
    (userId : String) (chosen : Option ℤ → Day → Bool) :
    chosenCost userId chosen first = chosenCost userId chosen second := by
  simp only [Entry.cause, Prod.mk.injEq] at same
  simp only [chosenCost, same.1, same.2]

theorem landedCost_map {change : Entry → Entry} (since : ℚ) (userId : String)
    (chosen : Option ℤ → Day → Bool) (entries : List Entry)
    (kept : ∀ entry, (change entry).cause = entry.cause)
    (placed : ∀ entry, (change entry).place.landedSince since = entry.place.landedSince since) :
    landedCost since userId chosen (entries.map change) =
      landedCost since userId chosen entries := by
  unfold landedCost
  rw [tally_map]
  apply tally_congr
  intro entry _
  rw [placed, chosenCost_of_cause (kept entry)]

theorem landedCost_resolve (since now : ℚ) (userId : String) (chosen : Option ℤ → Day → Bool)
    (entries : List Entry) (applied unknown : List CostKey) (atomic : Bool) :
    landedCost since userId chosen (entries.map (Entry.resolve applied unknown atomic now)) =
      landedCost since userId chosen entries + if since ≤ now then
          tally (fun entry : Entry =>
            if entry.place.isWriting && entry.key ∈ applied then chosenCost userId chosen entry
            else 0) entries
        else 0 := by
  unfold landedCost
  rw [tally_map, ← tally_if, ← tally_add]
  apply tally_congr
  intro entry _
  rw [chosenCost_of_cause (SpendWorld.cause_resolve applied unknown atomic now entry),
    SpendWorld.resolve_place]
  by_cases inApplied : entry.key ∈ applied
  · by_cases within : since ≤ now <;> cases place : entry.place <;>
      simp [Place.landedSince, Place.isWriting, inApplied, within]
  · by_cases inUnknown : entry.key ∈ unknown <;> cases place : entry.place <;>
      simp [Place.landedSince, Place.isWriting, inApplied, inUnknown]

namespace SpendWorld

variable {world : SpendWorld}

/-- The confirmed writes are in the order of their times, and within the window
they are the costs that landed. -/
structure Windowed (world : SpendWorld) : Prop where
  sorted : world.ledger.landed.Pairwise fun earlier later =>
    earlier.confirmedAt ≤ later.confirmedAt
  past : ∀ write ∈ world.ledger.landed, write.confirmedAt ≤ world.clock
  shares : ∀ userId chosen since, world.clock - landedWindowSeconds ≤ since →
    SpendLedger.sharesSince since userId chosen world.ledger.landed =
      landedCost since userId chosen world.entries

theorem Windowed.fresh : Windowed {} where
  sorted := List.Pairwise.nil
  past := by simp
  shares _ _ _ _ := rfl

variable {next : SpendWorld}

theorem Windowed.of_landed (windowed : Windowed world)
    (landed : next.ledger.landed = world.ledger.landed) (later : world.clock ≤ next.clock)
    (entries : ∀ since userId chosen, landedCost since userId chosen next.entries =
      landedCost since userId chosen world.entries) : Windowed next := by
  refine ⟨?_, ?_, ?_⟩
  · rw [landed]
    exact windowed.sorted
  · intro write member
    rw [landed] at member
    exact (windowed.past write member).trans later
  · intro userId chosen since recent
    rw [landed, entries]
    exact windowed.shares userId chosen since (by linarith)

theorem Windowed.of_forget (windowed : Windowed world)
    (landed : next.ledger.landed = world.ledger.landed.dropWhile fun write =>
      write.confirmedAt < next.clock - landedWindowSeconds)
    (later : world.clock ≤ next.clock) (entries : next.entries = world.entries) :
    Windowed next := by
  refine ⟨?_, ?_, ?_⟩
  · rw [landed]
    exact windowed.sorted.sublist (List.dropWhile_sublist _)
  · intro write member
    rw [landed] at member
    exact (windowed.past write ((List.dropWhile_sublist _).subset member)).trans later
  · intro userId chosen since recent
    rw [landed, entries, SpendLedger.sharesSince_forget recent]
    exact windowed.shares userId chosen since (by linarith)

theorem landedCost_move {source target : Place} (since : ℚ) (userId : String)
    (chosen : Option ℤ → Day → Bool) (entries : List Entry)
    (left : source.landedSince since = false) (unreached : target.landedSince since = false) :
    landedCost since userId chosen (entries.map (Entry.move source target)) =
      landedCost since userId chosen entries := by
  apply landedCost_map
  · exact cause_move source target
  · intro entry
    rw [move_place]
    split_ifs with moved
    · rw [unreached, moved, left]
    · rfl

theorem landedCost_apply (since : ℚ) (userId : String) (chosen : Option ℤ → Day → Bool)
    (entries : List Entry) (atomic : Bool) (keys : List CostKey) :
    landedCost since userId chosen (entries.map (Entry.apply atomic keys)) =
      landedCost since userId chosen entries := by
  apply landedCost_map
  · exact cause_apply atomic keys
  · intro entry
    rw [(apply_fields atomic keys entry).2.2]

variable {now : ℚ} {task : ℕ}

theorem Windowed.finish (accounted : Accounted world) (windowed : Windowed world)
    {state : WriteTask} (found : world.tasks[task]? = some state) (running : state ≠ .ended)
    (keys : List CostKey) {applied failed unknown : List CostKey} (atomic : Bool)
    (answered : (applied ++ failed ++ unknown).Perm state.batch.keys) (later : world.clock ≤ now) :
    Windowed ((world.applyEntries state.batch atomic keys).finish task state.batch applied failed
      unknown atomic now) := by
  rcases accounted.writer_of_live found running with ⟨-, current⟩
  have batch : world.ledger.writing = state.batch := current ▸ accounted.batch
  rcases SpendLedger.answered_cases answered with ⟨distinct, -⟩
  have landed : ((world.applyEntries state.batch atomic keys).finish task state.batch applied
      failed unknown atomic now).ledger.landed =
        SpendLedger.landedAfter world.ledger.landed applied state.batch now := by
    rcases SpendLedger.settleWrite_eq world.ledger state.batch applied failed unknown now with
      ⟨retry, delay, parts⟩
    exact congrArg SpendLedger.landed parts
  have taken : ∀ key, state.batch.read key =
      held Place.isWriting key (world.entries.map (Entry.apply atomic keys)) := by
    intro key
    rw [held_apply, ← accounted.writing, batch]
  refine ⟨?_, ?_, ?_⟩
  · rw [landed]
    exact SpendLedger.landedAfter_sorted windowed.sorted
      (fun write member => (windowed.past write member).trans later) applied state.batch
  · intro write member
    rw [landed] at member
    rcases SpendLedger.mem_landedAfter member with earlier | confirmed
    · exact (windowed.past write earlier).trans later
    · exact confirmed.le
  · intro userId chosen since recent
    change now - landedWindowSeconds ≤ since at recent
    have before := windowed.shares userId chosen since (by linarith)
    rw [landed, SpendLedger.sharesSince_landedAfter recent, before]
    change _ = landedCost since userId chosen ((world.entries.map (Entry.apply atomic keys)).map _)
    rw [landedCost_resolve, landedCost_apply,
      SpendLedger.share_landedByUser distinct taken userId chosen now]

theorem Windowed.startWrite (windowed : Windowed world) (loop : Bool) :
    Windowed (world.startWrite loop) := by
  rcases startWrite_eq world loop with ⟨tasks, writer, started⟩
  rw [started]
  exact windowed.of_landed rfl le_rfl fun _ _ _ => rfl

theorem Windowed.record (windowed : Windowed world) (userId : String) (costUsd : ℚ)
    (apiKeyId : Option ℤ) (day : Day) (loop : Bool) :
    Windowed (world.record userId costUsd apiKeyId day loop) := by
  unfold SpendWorld.record
  split_ifs
  · exact windowed
  · apply Windowed.startWrite
    refine windowed.of_landed rfl le_rfl ?_
    intro since user chosen
    simp [landedCost, Place.landedSince]

theorem Windowed.begin (windowed : Windowed world) (task : ℕ) (store : StoreRef) :
    Windowed (world.begin task store) := by
  unfold SpendWorld.begin
  dsimp only
  split_ifs
  · exact windowed.of_landed rfl le_rfl fun _ _ _ => rfl
  · cases store with
    | gone =>
      refine windowed.of_landed ?_ le_rfl fun since userId chosen =>
        landedCost_move since userId chosen world.entries rfl rfl
      rw [SpendLedger.unconfirmAll_eq]
      rfl
    | atomic | oneByOne =>
      exact windowed.of_landed rfl le_rfl fun since userId chosen =>
        landedCost_move since userId chosen world.entries rfl rfl

variable {batch : Dict CostKey Amount}

theorem Windowed.answerAtomic (accounted : Accounted world) (windowed : Windowed world)
    (found : world.tasks[task]? = some (.atomic batch))
    (later : world.clock ≤ now) (answer : AtomicAnswer) :
    Windowed (world.answerAtomic task batch now answer) := by
  cases answer with
  | applied =>
    refine windowed.finish accounted found (by simp) batch.keys true ?_ later
    simp [WriteTask.batch]
  | failed =>
    rw [← applyEntries_nil world batch true]
    refine windowed.finish accounted found (by simp) [] true ?_ later
    simp [WriteTask.batch]
  | unknown reallyApplied =>
    refine windowed.finish accounted found (by simp) _ true ?_ later
    simp [WriteTask.batch]

theorem Windowed.answerEntry (accounted : Accounted world) (windowed : Windowed world)
    {applied failed todo : List CostKey} {key : CostKey}
    (found : world.tasks[task]? = some (.oneByOne batch applied failed todo))
    (inTodo : key ∈ todo) (success : Bool) (later : world.clock ≤ now) :
    Windowed (world.answerEntry task batch applied failed todo key success now) := by
  rcases accounted.writer_of_live found (by simp) with ⟨-, current⟩
  have sound : (applied ++ failed ++ todo).Perm batch.keys := by
    have old := accounted.sound
    rwa [current] at old
  have answered := answered_perm sound inTodo success
  unfold SpendWorld.answerEntry
  dsimp only
  by_cases last : (todo.erase key).isEmpty = true
  · rw [if_pos last]
    rw [List.isEmpty_iff.mp last] at answered
    exact windowed.finish accounted found (by simp) _ false answered later
  · rw [if_neg last]
    exact windowed.of_landed rfl later fun since userId chosen =>
      landedCost_apply since userId chosen world.entries false _

theorem Windowed.cancelWrite (windowed : Windowed world) (task : ℕ) (batch : Dict CostKey Amount)
    (atomic : Bool) (keys : List CostKey) :
    Windowed (world.cancelWrite task batch atomic keys) := by
  refine windowed.of_landed rfl le_rfl ?_
  intro since userId chosen
  exact (landedCost_move since userId chosen _ rfl rfl).trans
    (landedCost_apply since userId chosen world.entries atomic keys)

theorem Windowed.flush (windowed : Windowed world) : Windowed world.flush := by
  unfold SpendWorld.flush
  split_ifs
  · exact windowed
  · exact windowed
  · exact windowed.of_landed rfl le_rfl fun _ _ _ => rfl
  · exact windowed.startWrite true

theorem Windowed.admitRequest (windowed : Windowed world) (check : SpendCheck) (amount : ℚ)
    (today : Day) (later : world.clock ≤ now) :
    Windowed (world.admitRequest check amount today now) := by
  unfold SpendWorld.admitRequest SpendLedger.admitRequest
  cases world.ledger.refusal check today now with
  | none | some refusal =>
    exact windowed.of_forget rfl later rfl

theorem Windowed.release (windowed : Windowed world) (index : ℕ) (reservation : Reservation) :
    Windowed (world.release index reservation) := by
  unfold SpendWorld.release
  split_ifs
  · exact windowed.of_landed rfl le_rfl fun _ _ _ => rfl
  · exact windowed

theorem Windowed.step {opening : SpendCheck → Limit → ℚ} {event : SpendEvent}
    (accounted : Accounted world) (windowed : Windowed world)
    (stepped : world.step opening event = some next) : Windowed next := by
  cases stepped_of_step opening stepped with
  | record userId costUsd apiKeyId day loop =>
    exact windowed.record userId costUsd apiKeyId day loop
  | begin store found =>
    exact windowed.begin _ store
  | answerAtomic answer found later =>
    exact windowed.answerAtomic accounted found later answer
  | answerEntry success found later inTodo =>
    exact windowed.answerEntry accounted found inTodo success later
  | cancelCreated keys found =>
    exact windowed.of_landed rfl le_rfl fun _ _ _ => rfl
  | cancelAtomic found all | cancelOneByOne found underWay =>
    exact windowed.cancelWrite _ _ _ _
  | writeFinished found | retryNow waiting =>
    apply Windowed.startWrite
    exact windowed.of_landed rfl le_rfl fun _ _ _ => rfl
  | flush =>
    exact windowed.flush
  | check later taken enough =>
    exact windowed.of_landed rfl later fun _ _ _ => rfl
  | admitRequest amount today found later =>
    exact windowed.admitRequest _ amount today later
  | release found =>
    exact windowed.release _ _

theorem Windowed.sum_extraCosts (accounted : Accounted world) (windowed : Windowed world)
    (userId : String) (chosen : Option ℤ → Day → Bool) {readAt now : ℚ}
    (later : world.clock ≤ now) (recent : now - landedWindowSeconds ≤ readAt) :
    tally (fun cost : Option ℤ × Day × ℚ => if chosen cost.1 cost.2.1 then cost.2.2 else 0)
        ((world.ledger.forgetLanded now).extraCosts userId readAt now) =
      tally (fun entry : Entry =>
        if entry.place.isUnconfirmed || entry.place.landedSince readAt then
          chosenCost userId chosen entry
        else 0) world.entries := by
  let forgotten : SpendWorld :=
    { world with ledger := world.ledger.forgetLanded now, clock := now }
  have windowedNow : Windowed forgotten := windowed.of_forget rfl later rfl
  have inTime : decide (readAt < now - landedWindowSeconds) = false := by simpa using recent
  have unconfirmed := accounted.sum_unconfirmed userId chosen
  have shares := SpendLedger.sharesSince_reverse readAt windowedNow.sorted userId chosen
  rw [windowedNow.shares userId chosen readAt recent] at shares
  unfold SpendLedger.extraCosts
  dsimp only
  rw [inTime, tally_append, tally_map, tally_flatMap]
  calc
    _ = tally (fun entry : Entry =>
          if entry.place.isUnconfirmed then chosenCost userId chosen entry else 0) world.entries +
        landedCost readAt userId chosen world.entries := by
      rw [← unconfirmed]
      exact congrArg _ shares
    _ = _ := by
      unfold landedCost
      rw [← tally_add]
      apply tally_congr
      intro entry _
      cases entry.place <;> simp [Place.isUnconfirmed, Place.isPending, Place.isWriting,
        Place.isUnknown, Place.landedSince]

end SpendWorld

end HybridInference.Spend
