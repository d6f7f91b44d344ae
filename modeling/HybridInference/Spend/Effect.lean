import HybridInference.Spend.World

/-!
# What a step can do

Each step of the world moves recorded costs forward, takes at most one gate's
reading and leaves the rest alone. These are the facts that every invariant of
the world is proved from, so that its steps are gone through once.
-/

namespace HybridInference.Spend

open Library

namespace Place

def isPending : Place → Bool
  | .pending => true
  | _ => false

def isWriting : Place → Bool
  | .writing => true
  | _ => false

def isUnknown : Place → Bool
  | .unknown => true
  | _ => false

def isLanded : Place → Bool
  | .landed _ _ => true
  | _ => false

def isDropped : Place → Bool
  | .dropped => true
  | _ => false

def isUnconfirmed (place : Place) : Bool :=
  place.isPending || place.isWriting || place.isUnknown

end Place

namespace SpendLedger

variable {batch : Dict CostKey Amount}

theorem unconfirm_eq (ledger : SpendLedger) (key : CostKey) (amount : Amount) :
    ledger.unconfirm key amount =
      { ledger with unconfirmed := (ledger.unconfirm key amount).unconfirmed } := by
  unfold unconfirm
  split
  · rfl
  · split
    · rfl
    · dsimp only
      split_ifs <;> rfl

theorem unconfirmAll_eq (ledger : SpendLedger) (keys : List CostKey) :
    ledger.unconfirmAll keys batch =
      { ledger with unconfirmed := (ledger.unconfirmAll keys batch).unconfirmed } := by
  induction keys generalizing ledger with
  | nil => rfl
  | cons key rest ih =>
    simp only [unconfirmAll, List.foldl_cons] at ih ⊢
    rw [ih (ledger.unconfirm key (batch.read key)), unconfirm_eq]

def landedAfter (landed : List Landed) (applied : List CostKey) (batch : Dict CostKey Amount)
    (now : ℚ) : List Landed :=
  let write : Landed := { confirmedAt := now, byUser := landedByUser applied batch }
  if applied.isEmpty then landed
  else (landed ++ [write]).dropWhile fun write => write.confirmedAt < now - landedWindowSeconds

theorem land_eq (ledger : SpendLedger) (applied : List CostKey) (now : ℚ) :
    (if applied.isEmpty then ledger else ledger.land applied batch now) =
      { ledger with
        unconfirmed := (ledger.unconfirmAll applied batch).unconfirmed
        landed := landedAfter ledger.landed applied batch now } := by
  cases applied with
  | nil => rfl
  | cons key rest =>
    simp only [List.isEmpty_cons, Bool.false_eq_true, if_false, land, forgetLanded, landedAfter]
    rw [unconfirmAll_eq]

theorem markUnknown_eq (ledger : SpendLedger) (unknown : List CostKey) :
    (if unknown.isEmpty then ledger else ledger.markUnknown unknown batch) =
      ledger.markUnknown unknown batch := by
  cases unknown with
  | nil => simp [markUnknown]
  | cons key rest => rfl

theorem scheduleRetry_eq (ledger : SpendLedger) : ∃ retry retryDelay,
      ledger.scheduleRetry = { ledger with retry := retry, retryDelay := retryDelay } := by
  unfold scheduleRetry
  split_ifs
  · exact ⟨ledger.retry, ledger.retryDelay, rfl⟩
  · exact ⟨true, _, rfl⟩

theorem settleWrite_eq (ledger : SpendLedger) (batch : Dict CostKey Amount)
    (applied failed unknown : List CostKey) (now : ℚ) :
    ∃ retry retryDelay, ledger.settleWrite batch applied failed unknown now =
      { ledger with
        pending := failed.foldl (fun pending key => addPending pending key (batch.read key))
          ledger.pending
        writing := ∅
        unconfirmed := (unconfirmAll { ledger with writing := ∅ } applied batch).unconfirmed
        landed := landedAfter ledger.landed applied batch now
        unknown := ledger.unknown ++ unknown.map fun key => (key, batch.read key)
        retry := retry
        retryDelay := retryDelay } := by
  unfold settleWrite
  dsimp only
  rw [land_eq, markUnknown_eq]
  cases failed with
  | nil => exact ⟨ledger.retry, 0, rfl⟩
  | cons key rest =>
    rcases scheduleRetry_eq (handBack (markUnknown _ unknown batch) (key :: rest) batch) with
      ⟨retry, retryDelay, scheduled⟩
    exact ⟨retry, retryDelay, scheduled⟩

end SpendLedger

def SpendEvent.recorded : SpendEvent → Option (CostKey × ℚ)
  | .record userId costUsd apiKeyId day _ =>
    if userId = "" ∨ ¬0 < costUsd then none
    else some ({ userId := userId, keyId := apiKeyId, day := day }, costUsd)
  | _ => none

def Entry.cause (entry : Entry) : CostKey × ℚ :=
  (entry.key, entry.cost)

namespace SpendWorld

section

variable (source target : Place) (entry : Entry)

theorem move_key : (entry.move source target).key = entry.key := by
  unfold Entry.move
  split_ifs <;> rfl

theorem move_cost : (entry.move source target).cost = entry.cost := by
  unfold Entry.move
  split_ifs <;> rfl

theorem move_place :
    (entry.move source target).place = if entry.place = source then target else entry.place := by
  unfold Entry.move
  split_ifs <;> rfl

theorem move_appliedAs : (entry.move source target).appliedAs = entry.appliedAs := by
  unfold Entry.move
  split_ifs <;> rfl

end

theorem apply_fields (atomic : Bool) (keys : List CostKey) (entry : Entry) :
    (entry.apply atomic keys).key = entry.key ∧ (entry.apply atomic keys).cost = entry.cost ∧
      (entry.apply atomic keys).place = entry.place := by
  unfold Entry.apply
  split_ifs <;> exact ⟨rfl, rfl, rfl⟩

theorem apply_elsewhere {entry : Entry} (atomic : Bool) (keys : List CostKey)
    (elsewhere : entry.place ≠ .writing) : entry.apply atomic keys = entry := by
  unfold Entry.apply
  rw [if_neg]
  exact fun chosen => elsewhere chosen.1

theorem resolve_fields (applied unknown : List CostKey) (atomic : Bool) (now : ℚ) (entry : Entry) :
    (entry.resolve applied unknown atomic now).key = entry.key ∧
      (entry.resolve applied unknown atomic now).cost = entry.cost ∧
      (entry.resolve applied unknown atomic now).appliedAs = entry.appliedAs := by
  unfold Entry.resolve
  split_ifs <;> exact ⟨rfl, rfl, rfl⟩

theorem resolve_place (applied unknown : List CostKey) (atomic : Bool) (now : ℚ) (entry : Entry) :
    (entry.resolve applied unknown atomic now).place = if entry.place = .writing then
        if entry.key ∈ applied then .landed now (entry.added atomic)
        else if entry.key ∈ unknown then .unknown
        else .pending
      else entry.place := by
  unfold Entry.resolve
  split_ifs <;> rfl

theorem cause_move (source target : Place) (entry : Entry) :
    (entry.move source target).cause = entry.cause := by
  simp [Entry.cause, move_key, move_cost]

theorem cause_apply (atomic : Bool) (keys : List CostKey) (entry : Entry) :
    (entry.apply atomic keys).cause = entry.cause := by
  simp [Entry.cause, apply_fields atomic keys entry]

theorem cause_resolve (applied unknown : List CostKey) (atomic : Bool) (now : ℚ) (entry : Entry) :
    (entry.resolve applied unknown atomic now).cause = entry.cause := by
  simp [Entry.cause, resolve_fields applied unknown atomic now entry]

theorem applyEntries_nil (world : SpendWorld) (batch : Dict CostKey Amount) (atomic : Bool) :
    world.applyEntries batch atomic [] = world := by
  have unchanged : Entry.apply atomic [] = id := by
    funext entry
    simp [Entry.apply]
  simp [applyEntries, unchanged]

theorem startWrite_eq (world : SpendWorld) (loop : Bool) : ∃ tasks writer, world.startWrite loop =
      { world with ledger := { world.ledger with writer := writer }, tasks := tasks } := by
  unfold startWrite
  split_ifs
  · exact ⟨world.tasks, world.ledger.writer, rfl⟩
  · exact ⟨world.tasks, world.ledger.writer, rfl⟩
  · exact ⟨world.tasks, world.ledger.writer, rfl⟩
  · exact ⟨_, _, rfl⟩

end SpendWorld

/-- What a step may do to a recorded cost, giving it up only when the store is gone. -/
structure Entry.Moved (gone : Prop) (clock : ℚ) (before after : Entry) : Prop where
  cause : after.cause = before.cause
  place : after.place = before.place ∨ before.place.isUnconfirmed = true ∧
      (after.place.isUnconfirmed = true ∨ gone ∧ after.place = .dropped ∨
        ∃ now atomic, clock ≤ now ∧ after.place = .landed now (before.added atomic))

namespace Entry

variable {gone : Prop} {clock : ℚ}

theorem Moved.refl (entry : Entry) : entry.Moved gone clock entry :=
  ⟨rfl, Or.inl rfl⟩

theorem Moved.apply (atomic : Bool) (keys : List CostKey) (entry : Entry) :
    entry.Moved gone clock (entry.apply atomic keys) :=
  ⟨SpendWorld.cause_apply atomic keys entry, Or.inl (SpendWorld.apply_fields atomic keys entry).2.2⟩

theorem Moved.move {source target : Place} (entry : Entry) (left : source.isUnconfirmed = true)
    (reached : target.isUnconfirmed = true ∨ gone ∧ target = .dropped) :
    entry.Moved gone clock (entry.move source target) := by
  refine ⟨SpendWorld.cause_move source target entry, ?_⟩
  rw [SpendWorld.move_place]
  split_ifs with moved
  · rw [moved]
    rcases reached with unconfirmed | dropped
    · exact Or.inr ⟨left, Or.inl unconfirmed⟩
    · exact Or.inr ⟨left, Or.inr (Or.inl dropped)⟩
  · exact Or.inl rfl

theorem Moved.resolve {now : ℚ} (later : clock ≤ now) (applied unknown : List CostKey)
    (atomic : Bool) (entry : Entry) :
    entry.Moved gone clock (entry.resolve applied unknown atomic now) := by
  refine ⟨SpendWorld.cause_resolve applied unknown atomic now entry, ?_⟩
  rw [SpendWorld.resolve_place]
  split_ifs with writing inApplied inUnknown
  · rw [writing]
    exact Or.inr ⟨rfl, Or.inr (Or.inr ⟨now, atomic, later, rfl⟩)⟩
  · rw [writing]
    exact Or.inr ⟨rfl, Or.inl rfl⟩
  · rw [writing]
    exact Or.inr ⟨rfl, Or.inl rfl⟩
  · exact Or.inl rfl

theorem Moved.after_apply {entry after : Entry} {atomic : Bool} {keys : List CostKey}
    (moved : (entry.apply atomic keys).Moved gone clock after) : entry.Moved gone clock after := by
  rcases SpendWorld.apply_fields atomic keys entry with ⟨-, cost, place⟩
  have added (mode : Bool) : (entry.apply atomic keys).added mode = entry.added mode := by
    simp only [Entry.added, cost]
  refine ⟨moved.cause.trans (SpendWorld.cause_apply atomic keys entry), ?_⟩
  have placed := moved.place
  simp only [place, added] at placed
  exact placed

end Entry

namespace SpendEvent

def entered (event : SpendEvent) : List Entry :=
  event.recorded.toList.map fun cost => { key := cost.1, cost := cost.2 }

def FindsGone (event : SpendEvent) : Prop :=
  ∃ task, event = .begin task .gone

def reserves : SpendEvent → Bool
  | .admitRequest _ _ _ _ | .release _ => true
  | _ => false

end SpendEvent

namespace SpendWorld

variable {world next : SpendWorld} {opening : SpendCheck → Limit → ℚ} {event : SpendEvent}

structure SameReservations (world next : SpendWorld) : Prop where
  users : next.ledger.reservedUsers = world.ledger.reservedUsers
  keys : next.ledger.reservedKeys = world.ledger.reservedKeys
  reservations : next.reservations = world.reservations

/-- What a step does to the clock, the costs, the gates and the reservations. -/
structure Effect (opening : SpendCheck → Limit → ℚ) (world : SpendWorld) (event : SpendEvent)
    (next : SpendWorld) : Prop where
  later : world.clock ≤ next.clock
  entries : ∃ change : Entry → Entry, next.entries = world.entries.map change ++ event.entered ∧
    ∀ entry : Entry, entry.Moved event.FindsGone world.clock (change entry)
  checks : ∀ check ∈ next.checks, check ∈ world.checks ∨
    ∃ day now, event = .check check day now ∧ check.readAt ≤ next.clock ∧
      next.readsAtLeast opening check day
  reservations : event.reserves = false → SameReservations world next

theorem Effect.of_map (later : world.clock ≤ next.clock) (change : Entry → Entry)
    (entries : next.entries = world.entries.map change)
    (moved : ∀ entry : Entry, entry.Moved event.FindsGone world.clock (change entry))
    (silent : event.recorded = none) (checks : next.checks = world.checks)
    (reservations : event.reserves = false → SameReservations world next) :
    Effect opening world event next := by
  refine ⟨later, ⟨change, ?_, moved⟩, ?_, reservations⟩
  · simp [SpendEvent.entered, silent, entries]
  · intro check member
    rw [checks] at member
    exact Or.inl member

theorem Effect.of_same (later : world.clock ≤ next.clock) (entries : next.entries = world.entries)
    (silent : event.recorded = none) (checks : next.checks = world.checks)
    (reservations : event.reserves = false → SameReservations world next) :
    Effect opening world event next := by
  apply Effect.of_map later id _ Entry.Moved.refl silent checks reservations
  rw [entries, List.map_id]

theorem Effect.startWrite (effect : Effect opening world event next) (loop : Bool) :
    Effect opening world event (next.startWrite loop) := by
  rcases startWrite_eq next loop with ⟨tasks, writer, started⟩
  rw [started]
  refine ⟨effect.later, effect.entries, effect.checks, ?_⟩
  intro quiet
  have same := effect.reservations quiet
  exact ⟨same.users, same.keys, same.reservations⟩

theorem Effect.record (world : SpendWorld) (userId : String) (costUsd : ℚ)
    (apiKeyId : Option ℤ) (day : Day) (loop : Bool) :
    Effect opening world (.record userId costUsd apiKeyId day loop)
      (world.record userId costUsd apiKeyId day loop) := by
  unfold SpendWorld.record
  split_ifs with ignored
  · exact Effect.of_same le_rfl rfl (if_pos ignored) rfl fun _ => ⟨rfl, rfl, rfl⟩
  · apply Effect.startWrite
    refine ⟨le_rfl, ⟨id, ?_, Entry.Moved.refl⟩, fun check member => Or.inl member,
      fun _ => ⟨rfl, rfl, rfl⟩⟩
    have recorded : SpendEvent.recorded (.record userId costUsd apiKeyId day loop) =
        some ({ userId := userId, keyId := apiKeyId, day := day }, costUsd) := if_neg ignored
    simp [SpendEvent.entered, recorded]

theorem Effect.begin (world : SpendWorld) (task : ℕ) (store : StoreRef) :
    Effect opening world (.begin task store) (world.begin task store) := by
  unfold SpendWorld.begin
  dsimp only
  split_ifs
  · exact Effect.of_same le_rfl rfl rfl rfl fun _ => ⟨rfl, rfl, rfl⟩
  · cases store with
    | gone =>
      refine Effect.of_map le_rfl _ rfl ?_ rfl rfl fun _ => ?_
      · exact fun entry => Entry.Moved.move entry rfl (Or.inr ⟨⟨task, rfl⟩, rfl⟩)
      · rw [SpendLedger.unconfirmAll_eq]
        exact ⟨rfl, rfl, rfl⟩
    | atomic | oneByOne =>
      refine Effect.of_map le_rfl _ rfl ?_ rfl rfl fun _ => ⟨rfl, rfl, rfl⟩
      exact fun entry => Entry.Moved.move entry rfl (Or.inl rfl)

variable {now : ℚ}

theorem Effect.finish (task : ℕ) (keys : List CostKey) (batch : Dict CostKey Amount)
    (applied failed unknown : List CostKey) (atomic : Bool) (later : world.clock ≤ now)
    (silent : event.recorded = none) :
    Effect opening world event ((world.applyEntries batch atomic keys).finish task batch applied
      failed unknown atomic now) := by
  refine Effect.of_map later (Entry.resolve applied unknown atomic now ∘ Entry.apply atomic keys)
    List.map_map ?_ silent rfl fun _ => ?_
  · intro entry
    exact (Entry.Moved.resolve later applied unknown atomic _).after_apply
  · rcases SpendLedger.settleWrite_eq world.ledger batch applied failed unknown now with
      ⟨retry, delay, parts⟩
    have users := congrArg SpendLedger.reservedUsers parts
    have keys := congrArg SpendLedger.reservedKeys parts
    exact ⟨users, keys, rfl⟩

theorem Effect.answerAtomic (task : ℕ) (batch : Dict CostKey Amount)
    (later : world.clock ≤ now) (answer : AtomicAnswer) :
    Effect opening world (.answerAtomic task answer now)
      (world.answerAtomic task batch now answer) := by
  cases answer with
  | applied => exact Effect.finish task batch.keys batch _ _ _ true later rfl
  | failed =>
    have finished : Effect opening world (.answerAtomic task .failed now)
        ((world.applyEntries batch true []).finish task batch [] batch.keys [] true now) :=
      Effect.finish task [] batch _ _ _ true later rfl
    rwa [applyEntries_nil] at finished
  | unknown reallyApplied => exact Effect.finish task _ batch _ _ _ true later rfl

theorem Effect.answerEntry (task : ℕ) (batch : Dict CostKey Amount)
    (applied failed todo : List CostKey) (key : CostKey) (success : Bool)
    (later : world.clock ≤ now) :
    Effect opening world (.answerEntry task key success now)
      (world.answerEntry task batch applied failed todo key success now) := by
  unfold SpendWorld.answerEntry
  by_cases last : (todo.erase key).isEmpty = true
  · rw [if_pos last]
    exact Effect.finish task _ batch _ _ _ false later rfl
  · rw [if_neg last]
    exact Effect.of_map later _ rfl (Entry.Moved.apply false _) rfl rfl fun _ => ⟨rfl, rfl, rfl⟩

theorem Effect.cancelWrite (task : ℕ) (batch : Dict CostKey Amount) (atomic : Bool)
    (keys : List CostKey) :
    Effect opening world (.cancel task keys) (world.cancelWrite task batch atomic keys) := by
  refine Effect.of_map le_rfl (Entry.move .writing .unknown ∘ Entry.apply atomic keys)
    List.map_map ?_ rfl rfl fun _ => ⟨rfl, rfl, rfl⟩
  intro entry
  exact (Entry.Moved.move _ rfl (Or.inl rfl)).after_apply

theorem Effect.flush (world : SpendWorld) : Effect opening world .flush world.flush := by
  have same : Effect opening world .flush world :=
    Effect.of_same le_rfl rfl rfl rfl fun _ => ⟨rfl, rfl, rfl⟩
  unfold SpendWorld.flush
  split_ifs
  · exact same
  · exact same
  · exact Effect.of_same le_rfl rfl rfl rfl fun _ => ⟨rfl, rfl, rfl⟩
  · exact same.startWrite true

theorem Effect.admitRequest (index : ℕ) (check : SpendCheck) (amount : ℚ) (today : Day)
    (later : world.clock ≤ now) :
    Effect opening world (.admitRequest index amount today now)
      (world.admitRequest check amount today now) := by
  unfold SpendWorld.admitRequest
  split <;> exact Effect.of_same later rfl rfl rfl nofun

theorem Effect.release (index : ℕ) (reservation : Reservation) :
    Effect opening world (.release index) (world.release index reservation) := by
  unfold SpendWorld.release
  split_ifs <;> exact Effect.of_same le_rfl rfl rfl rfl nofun

theorem effect_of_step (stepped : world.step opening event = some next) :
    Effect opening world event next := by
  cases stepped_of_step opening stepped with
  | record userId costUsd apiKeyId day loop =>
    exact Effect.record world userId costUsd apiKeyId day loop
  | begin store found =>
    exact Effect.begin world _ store
  | answerAtomic answer found later =>
    exact Effect.answerAtomic _ _ later answer
  | answerEntry success found later inTodo =>
    exact Effect.answerEntry _ _ _ _ _ _ success later
  | cancelCreated keys found =>
    exact Effect.of_same le_rfl rfl rfl rfl fun _ => ⟨rfl, rfl, rfl⟩
  | cancelAtomic found all | cancelOneByOne found underWay =>
    exact Effect.cancelWrite _ _ _ _
  | writeFinished found | retryNow waiting =>
    apply Effect.startWrite
    exact Effect.of_same le_rfl rfl rfl rfl fun _ => ⟨rfl, rfl, rfl⟩
  | flush =>
    exact Effect.flush world
  | @check check today now later taken enough =>
    refine ⟨later, ⟨id, by simp [SpendEvent.entered, SpendEvent.recorded], Entry.Moved.refl⟩, ?_,
      fun _ => ⟨rfl, rfl, rfl⟩⟩
    intro other member
    rcases List.mem_append.mp member with earlier | last
    · exact Or.inl earlier
    · rw [List.mem_singleton.mp last]
      exact Or.inr ⟨today, now, rfl, taken, enough⟩
  | admitRequest amount today found later =>
    exact Effect.admitRequest _ _ amount today later
  | release found =>
    exact Effect.release _ _

theorem step_causes (stepped : world.step opening event = some next) :
    next.entries.map Entry.cause = world.entries.map Entry.cause ++ event.recorded.toList := by
  rcases (effect_of_step stepped).entries with ⟨change, entries, moved⟩
  have kept : Entry.cause ∘ change = Entry.cause := by
    funext entry
    exact (moved entry).cause
  have entered : event.entered.map Entry.cause = event.recorded.toList := by
    simp [SpendEvent.entered, Entry.cause, Function.comp_def]
  rw [entries, List.map_append, List.map_map, kept, entered]

def RecordedBy (events : List SpendEvent) (world : SpendWorld) : Prop :=
  world.entries.map Entry.cause = events.filterMap SpendEvent.recorded

theorem run_recordedBy {events : List SpendEvent}
    (ran : (spendMachine opening).run {} events = some world) : RecordedBy events world := by
  refine @Machine.run_history _ _ (spendMachine opening) {} RecordedBy rfl ?_ events world ran
  intro past state event next _ recorded stepped
  unfold RecordedBy at recorded ⊢
  rw [step_causes stepped, recorded, List.filterMap_append]
  cases cost : event.recorded <;> simp [cost]

end SpendWorld

end HybridInference.Spend
