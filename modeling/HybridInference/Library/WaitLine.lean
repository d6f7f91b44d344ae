import HybridInference.Library.ListUpdate
import Mathlib.Data.List.Nodup

/-!
# A line for a limited number of places

Callers take a place at once while there is room and nobody waits, and queue
otherwise. A waiter's place is reserved by whoever makes room, before the
waiter resumes, so a waiter that gives up at that very moment has a place to
hand back. The limit may move at any time.

Every place has the number of its arrival. `takes` and `returned` record, in order, which places
were granted and handed back; they decide nothing. Places that are granted over the limit on
purpose are marked and stand outside the order.
-/

namespace HybridInference.Library

inductive Future where
  | pending
  | resolved
  | cancelled
  deriving DecidableEq

inductive Caller where
  | queued (future : Future)
  | holding
  | gone
  deriving DecidableEq

def Caller.occupies : Caller → Bool
  | .queued .resolved | .holding => true
  | .queued .pending | .queued .cancelled | .gone => false

@[simp]
theorem gone_occupies : Caller.gone.occupies = false := rfl

theorem countP_occupies (callers : List Caller) : callers.countP Caller.occupies =
      callers.countP (· = .holding) + callers.countP (· = .queued .resolved) := by
  induction callers with
  | nil => rfl
  | cons caller rest ih =>
    rw [List.countP_cons, List.countP_cons, List.countP_cons, ih]
    rcases caller with future | _ | _
    · cases future <;> simp [Caller.occupies]
      omega
    · simp [Caller.occupies]
      omega
    · simp [Caller.occupies]

structure Take where
  caller : ℕ
  held : ℕ
  limit : ℕ
  overflow : Bool
  deriving DecidableEq

structure Line where
  limit : ℕ
  held : ℕ := 0
  waiters : List ℕ := []
  callers : List Caller := []
  takes : List Take := []
  returned : List ℕ := []
  deriving DecidableEq

namespace Line

def take (line : Line) (overflow : Bool) : Line :=
  { line with
    held := line.held + 1
    callers := line.callers ++ [.holding]
    takes := line.takes ++ [⟨line.callers.length, line.held, line.limit, overflow⟩] }

def enqueue (line : Line) : Line :=
  { line with
    callers := line.callers ++ [.queued .pending]
    waiters := line.waiters ++ [line.callers.length] }

def turnAway (line : Line) : Line :=
  { line with callers := line.callers ++ [.gone] }

def grant (line : Line) (waiter : ℕ) : Line :=
  { line with
    held := line.held + 1
    callers := line.callers.set waiter (.queued .resolved)
    takes := line.takes ++ [⟨waiter, line.held, line.limit, false⟩] }

def wakeFrom : List ℕ → Line → Line
  | [], line => { line with waiters := [] }
  | waiter :: rest, line =>
    if line.held < line.limit then
      if line.callers[waiter]? = some (.queued .pending) then wakeFrom rest (line.grant waiter)
      else wakeFrom rest line
    else { line with waiters := waiter :: rest }

def wake (line : Line) : Line :=
  wakeFrom line.waiters line

def interrupt (line : Line) (id : ℕ) : Line :=
  if line.callers[id]? = some (.queued .pending) then
    { line with callers := line.callers.set id (.queued .cancelled) }
  else line

def resume (line : Line) (id : ℕ) : Line :=
  { line with callers := line.callers.set id .holding }

def giveBack (line : Line) (id limit : ℕ) : Line :=
  { line with
    limit := limit
    held := if 0 < line.held then line.held - 1 else line.held
    callers := line.callers.set id .gone
    returned := line.returned ++ [id] }.wake

def abandon (line : Line) (id : ℕ) : Line :=
  let left := { line with waiters := line.waiters.erase id }
  if line.callers[id]? = some (.queued .resolved) then left.giveBack id left.limit
  else { left with callers := line.callers.set id .gone }

def withLimit (line : Line) (limit : ℕ) : Line :=
  { line with limit := limit }.wake

/-- The counts of a line are those of its callers. -/
structure Consistent (line : Line) : Prop where
  count : line.held = line.callers.countP Caller.occupies
  sorted : line.waiters.Pairwise (· < ·)
  queued : ∀ id ∈ line.waiters, line.callers[id]? = some (.queued .pending) ∨
    line.callers[id]? = some (.queued .cancelled)
  waiting : ∀ id, line.callers[id]? = some (.queued .pending) → id ∈ line.waiters
  room : ∀ take ∈ line.takes, take.overflow = false → take.held < take.limit
  order : line.takes.Pairwise fun first second =>
    first.overflow = false → second.overflow = false → first.caller < second.caller
  ahead : ∀ take ∈ line.takes, take.overflow = false → ∀ id ∈ line.waiters, take.caller < id
  known : ∀ take ∈ line.takes, ∃ caller, line.callers[take.caller]? = some caller ∧
    (caller.occupies = true ∨ caller = .gone ∧ take.caller ∈ line.returned)
  once : line.returned.Nodup
  left : ∀ id ∈ line.returned, line.callers[id]? = some .gone
  balance : line.held + line.returned.length = line.takes.length

/-- A consistent line in which nobody waits while a place is free. -/
structure Sound (line : Line) : Prop extends Consistent line where
  busy : line.waiters ≠ [] → line.limit ≤ line.held

section Wake

variable {line : Line} {waiter : ℕ} {rest : List ℕ}

theorem Consistent.grant (consistent : Consistent { line with waiters := waiter :: rest })
    (room : line.held < line.limit)
    (pending : line.callers[waiter]? = some (.queued .pending)) :
    Consistent { line.grant waiter with waiters := rest } := by
  have sorted : waiter ∉ rest ∧ (∀ id ∈ rest, waiter < id) ∧ rest.Pairwise (· < ·) := by
    rcases List.pairwise_cons.mp consistent.sorted with ⟨first, later⟩
    exact ⟨fun again => Nat.lt_irrefl _ (first waiter again), first, later⟩
  rcases sorted with ⟨notAgain, first, later⟩
  have lookup : ∀ id, (line.callers.set waiter (.queued .resolved))[id]? =
      if waiter = id then some (.queued .resolved) else line.callers[id]? :=
    fun id => getElem?_set_of_some pending
  have counted := countP_set_of_some Caller.occupies (.queued .resolved) pending
  constructor
  · have := consistent.count
    simp only [Line.grant] at this ⊢
    simp only [Caller.occupies, Bool.false_eq_true, if_false, if_true] at counted
    omega
  · exact later
  · intro id member
    have different : waiter ≠ id := fun equal => notAgain (equal ▸ member)
    simpa only [Line.grant, lookup, if_neg different] using
      consistent.queued id (List.mem_cons_of_mem _ member)
  · intro id waits
    simp only [Line.grant, lookup] at waits
    split_ifs at waits with equal
    · simp at waits
    · rcases List.mem_cons.mp (consistent.waiting id waits) with same | member
      · exact absurd same.symm equal
      · exact member
  · intro take member normal
    rcases List.mem_append.mp member with member | member
    · exact consistent.room take member normal
    · rw [List.mem_singleton.mp member]
      exact room
  · refine List.pairwise_append.mpr ⟨consistent.order, List.pairwise_singleton _ _, ?_⟩
    intro earlier member last lastMember normal _
    rw [List.mem_singleton.mp lastMember]
    exact consistent.ahead earlier member normal waiter List.mem_cons_self
  · intro take member normal id waits
    rcases List.mem_append.mp member with member | member
    · exact consistent.ahead take member normal id (List.mem_cons_of_mem _ waits)
    · rw [List.mem_singleton.mp member]
      exact first id waits
  · intro take member
    simp only [Line.grant, lookup]
    rcases List.mem_append.mp member with member | member
    · split_ifs with equal
      · exact ⟨_, rfl, Or.inl rfl⟩
      · exact consistent.known take member
    · rw [List.mem_singleton.mp member]
      exact ⟨_, if_pos rfl, Or.inl rfl⟩
  · exact consistent.once
  · intro id member
    have gone := consistent.left id member
    have different : waiter ≠ id := by
      rintro rfl
      rw [pending] at gone
      simp at gone
    simpa only [Line.grant, lookup, if_neg different] using gone
  · have := consistent.balance
    simp only [Line.grant, List.length_append, List.length_singleton]
    dsimp only at this
    omega

theorem Consistent.drop (consistent : Consistent { line with waiters := waiter :: rest })
    (done : line.callers[waiter]? ≠ some (.queued .pending)) :
    Consistent { line with waiters := rest } := by
  refine { consistent with
    sorted := (List.pairwise_cons.mp consistent.sorted).2
    queued := fun id member => consistent.queued id (List.mem_cons_of_mem _ member)
    waiting := ?_
    ahead := fun take member normal id waits =>
      consistent.ahead take member normal id (List.mem_cons_of_mem _ waits) }
  intro id waits
  rcases List.mem_cons.mp (consistent.waiting id waits) with same | member
  · exact absurd (same ▸ waits) done
  · exact member

theorem wakeFrom_sound (consistent : Consistent { line with waiters := rest }) :
    Sound (wakeFrom rest line) := by
  induction rest generalizing line with
  | nil => exact ⟨consistent, by simp [wakeFrom]⟩
  | cons waiter rest ih =>
    unfold wakeFrom
    split_ifs with room pending
    · exact ih (consistent.grant room pending)
    · exact ih (consistent.drop pending)
    · exact ⟨consistent, fun _ => Nat.not_lt.mp room⟩

theorem Consistent.wake (consistent : Consistent line) : Sound line.wake :=
  wakeFrom_sound consistent

theorem wakeFrom_limit : (wakeFrom rest line).limit = line.limit := by
  induction rest generalizing line with
  | nil => rfl
  | cons waiter rest ih =>
    unfold wakeFrom
    split_ifs
    · rw [ih]
      rfl
    · exact ih
    · rfl

@[simp]
theorem wake_limit (line : Line) : line.wake.limit = line.limit :=
  wakeFrom_limit

theorem wakeFrom_returned : (wakeFrom rest line).returned = line.returned := by
  induction rest generalizing line with
  | nil => rfl
  | cons waiter rest ih =>
    unfold wakeFrom
    split_ifs
    · rw [ih]
      rfl
    · exact ih
    · rfl

theorem wakeFrom_length : (wakeFrom rest line).callers.length = line.callers.length := by
  induction rest generalizing line with
  | nil => rfl
  | cons waiter rest ih =>
    unfold wakeFrom
    split_ifs
    · rw [ih]
      simp [Line.grant]
    · exact ih
    · rfl

theorem wakeFrom_takes {take : Take} (member : take ∈ (wakeFrom rest line).takes) :
    take ∈ line.takes ∨ take.overflow = false := by
  induction rest generalizing line with
  | nil => exact Or.inl member
  | cons waiter rest ih =>
    unfold wakeFrom at member
    split_ifs at member
    · rcases ih member with earlier | normal
      · rcases List.mem_append.mp earlier with earlier | last
        · exact Or.inl earlier
        · right
          rw [List.mem_singleton.mp last]
      · exact Or.inr normal
    · exact ih member
    · exact Or.inl member

end Wake

section Operations

variable {line : Line} {id : ℕ}

theorem Consistent.withLimit (consistent : Consistent line) (limit : ℕ) :
    Sound (line.withLimit limit) :=
  Consistent.wake { consistent with }

theorem Consistent.turnAway (consistent : Consistent line) : Consistent line.turnAway := by
  refine { consistent with
    count := ?_
    queued := ?_
    waiting := ?_
    known := ?_
    left := fun id member => getElem?_concat_of_some (consistent.left id member) }
  · simp [Line.turnAway, consistent.count]
  · intro id member
    exact (consistent.queued id member).imp getElem?_concat_of_some getElem?_concat_of_some
  · intro id waits
    rcases getElem?_concat_cases waits with found | ⟨-, same⟩
    · exact consistent.waiting id found
    · simp at same
  · intro take member
    rcases consistent.known take member with ⟨taker, found, state⟩
    exact ⟨taker, getElem?_concat_of_some found, state⟩

theorem Consistent.take (consistent : Consistent line) {overflow : Bool}
    (free : overflow = false → line.waiters = [] ∧ line.held < line.limit) :
    Consistent (line.take overflow) := by
  have older : ∀ take ∈ line.takes, take.caller < line.callers.length := by
    intro take member
    rcases consistent.known take member with ⟨caller, found, -⟩
    exact (List.getElem?_eq_some_iff.mp found).1
  constructor
  · simp [Line.take, consistent.count, Caller.occupies]
  · exact consistent.sorted
  · intro id member
    exact (consistent.queued id member).imp getElem?_concat_of_some getElem?_concat_of_some
  · intro id waits
    rcases getElem?_concat_cases waits with found | ⟨-, same⟩
    · exact consistent.waiting id found
    · simp at same
  · intro take member normal
    rcases List.mem_append.mp member with member | member
    · exact consistent.room take member normal
    · rw [List.mem_singleton.mp member] at normal ⊢
      exact (free normal).2
  · refine List.pairwise_append.mpr ⟨consistent.order, List.pairwise_singleton _ _, ?_⟩
    intro earlier member last lastMember _ _
    rw [List.mem_singleton.mp lastMember]
    exact older earlier member
  · intro take member normal id waits
    rcases List.mem_append.mp member with member | member
    · exact consistent.ahead take member normal id waits
    · rw [List.mem_singleton.mp member] at normal
      have nobody := (free normal).1
      simp only [Line.take, nobody, List.not_mem_nil] at waits
  · intro take member
    rcases List.mem_append.mp member with member | member
    · rcases consistent.known take member with ⟨caller, found, state⟩
      exact ⟨caller, getElem?_concat_of_some found, state⟩
    · rw [List.mem_singleton.mp member]
      exact ⟨.holding, by simp [Line.take], Or.inl rfl⟩
  · exact consistent.once
  · exact fun id member => getElem?_concat_of_some (consistent.left id member)
  · have := consistent.balance
    simp only [Line.take, List.length_append, List.length_singleton]
    omega

theorem Sound.take (sound : Sound line) {overflow : Bool}
    (free : overflow = false → line.waiters = [] ∧ line.held < line.limit) :
    Sound (line.take overflow) := by
  refine ⟨sound.toConsistent.take free, ?_⟩
  intro waits
  have := sound.busy waits
  simp only [Line.take]
  omega

theorem Sound.turnAway (sound : Sound line) : Sound line.turnAway :=
  ⟨sound.toConsistent.turnAway, sound.busy⟩

theorem Consistent.enqueue (consistent : Consistent line) : Consistent line.enqueue := by
  have younger : ∀ id ∈ line.waiters, id < line.callers.length := by
    intro id member
    rcases consistent.queued id member with found | found
    · exact (List.getElem?_eq_some_iff.mp found).1
    · exact (List.getElem?_eq_some_iff.mp found).1
  constructor
  · simp [Line.enqueue, consistent.count, Caller.occupies]
  · refine List.pairwise_append.mpr ⟨consistent.sorted, List.pairwise_singleton _ _, ?_⟩
    intro id member last lastMember
    rw [List.mem_singleton.mp lastMember]
    exact younger id member
  · intro id member
    rcases List.mem_append.mp member with member | member
    · exact (consistent.queued id member).imp getElem?_concat_of_some getElem?_concat_of_some
    · rw [List.mem_singleton.mp member]
      simp [Line.enqueue]
  · intro id waits
    apply List.mem_append.mpr
    rcases getElem?_concat_cases waits with found | ⟨atEnd, -⟩
    · exact Or.inl (consistent.waiting id found)
    · exact Or.inr (List.mem_singleton.mpr atEnd)
  · exact consistent.room
  · exact consistent.order
  · intro take member normal id waits
    rcases List.mem_append.mp waits with waits | waits
    · exact consistent.ahead take member normal id waits
    · rw [List.mem_singleton.mp waits]
      rcases consistent.known take member with ⟨caller, found, -⟩
      exact (List.getElem?_eq_some_iff.mp found).1
  · intro take member
    rcases consistent.known take member with ⟨caller, found, state⟩
    exact ⟨caller, getElem?_concat_of_some found, state⟩
  · exact consistent.once
  · exact fun id member => getElem?_concat_of_some (consistent.left id member)
  · exact consistent.balance

theorem Sound.enqueue (sound : Sound line) (blocked : line.waiters ≠ [] ∨ line.limit ≤ line.held) :
    Sound line.enqueue := by
  refine ⟨sound.toConsistent.enqueue, ?_⟩
  intro _
  rcases blocked with waits | full
  · exact sound.busy waits
  · exact full

theorem Consistent.update (consistent : Consistent line) {old new : Caller} {held : ℕ}
    {waiters returned : List ℕ} (found : line.callers[id]? = some old) (alive : old ≠ .gone)
    (notPending : new ≠ .queued .pending)
    (count : held + (if old.occupies then 1 else 0) = line.held + if new.occupies then 1 else 0)
    (shorter : waiters.Sublist line.waiters)
    (others : ∀ other ∈ line.waiters, other ≠ id → other ∈ waiters)
    (stays : id ∈ waiters → new = .queued .cancelled)
    (place : old.occupies = true → new.occupies = true ∨ new = .gone ∧ id ∈ returned)
    (once : returned.Nodup) (kept : ∀ other ∈ line.returned, other ∈ returned)
    (left : ∀ other ∈ returned, other = id ∧ new = .gone ∨ other ∈ line.returned)
    (balance : held + returned.length = line.held + line.returned.length) :
    Consistent { line with
      held := held, callers := line.callers.set id new, waiters := waiters,
      returned := returned } := by
  have lookup : ∀ other, (line.callers.set id new)[other]? =
      if id = other then some new else line.callers[other]? :=
    fun other => getElem?_set_of_some found
  refine { consistent with
    count := ?_
    sorted := consistent.sorted.sublist shorter
    queued := ?_
    waiting := ?_
    ahead := fun take member normal other waits =>
      consistent.ahead take member normal other (shorter.subset waits)
    known := ?_
    once := once
    left := ?_
    balance := balance.trans consistent.balance }
  · have counted := countP_set_of_some Caller.occupies new found
    have := consistent.count
    dsimp only
    omega
  · intro other member
    simp only [lookup]
    split_ifs with equal
    · subst equal
      simp [stays member]
    · exact consistent.queued other (shorter.subset member)
  · intro other waits
    simp only [lookup] at waits
    split_ifs at waits with equal
    · exact absurd (Option.some.inj waits) notPending
    · exact others other (consistent.waiting other waits) fun same => equal same.symm
  · intro take member
    rcases consistent.known take member with ⟨caller, takerFound, state⟩
    simp only [lookup]
    split_ifs with equal
    · rw [← equal, found, Option.some.injEq] at takerFound
      subst takerFound
      rcases state with occupies | ⟨gone, -⟩
      · refine ⟨new, rfl, ?_⟩
        rw [← equal]
        exact place occupies
      · exact absurd gone alive
    · refine ⟨caller, takerFound, ?_⟩
      rcases state with occupies | ⟨gone, member⟩
      · exact Or.inl occupies
      · exact Or.inr ⟨gone, kept _ member⟩
  · intro other member
    simp only [lookup]
    rcases left other member with ⟨rfl, rfl⟩ | member
    · exact if_pos rfl
    · split_ifs with equal
      · subst equal
        have gone := consistent.left id member
        rw [found, Option.some.injEq] at gone
        exact absurd gone alive
      · exact consistent.left other member

theorem Consistent.interrupt (consistent : Consistent line) : Consistent (line.interrupt id) := by
  unfold Line.interrupt
  split_ifs with pending
  · exact consistent.update pending (by simp) (by simp) (by simp [Caller.occupies])
      (List.Sublist.refl _) (fun _ member _ => member) (fun _ => rfl) (by simp [Caller.occupies])
      consistent.once (fun _ member => member) (fun _ member => Or.inr member) rfl
  · exact consistent

theorem Sound.interrupt (sound : Sound line) : Sound (line.interrupt id) := by
  refine ⟨sound.toConsistent.interrupt, ?_⟩
  unfold Line.interrupt
  split_ifs with pending <;> exact sound.busy

variable {caller : Caller}

theorem Consistent.not_mem_waiters (consistent : Consistent line)
    (found : line.callers[id]? = some caller) (occupies : caller.occupies = true) :
    id ∉ line.waiters := by
  intro member
  rcases consistent.queued id member with queued | queued
  all_goals
    rw [found, Option.some.injEq] at queued
    simp [queued, Caller.occupies] at occupies

theorem Consistent.resume (consistent : Consistent line)
    (granted : line.callers[id]? = some (.queued .resolved)) : Consistent (line.resume id) := by
  have notIn := consistent.not_mem_waiters granted rfl
  exact consistent.update granted (by simp) (by simp) (by simp [Caller.occupies])
    (List.Sublist.refl _) (fun _ member _ => member) (fun member => absurd member notIn)
    (fun _ => Or.inl rfl) consistent.once (fun _ member => member) (fun _ member => Or.inr member)
    rfl

theorem Sound.resume (sound : Sound line) (granted : line.callers[id]? = some (.queued .resolved)) :
    Sound (line.resume id) :=
  ⟨sound.toConsistent.resume granted, sound.busy⟩

theorem Consistent.held_pos (consistent : Consistent line)
    (found : line.callers[id]? = some caller) (occupies : caller.occupies = true) :
    0 < line.held := by
  rw [consistent.count]
  exact List.countP_pos_iff.mpr ⟨caller, List.mem_of_getElem? found, occupies⟩

theorem Consistent.vacate (consistent : Consistent line)
    (found : line.callers[id]? = some caller) (occupies : caller.occupies = true) :
    Consistent { line with
      held := line.held - 1, callers := line.callers.set id .gone,
      returned := line.returned ++ [id] } := by
  have positive := consistent.held_pos found occupies
  have alive : caller ≠ .gone := by
    rintro rfl
    simp [Caller.occupies] at occupies
  have fresh : id ∉ line.returned := by
    intro member
    have gone := consistent.left id member
    rw [found, Option.some.injEq] at gone
    exact alive gone
  have notIn := consistent.not_mem_waiters found occupies
  refine consistent.update found alive (by simp) ?_ (List.Sublist.refl _)
    (fun _ member _ => member) (fun member => absurd member notIn) (fun _ => Or.inr ⟨rfl, by simp⟩)
    ?_ (fun _ member => List.mem_append_left _ member) ?_ ?_
  · simp only [occupies, if_true, gone_occupies, Bool.false_eq_true, if_false]
    omega
  · exact List.nodup_append.mpr ⟨consistent.once, List.nodup_singleton _, by
      rintro other member _ last rfl
      rw [List.mem_singleton.mp last] at member
      exact fresh member⟩
  · intro other member
    rcases List.mem_append.mp member with member | member
    · exact Or.inr member
    · exact Or.inl ⟨List.mem_singleton.mp member, rfl⟩
  · simp only [List.length_append, List.length_singleton]
    omega

theorem Consistent.giveBack (consistent : Consistent line)
    (found : line.callers[id]? = some caller) (occupies : caller.occupies = true) (limit : ℕ) :
    Sound (line.giveBack id limit) := by
  have vacated := consistent.vacate found occupies
  unfold Line.giveBack
  rw [if_pos (consistent.held_pos found occupies)]
  exact Consistent.wake { vacated with }

theorem Consistent.leave (consistent : Consistent line) {future : Future}
    (queued : line.callers[id]? = some (.queued future)) (ungranted : future ≠ .resolved) :
    Consistent { line with
      waiters := line.waiters.erase id, callers := line.callers.set id .gone } := by
  have idle : (Caller.queued future).occupies = false := by
    cases future with
    | resolved => exact absurd rfl ungranted
    | pending => rfl
    | cancelled => rfl
  refine consistent.update queued (by simp) (by simp) ?_ (List.erase_sublist)
    (fun other member different => (List.mem_erase_of_ne different).mpr member) ?_ ?_
    consistent.once (fun _ member => member) (fun _ member => Or.inr member) rfl
  · simp [idle]
  · intro member
    have distinct : line.waiters.Nodup := consistent.sorted.imp fun before => Nat.ne_of_lt before
    exact absurd member distinct.not_mem_erase
  · intro occupies
    simp [idle] at occupies

theorem Sound.abandon (sound : Sound line) {future : Future}
    (queued : line.callers[id]? = some (.queued future)) : Sound (line.abandon id) := by
  unfold Line.abandon
  split_ifs with granted
  · have notIn := sound.toConsistent.not_mem_waiters granted rfl
    rw [List.erase_of_not_mem notIn]
    exact sound.toConsistent.giveBack granted rfl _
  · have ungranted : future ≠ .resolved := by
      rintro rfl
      exact granted queued
    refine ⟨sound.toConsistent.leave queued ungranted, ?_⟩
    intro waits
    exact sound.busy fun nobody => waits (by simp [nobody])

section

variable (line : Line)

@[simp]
theorem giveBack_limit (id limit : ℕ) : (line.giveBack id limit).limit = limit := by
  simp [Line.giveBack]

@[simp]
theorem abandon_limit (id : ℕ) : (line.abandon id).limit = line.limit := by
  unfold Line.abandon
  split_ifs <;> simp

@[simp]
theorem interrupt_limit (id : ℕ) : (line.interrupt id).limit = line.limit := by
  unfold Line.interrupt
  split_ifs <;> rfl

@[simp]
theorem interrupt_held (id : ℕ) : (line.interrupt id).held = line.held := by
  unfold Line.interrupt
  split_ifs <;> rfl

@[simp]
theorem interrupt_takes (id : ℕ) : (line.interrupt id).takes = line.takes := by
  unfold Line.interrupt
  split_ifs <;> rfl

@[simp]
theorem giveBack_returned (id limit : ℕ) :
    (line.giveBack id limit).returned = line.returned ++ [id] :=
  wakeFrom_returned

@[simp]
theorem giveBack_length (id limit : ℕ) :
    (line.giveBack id limit).callers.length = line.callers.length := by
  unfold Line.giveBack Line.wake
  rw [wakeFrom_length]
  simp

@[simp]
theorem abandon_length (id : ℕ) : (line.abandon id).callers.length = line.callers.length := by
  unfold Line.abandon
  split_ifs <;> simp

@[simp]
theorem interrupt_length (id : ℕ) : (line.interrupt id).callers.length = line.callers.length := by
  unfold Line.interrupt
  split_ifs <;> simp

@[simp]
theorem withLimit_length (limit : ℕ) :
    (line.withLimit limit).callers.length = line.callers.length :=
  wakeFrom_length

end

variable {take : Take}

theorem withLimit_takes {limit : ℕ} (member : take ∈ (line.withLimit limit).takes) :
    take ∈ line.takes ∨ take.overflow = false := by
  rcases wakeFrom_takes member with earlier | normal
  · exact Or.inl earlier
  · exact Or.inr normal

theorem giveBack_takes {limit : ℕ} (member : take ∈ (line.giveBack id limit).takes) :
    take ∈ line.takes ∨ take.overflow = false := by
  rcases wakeFrom_takes member with earlier | normal
  · exact Or.inl earlier
  · exact Or.inr normal

theorem abandon_takes (member : take ∈ (line.abandon id).takes) :
    take ∈ line.takes ∨ take.overflow = false := by
  unfold Line.abandon at member
  split_ifs at member
  · rcases giveBack_takes member with earlier | normal
    · exact Or.inl earlier
    · exact Or.inr normal
  · exact Or.inl member

end Operations

end Line

end HybridInference.Library
