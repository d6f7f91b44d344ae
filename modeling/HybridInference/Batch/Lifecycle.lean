import HybridInference.Batch.Store
import HybridInference.Library.ListUpdate

/-!
# The life of a batch

What a batch is for its owner: its phase, its status, its counters and the
statuses of its items. The moves below are the only ways in which these change: the transactions
of the store are chains of moves. A single move closes or hands over one item.
-/

namespace HybridInference.Batch

open Library

def BatchStatus.terminal (status : BatchStatus) : Bool :=
  status = .completed || status = .failed || status = .expired || status = .cancelled

structure Standing where
  apiSurface : Surface
  phase : Phase
  status : BatchStatus
  pendingTerminalStatus : Option BatchStatus
  requestCount : ℕ
  completedCount : ℕ
  failedCount : ℕ
  cancelledCount : ℕ
  expiredCount : ℕ
  statuses : List ItemStatus

namespace Standing

/-- The counters once `number` more items have ended as `outcome`; an item that
is open again is counted nowhere. -/
def bump (standing : Standing) (outcome : ItemStatus) (number : ℕ) : Standing :=
  match outcome with
  | .queued | .running => standing
  | .completed => { standing with completedCount := standing.completedCount + number }
  | .failed => { standing with failedCount := standing.failedCount + number }
  | .cancelled => { standing with cancelledCount := standing.cancelledCount + number }
  | .expired =>
    { standing with
      failedCount := standing.failedCount + number
      expiredCount := standing.expiredCount + number }

/-- The counters and statuses once the item at `index` has moved to `outcome`. -/
def moveItem (standing : Standing) (index : ℕ) (outcome : ItemStatus) : Standing :=
  { standing.bump outcome 1 with statuses := standing.statuses.set index outcome }

def noneOpen (standing : Standing) : Prop :=
  ∀ status ∈ standing.statuses, status.isOpen = false

inductive Move (standing : Standing) : Standing → Prop
  | stage (number : ℕ) (validating : standing.phase = .validating) :
      Move standing
        { standing with
          requestCount := standing.requestCount + number
          statuses := standing.statuses ++ List.replicate number .queued }
  | reset (validating : standing.phase = .validating) :
      Move standing { standing with requestCount := 0, statuses := [] }
  | publish (validating : standing.phase = .validating)
      (unstopped : standing.status = .validating) :
      Move standing { standing with phase := .runnable, status := .inProgress }
  | reject (validating : standing.phase = .validating) :
      Move standing
        { standing with
          requestCount := 0
          completedCount := 0
          failedCount := 0
          cancelledCount := 0
          expiredCount := 0
          phase := .runnable
          statuses := [] }
  | item (index : ℕ) (old outcome : ItemStatus) (found : standing.statuses[index]? = some old)
      (opened : old.isOpen = true) (started : standing.phase ≠ .validating) :
      Move standing (standing.moveItem index outcome)
  | advance (status : BatchStatus) (unfinished : standing.status.terminal = false)
      (unsealed : standing.phase = .validating ∨ standing.phase = .runnable)
      (next : status ≠ .completed ∧ status ≠ .cancelled) :
      Move standing { standing with status := status }
  | finalizeFile (final : BatchStatus) (file : standing.apiSurface = .openaiFile)
      (runnable : standing.phase = .runnable) (closed : standing.noneOpen)
      (fixed : standing.status.terminal = true → final = standing.status) :
      Move standing { standing with phase := .sealing, pendingTerminalStatus := some final }
  | finalizeNow (final : BatchStatus) (inline : standing.apiSurface ≠ .openaiFile)
      (runnable : standing.phase = .runnable) (closed : standing.noneOpen)
      (fixed : standing.status.terminal = true → final = standing.status) :
      Move standing
        { standing with
          status := final, phase := .sealed, pendingTerminalStatus := some final }
  | commitSeal (sealing : standing.phase = .sealing) :
      Move standing
        { standing with
          phase := .sealed
          status := standing.pendingTerminalStatus.getD .completed }

abbrev Reaches : Standing → Standing → Prop :=
  Relation.ReflTransGen Move

structure Counted (standing : Standing) : Prop where
  requests : standing.requestCount = standing.statuses.length
  completed : standing.completedCount = standing.statuses.countP (· = .completed)
  cancelled : standing.cancelledCount = standing.statuses.countP (· = .cancelled)
  expired : standing.expiredCount = standing.statuses.countP (· = .expired)
  failed : standing.failedCount =
    standing.statuses.countP (· = .failed) + standing.statuses.countP (· = .expired)

/-- What holds of a batch in every phase. -/
structure Lawful (standing : Standing) : Prop where
  counted : standing.Counted
  staged : standing.phase = .validating → ∀ status ∈ standing.statuses, status = .queued
  undecided : standing.phase = .validating →
    standing.status ≠ .completed ∧ standing.status ≠ .cancelled
  closed : standing.phase = .sealing ∨ standing.phase = .sealed → standing.noneOpen
  fixed : standing.phase = .sealing → standing.status.terminal = true →
    standing.pendingTerminalStatus = some standing.status

inductive PhaseMove (surface : Surface) : Phase → Phase → Prop
  | publish : PhaseMove surface .validating .runnable
  | finalizeFile (file : surface = .openaiFile) : PhaseMove surface .runnable .sealing
  | finalizeNow (inline : surface ≠ .openaiFile) : PhaseMove surface .runnable .sealed
  | commitSeal : PhaseMove surface .sealing .sealed

structure Follows (earlier later : Standing) : Prop where
  surface : later.apiSurface = earlier.apiSurface
  phase : Relation.ReflTransGen (PhaseMove earlier.apiSurface) earlier.phase later.phase
  sealed : earlier.phase = .sealed →
    later.status = earlier.status ∧ later.statuses = earlier.statuses
  terminal : earlier.status.terminal = true → later.status = earlier.status

section

variable (standing : Standing) (index : ℕ) (outcome : ItemStatus)

include standing index outcome

theorem moveItem_phase : (standing.moveItem index outcome).phase = standing.phase := by
  cases outcome <;> rfl

theorem moveItem_status : (standing.moveItem index outcome).status = standing.status := by
  cases outcome <;> rfl

theorem moveItem_apiSurface :
    (standing.moveItem index outcome).apiSurface = standing.apiSurface := by
  cases outcome <;> rfl

theorem moveItem_pending : (standing.moveItem index outcome).pendingTerminalStatus =
      standing.pendingTerminalStatus := by
  cases outcome <;> rfl

end

variable {standing : Standing} {old : ItemStatus} {index : ℕ}

theorem not_open_of_found
    (closed : standing.noneOpen) (found : standing.statuses[index]? = some old) :
    old.isOpen = false :=
  closed old (List.mem_of_getElem? found)

theorem countP_moveItem (outcome status : ItemStatus) (found : standing.statuses[index]? = some old)
    (opened : old.isOpen = true) (ended : status.isOpen = false) :
    (standing.statuses.set index outcome).countP (· = status) =
      standing.statuses.countP (· = status) + if outcome = status then 1 else 0 := by
  have moved := countP_set_of_some (fun other => decide (other = status)) outcome found
  have uncounted : old ≠ status := by
    rintro rfl
    rw [opened] at ended
    cases ended
  simpa [uncounted] using moved

theorem Counted.moveItem (counted : standing.Counted) (outcome : ItemStatus)
    (found : standing.statuses[index]? = some old) (opened : old.isOpen = true) :
    (standing.moveItem index outcome).Counted := by
  have completed := countP_moveItem outcome .completed found opened rfl
  have cancelled := countP_moveItem outcome .cancelled found opened rfl
  have expired := countP_moveItem outcome .expired found opened rfl
  have failed := countP_moveItem outcome .failed found opened rfl
  rcases counted with ⟨requests, wasCompleted, wasCancelled, wasExpired, wasFailed⟩
  refine ⟨?_, ?_, ?_, ?_, ?_⟩
  · cases outcome <;> simp [Standing.moveItem, bump, requests]
  · simp only [Standing.moveItem, completed]
    cases outcome <;> simp [bump, wasCompleted]
  · simp only [Standing.moveItem, cancelled]
    cases outcome <;> simp [bump, wasCancelled]
  · simp only [Standing.moveItem, expired]
    cases outcome <;> simp [bump, wasExpired]
  · simp only [Standing.moveItem, failed, expired]
    cases outcome <;> simp [bump, wasFailed] <;> omega

theorem Counted.of_cleared (empty : standing.statuses = [])
    (requests : standing.requestCount = 0) (completed : standing.completedCount = 0)
    (failed : standing.failedCount = 0) (cancelled : standing.cancelledCount = 0)
    (expired : standing.expiredCount = 0) : standing.Counted := by
  constructor <;> simp [empty, requests, completed, failed, cancelled, expired]

theorem Counted.zero_of_queued (counted : standing.Counted)
    (queued : ∀ status ∈ standing.statuses, status = .queued) :
    standing.completedCount = 0 ∧ standing.failedCount = 0 ∧ standing.cancelledCount = 0 ∧
      standing.expiredCount = 0 := by
  have nowhere (status : ItemStatus) (ended : status ≠ .queued) :
      standing.statuses.countP (· = status) = 0 := by
    apply List.countP_eq_zero.mpr
    intro other member same
    exact ended ((of_decide_eq_true same).symm.trans (queued other member))
  rcases counted with ⟨-, completed, cancelled, expired, failed⟩
  rw [nowhere _ (by simp)] at completed cancelled expired
  rw [nowhere _ (by simp), nowhere _ (by simp)] at failed
  exact ⟨completed, failed, cancelled, expired⟩

variable {before after : Standing}

/-- One move keeps the laws. -/
theorem Move.lawful (move : Move before after) (lawful : before.Lawful) : after.Lawful := by
  rcases lawful with ⟨counted, staged, undecided, closed, fixed⟩
  cases move with
  | stage number validating =>
    rcases counted with ⟨requests, completed, cancelled, expired, failed⟩
    refine ⟨⟨?_, ?_, ?_, ?_, ?_⟩, ?_, undecided, ?_, ?_⟩
    · simp [requests]
    · simp [completed, List.countP_replicate]
    · simp [cancelled, List.countP_replicate]
    · simp [expired, List.countP_replicate]
    · simp [failed, List.countP_replicate]
    · intro _ status member
      rcases List.mem_append.mp member with old | new
      · exact staged validating status old
      · exact List.eq_of_mem_replicate new
    · simp [validating]
    · simp [validating]
  | reset validating =>
    rcases counted.zero_of_queued (staged validating) with
      ⟨completed, failed, cancelled, expired⟩
    refine ⟨.of_cleared rfl rfl completed failed cancelled expired, ?_, undecided, ?_, ?_⟩
    · simp
    · simp [noneOpen]
    · simp [validating]
  | publish validating unstopped =>
    refine ⟨⟨counted.1, counted.2, counted.3, counted.4, counted.5⟩, ?_, ?_, ?_, ?_⟩ <;> simp
  | reject validating =>
    refine ⟨.of_cleared rfl rfl rfl rfl rfl rfl, ?_, ?_, ?_, ?_⟩ <;> simp
  | item index old outcome found opened started =>
    refine ⟨counted.moveItem outcome found opened, ?_, ?_, ?_, ?_⟩
    · rw [moveItem_phase]
      exact fun validating => absurd validating started
    · rw [moveItem_phase]
      exact fun validating => absurd validating started
    · rw [moveItem_phase]
      intro fixedPhase
      have shut := not_open_of_found (closed fixedPhase) found
      rw [opened] at shut
      cases shut
    · rw [moveItem_phase, moveItem_status, moveItem_pending]
      exact fixed
  | advance status unfinished unsealed next =>
    refine ⟨⟨counted.1, counted.2, counted.3, counted.4, counted.5⟩, staged, fun _ => next, closed,
      ?_⟩
    intro sealing
    rcases unsealed with phase | phase <;> simp [phase] at sealing
  | finalizeFile final file runnable shut decided =>
    refine ⟨⟨counted.1, counted.2, counted.3, counted.4, counted.5⟩, ?_, ?_, fun _ => shut, ?_⟩
    · simp
    · simp
    · intro _ ended
      exact congrArg some (decided ended)
  | finalizeNow final inline runnable shut decided =>
    refine ⟨⟨counted.1, counted.2, counted.3, counted.4, counted.5⟩, ?_, ?_, fun _ => shut, ?_⟩ <;>
      simp
  | commitSeal sealing =>
    refine ⟨⟨counted.1, counted.2, counted.3, counted.4, counted.5⟩, ?_, ?_,
      fun _ => closed (Or.inl sealing), ?_⟩ <;> simp

theorem Follows.refl (standing : Standing) : Follows standing standing :=
  ⟨rfl, .refl, fun _ => ⟨rfl, rfl⟩, fun _ => rfl⟩

theorem sealed_is_last {surface : Surface} {phase : Phase}
    (moved : Relation.ReflTransGen (PhaseMove surface) .sealed phase) : phase = .sealed := by
  rcases Relation.ReflTransGen.cases_head moved with same | ⟨next, move, -⟩
  · exact same.symm
  · cases move

theorem Follows.trans {first second third : Standing} (earlier : Follows first second)
    (later : Follows second third) : Follows first third := by
  refine ⟨later.surface.trans earlier.surface, ?_, ?_, ?_⟩
  · exact earlier.phase.trans (earlier.surface ▸ later.phase)
  · intro sealed
    have stillSealed : second.phase = .sealed := sealed_is_last (sealed ▸ earlier.phase)
    rcases earlier.sealed sealed with ⟨status, statuses⟩
    rcases later.sealed stillSealed with ⟨laterStatus, laterStatuses⟩
    exact ⟨laterStatus.trans status, laterStatuses.trans statuses⟩
  · intro terminal
    have status := earlier.terminal terminal
    exact (later.terminal (status ▸ terminal)).trans status

theorem Move.follows (move : Move before after)
    (lawful : before.Lawful) : Follows before after := by
  cases move with
  | stage number validating | reset validating =>
    exact ⟨rfl, .refl, by simp [validating], fun _ => rfl⟩
  | publish validating unstopped =>
    refine ⟨rfl, ?_, by simp [validating], ?_⟩
    · rw [validating]
      exact .single .publish
    · simp [unstopped, BatchStatus.terminal]
  | reject validating =>
    refine ⟨rfl, ?_, by simp [validating], fun _ => rfl⟩
    rw [validating]
    exact .single .publish
  | item index old outcome found opened started =>
    refine ⟨moveItem_apiSurface before index outcome, ?_, ?_, ?_⟩
    · rw [moveItem_phase]
    · intro sealed
      have shut := not_open_of_found (lawful.closed (Or.inr sealed)) found
      rw [opened] at shut
      cases shut
    · intro _
      exact moveItem_status before index outcome
  | advance status unfinished unsealed next =>
    refine ⟨rfl, .refl, ?_, ?_⟩
    · intro sealed
      rcases unsealed with phase | phase <;> simp [phase] at sealed
    · simp [unfinished]
  | finalizeFile final file runnable shut decided =>
    refine ⟨rfl, ?_, by simp [runnable], fun _ => rfl⟩
    rw [runnable]
    exact .single (.finalizeFile file)
  | finalizeNow final inline runnable shut decided =>
    refine ⟨rfl, ?_, by simp [runnable], decided⟩
    rw [runnable]
    exact .single (.finalizeNow inline)
  | commitSeal sealing =>
    refine ⟨rfl, ?_, by simp [sealing], ?_⟩
    · rw [sealing]
      exact .single .commitSeal
    · intro ended
      simp [lawful.fixed sealing ended]

/-- Every run keeps the laws and never goes back. -/
theorem Reaches.lawful_follows (reached : Reaches before after)
    (lawful : before.Lawful) : after.Lawful ∧ Follows before after := by
  induction reached with
  | refl =>
    exact ⟨lawful, Follows.refl before⟩
  | tail _ move ih =>
    exact ⟨move.lawful ih.1, ih.2.trans (move.follows ih.1)⟩

theorem reaches_moveChosen (outcome : ItemStatus) (entries : List (ItemStatus × Bool))
    (chosenOpen : ∀ entry ∈ entries, entry.2 = true → entry.1.isOpen = true)
    (done : List ItemStatus) (standing : Standing) (started : standing.phase ≠ .validating)
    (listed : standing.statuses = done ++ entries.map Prod.fst) :
    Reaches standing
      { standing.bump outcome (entries.countP Prod.snd) with
        statuses := done ++ entries.map fun entry => if entry.2 then outcome else entry.1 } := by
  induction entries generalizing done standing with
  | nil =>
    have same : { standing.bump outcome 0 with statuses := done } = standing := by
      rcases standing with ⟨_, _, _, _, _, _, _, _, _, statuses⟩
      simp only [List.map_nil, List.append_nil] at listed
      cases outcome <;> simp [bump, listed]
    simpa [same] using Relation.ReflTransGen.refl
  | cons entry rest ih =>
    have restOpen : ∀ other ∈ rest, other.2 = true → other.1.isOpen = true :=
      fun other member => chosenOpen other (List.mem_cons_of_mem _ member)
    rcases entry with ⟨old, chosen⟩
    cases chosen with
    | false =>
      have reached := ih restOpen (done ++ [old]) standing started (by simp [listed])
      simpa using reached
    | true =>
      have found : standing.statuses[done.length]? = some old := by simp [listed]
      have opened : old.isOpen = true := chosenOpen (old, true) List.mem_cons_self rfl
      have moved : Move standing (standing.moveItem done.length outcome) :=
        .item done.length old outcome found opened started
      have reached := ih restOpen (done ++ [outcome]) (standing.moveItem done.length outcome)
        (by rwa [moveItem_phase]) (by simp [moveItem, listed])
      refine .head moved ?_
      have counted : ∀ number, ((standing.moveItem done.length outcome).bump outcome number) =
          { standing.bump outcome (number + 1) with
            statuses := standing.statuses.set done.length outcome } := by
        intro number
        cases outcome <;> simp [moveItem, bump, Nat.add_assoc, Nat.add_comm 1]
      rw [counted] at reached
      simpa using reached

end Standing

end HybridInference.Batch
