import HybridInference.Erasure.Fence

/-!
# What stays erased

A writer that passed the fence holds the shared locks of the accounts it names, so none
of them is erased before it ends; a purge holds the exclusive lock of its account, so no
row that names the account is committed behind it.
-/

namespace HybridInference.Erasure

open Library

variable {digest : String → Digest}

section Keys

variable {row : LogRow} {account : String} {key : Digest}

theorem mem_apiLogsFenceKeys : key ∈ apiLogsFenceKeys digest row ↔
    ∃ account, row.Names account ∧ digest account = key := by
  simp only [apiLogsFenceKeys, List.mem_insertionSort, List.mem_dedup, List.mem_append,
    Option.mem_toList, Option.map_eq_some_iff, Option.filter_eq_some_iff,
    Bool.and_eq_true, decide_eq_true_eq, LogRow.Names, LogRow.mentions, Bool.or_eq_true]
  constructor
  · rintro (⟨user, ⟨isUser, nonempty⟩, same⟩ | ⟨owner, ⟨isOwner, nonempty, -⟩, same⟩)
    · exact ⟨user, ⟨nonempty, Or.inl isUser⟩, same⟩
    · exact ⟨owner, ⟨nonempty, Or.inr isOwner⟩, same⟩
  · rintro ⟨account, ⟨nonempty, isUser | isOwner⟩, same⟩
    · exact Or.inl ⟨account, ⟨isUser, nonempty⟩, same⟩
    · by_cases isUser : row.userId = some account
      · exact Or.inl ⟨account, ⟨isUser, nonempty⟩, same⟩
      · exact Or.inr ⟨account, ⟨isOwner, nonempty, fun equal => isUser equal.symm⟩, same⟩

theorem apiLogsFenceKeys_sorted : (apiLogsFenceKeys digest row).Pairwise (· ≤ ·) :=
  List.pairwise_insertionSort _ _

end Keys

/-- No writer shares a fence with a delete, and no row names an erased account. -/
structure Fenced (digest : String → Digest) (store : FenceStore) : Prop where
  keys : ∀ writer ∈ store.writers, ∀ held wanted, writer.stage = .locking held wanted →
    held ++ wanted = apiLogsFenceKeys digest writer.row
  apart : ∀ writer ∈ store.writers, ∀ delete ∈ store.deletes, ∀ key,
    writer.holds digest key = true → delete.holds digest key = false
  passed : ∀ writer ∈ store.writers, (writer.stage = .inserting false ∨
    ∃ wrote, writer.stage = .finished false wrote) →
    ∀ account ∈ store.erased, ¬ writer.row.Names account
  suppressed : ∀ writer ∈ store.writers, (writer.stage = .inserting true ∨
    (∃ wrote, writer.stage = .finished true wrote) ∨ writer.stage = .committed true) →
    ∃ account ∈ store.erased, ∃ named, writer.row.Names named ∧ digest account = digest named
  unwritten : ∀ writer ∈ store.writers, writer.stage ≠ .finished true true
  tombstones : ∀ key, key ∈ store.tombstones ↔ ∃ account ∈ store.erased, digest account = key
  clean : ∀ row ∈ store.rows, ∀ account ∈ store.erased, ¬ row.Names account
  seen : ∀ delete ∈ store.deletes, ∀ rows, (delete.stage = .purging rows ∨
    delete.stage = .purged rows) → ∀ row ∈ store.rows, row.Names delete.account → row ∈ rows

section Steps

variable {store : FenceStore}

variable {account : String}

theorem holds_of_names {writer : Writer} (names : writer.row.Names account)
    (all : writer.held digest = apiLogsFenceKeys digest writer.row) :
    writer.holds digest (fenceAccountAdvisoryKey (digest account)) = true := by
  simp only [Writer.holds, all, List.any_eq_true, decide_eq_true_eq]
  exact ⟨digest account, mem_apiLogsFenceKeys.mpr ⟨account, names, rfl⟩, rfl⟩

variable {place : ℕ}

variable {row : LogRow}

theorem Fenced.moveWriter {next : WriterStage} (fenced : Fenced digest store)
    (keys : ∀ held wanted, next = .locking held wanted →
      held ++ wanted = apiLogsFenceKeys digest row)
    (apart : ∀ delete ∈ store.deletes, ∀ key, (Writer.mk row next).holds digest key = true →
      delete.holds digest key = false)
    (passed : (next = .inserting false ∨ ∃ wrote, next = .finished false wrote) →
      ∀ account ∈ store.erased, ¬ row.Names account)
    (suppressed : (next = .inserting true ∨ (∃ wrote, next = .finished true wrote) ∨
      next = .committed true) →
      ∃ account ∈ store.erased, ∃ named, row.Names named ∧ digest account = digest named)
    (unwritten : next ≠ .finished true true) :
    Fenced digest (store.setWriter place row next) := by
  have cases {writer : Writer} (member : writer ∈ (store.setWriter place row next).writers) :
      writer ∈ store.writers ∨ writer = ⟨row, next⟩ :=
    List.mem_or_eq_of_mem_set member
  refine ⟨?_, ?_, ?_, ?_, ?_, fenced.tombstones, fenced.clean, fenced.seen⟩
  · intro writer member
    rcases cases member with earlier | rfl
    · exact fenced.keys writer earlier
    · exact keys
  · intro writer member
    rcases cases member with earlier | rfl
    · exact fenced.apart writer earlier
    · exact apart
  · intro writer member
    rcases cases member with earlier | rfl
    · exact fenced.passed writer earlier
    · exact passed
  · intro writer member
    rcases cases member with earlier | rfl
    · exact fenced.suppressed writer earlier
    · exact suppressed
  · intro writer member
    rcases cases member with earlier | rfl
    · exact fenced.unwritten writer earlier
    · exact unwritten

theorem Fenced.moveDelete {next : DeleteStage} (fenced : Fenced digest store)
    (apart : ∀ writer ∈ store.writers, ∀ key, writer.holds digest key = true →
      (HardDelete.mk account next).holds digest key = false)
    (seen : ∀ rows, (next = .purging rows ∨ next = .purged rows) →
      ∀ row ∈ store.rows, row.Names account → row ∈ rows) :
    Fenced digest (store.setDelete place account next) := by
  have cases {delete : HardDelete}
      (member : delete ∈ (store.setDelete place account next).deletes) :
      delete ∈ store.deletes ∨ delete = ⟨account, next⟩ :=
    List.mem_or_eq_of_mem_set member
  refine ⟨fenced.keys, ?_, fenced.passed, fenced.suppressed, fenced.unwritten,
    fenced.tombstones, fenced.clean, ?_⟩
  · intro writer isWriter delete member
    rcases cases member with earlier | rfl
    · exact fenced.apart writer isWriter delete earlier
    · exact apart writer isWriter
  · intro delete member
    rcases cases member with earlier | rfl
    · exact fenced.seen delete earlier
    · exact seen

theorem Fenced.apart_of_held {writer other : Writer} (fenced : Fenced digest store)
    (member : writer ∈ store.writers)
    (fewer : ∀ key ∈ other.held digest, key ∈ writer.held digest) :
    ∀ delete ∈ store.deletes, ∀ key, other.holds digest key = true →
      delete.holds digest key = false := by
  intro delete isDelete key holds
  apply fenced.apart writer member delete isDelete key
  simp only [Writer.holds, List.any_eq_true, decide_eq_true_eq] at holds ⊢
  rcases holds with ⟨other, isHeld, same⟩
  exact ⟨other, fewer other isHeld, same⟩

theorem fenced_initial {rows : List LogRow} : Fenced digest { rows := rows } := by
  refine ⟨?_, ?_, ?_, ?_, ?_, ?_, ?_, ?_⟩ <;> simp

section

variable (fenced : Fenced digest store)

include fenced

theorem Fenced.beginWriter (row : LogRow) :
    Fenced digest { store with
      writers := store.writers ++ [⟨row, .locking [] (apiLogsFenceKeys digest row)⟩] } := by
  have cases {writer : Writer}
      (member : writer ∈ store.writers ++ [⟨row, .locking [] (apiLogsFenceKeys digest row)⟩]) :
      writer ∈ store.writers ∨ writer = ⟨row, .locking [] (apiLogsFenceKeys digest row)⟩ := by
    simpa using member
  refine ⟨?_, ?_, ?_, ?_, ?_, fenced.tombstones, fenced.clean, fenced.seen⟩
  · intro writer member
    rcases cases member with earlier | rfl
    · exact fenced.keys writer earlier
    · rintro held wanted same
      simp only [WriterStage.locking.injEq] at same
      rw [← same.1, ← same.2]
      rfl
  · intro writer member
    rcases cases member with earlier | rfl
    · exact fenced.apart writer earlier
    · intro delete _ key holds
      simp [Writer.holds, Writer.held] at holds
  · intro writer member
    rcases cases member with earlier | rfl
    · exact fenced.passed writer earlier
    · simp
  · intro writer member
    rcases cases member with earlier | rfl
    · exact fenced.suppressed writer earlier
    · simp
  · intro writer member
    rcases cases member with earlier | rfl
    · exact fenced.unwritten writer earlier
    · simp

theorem Fenced.lockShared {held wanted : List Digest} {next : Digest}
    (found : store.writers[place]? = some ⟨row, .locking held (next :: wanted)⟩)
    (free : ∀ delete ∈ store.deletes, delete.holds digest (fenceAccountAdvisoryKey next) = false) :
    Fenced digest (store.setWriter place row (.locking (held ++ [next]) wanted)) := by
  have member := List.mem_of_getElem? found
  refine fenced.moveWriter ?_ ?_ (by simp) (by simp) (by simp)
  · intro heldNow wantedNow same
    simp only [WriterStage.locking.injEq] at same
    rw [← same.1, ← same.2, List.append_assoc, List.singleton_append]
    exact fenced.keys _ member held (next :: wanted) rfl
  · intro delete isDelete key holds
    simp only [Writer.holds, Writer.held, List.any_append, Bool.or_eq_true, List.any_cons,
      List.any_nil, Bool.or_false, decide_eq_true_eq] at holds
    rcases holds with earlier | rfl
    · exact fenced.apart _ member delete isDelete key earlier
    · exact free delete isDelete

theorem Fenced.beginInsert {held : List Digest}
    (found : store.writers[place]? = some ⟨row, .locking held []⟩) :
    Fenced digest (store.setWriter place row (.inserting
        (held.any fun key => store.tombstones.any fun tombstone => tombstone = key))) := by
  have member := List.mem_of_getElem? found
  have all : held = apiLogsFenceKeys digest row := by
    have split := fenced.keys _ member held [] rfl
    rwa [List.append_nil] at split
  have hits : (held.any fun key => store.tombstones.any fun tombstone => tombstone = key) = true ↔
      ∃ account ∈ store.erased, ∃ named, row.Names named ∧ digest account = digest named := by
    simp only [List.any_eq_true, decide_eq_true_eq, all, mem_apiLogsFenceKeys, fenced.tombstones]
    constructor
    · rintro ⟨key, ⟨named, names, sameNamed⟩, tombstone, ⟨account, isErased, sameErased⟩, same⟩
      exact ⟨account, isErased, named, names, by rw [sameErased, same, sameNamed]⟩
    · rintro ⟨account, isErased, named, names, same⟩
      exact ⟨_, ⟨named, names, rfl⟩, _, ⟨account, isErased, rfl⟩, same⟩
  refine fenced.moveWriter (by simp) ?_ ?_ ?_ (by simp)
  · apply fenced.apart_of_held member
    intro key isHeld
    rw [Writer.held] at isHeld ⊢
    exact all ▸ isHeld
  · rintro (missed | ⟨wrote, ended⟩) account isErased names
    · rw [hits.mpr ⟨account, isErased, account, names, rfl⟩] at missed
      cases missed
    · cases ended
  · rintro (hit | ⟨wrote, ended⟩ | ended)
    · simp only [WriterStage.inserting.injEq] at hit
      exact hits.mp hit
    · cases ended
    · cases ended

theorem Fenced.insert {hit wrote : Bool}
    (found : store.writers[place]? = some ⟨row, .inserting hit⟩)
    (nothing : hit = true → wrote = false) :
    Fenced digest (store.setWriter place row (.finished hit wrote)) := by
  have member := List.mem_of_getElem? found
  refine fenced.moveWriter (by simp) ?_ ?_ ?_ ?_
  · apply fenced.apart_of_held member
    intro key isHeld
    exact isHeld
  · rintro (unfinished | ⟨_, ended⟩)
    · cases unfinished
    · simp only [WriterStage.finished.injEq] at ended
      exact fenced.passed _ member (Or.inl (by rw [ended.1]))
  · rintro (unfinished | ⟨_, ended⟩ | gone)
    · cases unfinished
    · simp only [WriterStage.finished.injEq] at ended
      exact fenced.suppressed _ member (Or.inl (by rw [ended.1]))
    · cases gone
  · intro ended
    simp only [WriterStage.finished.injEq] at ended
    rw [nothing ended.1] at ended
    cases ended.2

theorem Fenced.endWriter {stage next : WriterStage}
    (found : store.writers[place]? = some ⟨row, stage⟩)
    (ended : next = .rolledBack ∨ ∃ told wrote, stage = .finished told wrote ∧
      next = .committed told) :
    Fenced digest (store.setWriter place row next) := by
  have member := List.mem_of_getElem? found
  refine fenced.moveWriter ?_ ?_ ?_ ?_ ?_
  · rintro held wanted rfl
    rcases ended with ended | ⟨_, _, -, ended⟩ <;> cases ended
  · rcases ended with rfl | ⟨_, _, -, rfl⟩ <;> simp [Writer.holds, Writer.held]
  · rcases ended with rfl | ⟨_, _, -, rfl⟩ <;> simp
  · rcases ended with rfl | ⟨told, wrote, rfl, rfl⟩
    · simp
    · simp only [reduceCtorEq, exists_false, false_or, WriterStage.committed.injEq]
      rintro rfl
      exact fenced.suppressed _ member (Or.inr (Or.inl ⟨wrote, rfl⟩))
  · rcases ended with rfl | ⟨_, _, -, rfl⟩ <;> simp

theorem Fenced.commitRow {wrote : Bool}
    (found : store.writers[place]? = some ⟨row, .finished false wrote⟩) :
    Fenced digest { store.setWriter place row (.committed false) with
      rows := store.rows ++ [row] } := by
  have member := List.mem_of_getElem? found
  have ended : Fenced digest (store.setWriter place row (.committed false)) :=
    fenced.endWriter found (Or.inr ⟨false, wrote, rfl, rfl⟩)
  refine ⟨ended.keys, ended.apart, ended.passed, ended.suppressed, ended.unwritten,
    ended.tombstones, ?_, ?_⟩
  · intro other otherMember account isErased
    rcases List.mem_append.mp otherMember with earlier | isRow
    · exact fenced.clean other earlier account isErased
    · rw [List.mem_singleton.mp isRow]
      exact fenced.passed _ member (Or.inr ⟨wrote, rfl⟩) account isErased
  · intro delete isDelete rows purging other otherMember names
    rcases List.mem_append.mp otherMember with earlier | isRow
    · exact fenced.seen delete isDelete rows purging other earlier names
    · rw [List.mem_singleton.mp isRow] at names
      have free := fenced.apart _ member delete isDelete _ (holds_of_names names rfl)
      rcases purging with purging | purging <;> simp [HardDelete.holds, purging] at free

theorem Fenced.beginDelete (account : String) :
    Fenced digest { store with deletes := store.deletes ++ [⟨account, .waiting⟩] } := by
  have cases {delete : HardDelete} (member : delete ∈ store.deletes ++ [⟨account, .waiting⟩]) :
      delete ∈ store.deletes ∨ delete = ⟨account, .waiting⟩ := by
    simpa using member
  refine ⟨fenced.keys, ?_, fenced.passed, fenced.suppressed, fenced.unwritten,
    fenced.tombstones, fenced.clean, ?_⟩
  · intro writer isWriter delete member
    rcases cases member with earlier | rfl
    · exact fenced.apart writer isWriter delete earlier
    · exact fun _ _ => rfl
  · intro delete member
    rcases cases member with earlier | rfl
    · exact fenced.seen delete earlier
    · simp

theorem Fenced.lockExclusive (free : ∀ writer ∈ store.writers,
      writer.holds digest (fenceAccountAdvisoryKey (digest account)) = false) :
    Fenced digest (store.setDelete place account .locked) := by
  refine fenced.moveDelete ?_ (by simp)
  intro writer isWriter key holds
  simp only [HardDelete.holds, decide_eq_false_iff_not]
  rintro rfl
  rw [free writer isWriter] at holds
  cases holds

theorem Fenced.continueDelete {stage next : DeleteStage}
    (found : store.deletes[place]? = some ⟨account, stage⟩)
    (locked : ∀ key, (HardDelete.mk account next).holds digest key = true →
      (HardDelete.mk account stage).holds digest key = true)
    (seen : ∀ rows, (next = .purging rows ∨ next = .purged rows) →
      ∀ row ∈ store.rows, row.Names account → row ∈ rows) :
    Fenced digest (store.setDelete place account next) := by
  refine fenced.moveDelete ?_ seen
  intro writer isWriter key holds
  have free := fenced.apart writer isWriter _ (List.mem_of_getElem? found) key holds
  by_contra holdsNow
  rw [locked key (Bool.not_eq_false _ ▸ holdsNow)] at free
  cases free

theorem Fenced.beginPurge (found : store.deletes[place]? = some ⟨account, .tombstoned⟩) :
    Fenced digest (store.setDelete place account
      (.purging (store.rows.filter fun row => row.mentions account))) := by
  refine fenced.continueDelete found (fun _ holds => holds) ?_
  rintro rows (same | same) row isRow names
  · simp only [DeleteStage.purging.injEq] at same
    rw [← same]
    exact List.mem_filter.mpr ⟨isRow, names.2⟩
  · cases same

theorem Fenced.commitDelete {seen : List LogRow}
    (found : store.deletes[place]? = some ⟨account, .purged seen⟩) :
    Fenced digest { store.setDelete place account .committed with
      rows := store.rows.filter fun row => row ∉ seen
      tombstones :=
        if digest account ∈ store.tombstones then store.tombstones
        else store.tombstones ++ [digest account]
      erased := store.erased ++ [account] } := by
  have isDelete := List.mem_of_getElem? found
  have ended : Fenced digest (store.setDelete place account .committed) :=
    fenced.moveDelete (fun _ _ _ _ => rfl) (by simp)
  refine ⟨ended.keys, ended.apart, ?_, ?_, ended.unwritten, ?_, ?_, ?_⟩
  · intro writer isWriter passed other isErased names
    rcases List.mem_append.mp isErased with earlier | isAccount
    · exact fenced.passed writer isWriter passed other earlier names
    · rw [List.mem_singleton.mp isAccount] at names
      have all : writer.held digest = apiLogsFenceKeys digest writer.row := by
        rcases passed with stage | ⟨_, stage⟩ <;> simp [Writer.held, stage]
      have free := fenced.apart writer isWriter _ isDelete _ (holds_of_names names all)
      simp [HardDelete.holds] at free
  · intro writer isWriter suppressed
    rcases fenced.suppressed writer isWriter suppressed with ⟨other, isErased, named⟩
    exact ⟨other, List.mem_append_left _ isErased, named⟩
  · intro key
    have earlier := fenced.tombstones key
    simp only [List.mem_append, List.mem_singleton, or_and_right, exists_or, exists_eq_left]
    split_ifs with already
    · rw [earlier]
      refine ⟨Or.inl, ?_⟩
      rintro (there | rfl)
      · exact there
      · exact (fenced.tombstones _).mp already
    · rw [List.mem_append, List.mem_singleton, earlier, eq_comm]
  · intro row isRow other isErased names
    simp only [List.mem_filter, decide_eq_true_eq] at isRow
    rcases List.mem_append.mp isErased with earlier | isAccount
    · exact fenced.clean row isRow.1 other earlier names
    · rw [List.mem_singleton.mp isAccount] at names
      exact isRow.2 (fenced.seen _ isDelete seen (Or.inr rfl) row isRow.1 names)
  · intro delete member rows purging row isRow names
    exact ended.seen delete member rows purging row (List.mem_filter.mp isRow).1 names

/-- One step of a writer or a delete keeps the fence. -/
theorem Fenced.step {event : FenceEvent} {next : FenceStore}
    (stepped : (FenceStore.machine digest).step store event = some next) :
    Fenced digest next := by
  cases event <;> simp only [FenceStore.machine, FenceStore.step] at stepped
  case beginWriter row =>
    cases stepped
    exact fenced.beginWriter row
  case lockShared place =>
    split at stepped
    next row held key wanted found =>
        split_ifs at stepped with taken
        cases stepped
        simp only [List.any_eq_true, not_exists, not_and, Bool.not_eq_true] at taken
        exact fenced.lockShared found taken
    next => cases stepped
  case beginInsert place =>
    split at stepped <;> cases stepped
    next row held found => exact fenced.beginInsert found
  case insert place =>
    split at stepped
    next row found =>
        cases stepped
        exact fenced.insert found fun _ => rfl
    next row found =>
        split_ifs at stepped
        cases stepped
        exact fenced.insert found fun isHit => by cases isHit
    next => cases stepped
  case commitWriter place =>
    split at stepped <;> cases stepped
    next row told wrote found =>
        have ended : Fenced digest (store.setWriter place row (.committed told)) :=
          fenced.endWriter found (Or.inr ⟨told, wrote, rfl, rfl⟩)
        cases wrote with
        | false => exact ended
        | true =>
          cases told with
          | false => exact fenced.commitRow found
          | true => exact absurd rfl (fenced.unwritten _ (List.mem_of_getElem? found))
  case rollbackWriter place =>
    split at stepped <;> cases stepped
    next row stage found => exact fenced.endWriter found (Or.inl rfl)
  case beginDelete account =>
    cases stepped
    exact fenced.beginDelete account
  case lockExclusive place =>
    split at stepped
    next account found =>
        split_ifs at stepped with taken
        cases stepped
        simp only [Bool.or_eq_true, not_or, List.any_eq_true, not_exists, not_and,
          Bool.not_eq_true] at taken
        exact fenced.lockExclusive taken.1
    next => cases stepped
  case establishFence place =>
    split at stepped <;> cases stepped
    next account found => exact fenced.continueDelete found (fun _ holds => holds) (by simp)
  case beginPurge place =>
    split at stepped <;> cases stepped
    next account found => exact fenced.beginPurge found
  case purge place =>
    split at stepped <;> cases stepped
    next account seen found =>
        refine fenced.continueDelete found (fun _ holds => holds) ?_
        rintro rows (same | same)
        · cases same
        · simp only [DeleteStage.purged.injEq] at same
          exact same ▸ fenced.seen _ (List.mem_of_getElem? found) seen (Or.inl rfl)
  case commitDelete place =>
    split at stepped <;> cases stepped
    next account seen found => exact fenced.commitDelete found
  case rollbackDelete place =>
    split at stepped <;> cases stepped
    next account stage found =>
        exact fenced.continueDelete found (fun _ holds => by cases holds) (by simp)

end

end Steps

end HybridInference.Erasure
