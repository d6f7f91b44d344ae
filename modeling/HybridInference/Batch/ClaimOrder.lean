import HybridInference.Batch.Transactions
import HybridInference.Library.RoundRobin
import Mathlib.Data.Prod.Lex
import Mathlib.Data.String.Basic

/-!
# The candidates of a claim

`_CLAIM_CANDIDATES_SQL` as a function of the tables it reads: the claimable
items of every claimable batch that holds the model, numbered within their
batch, then within their user with the batches interleaved, and taken by these
numbers. Both numberings are cut off at the room of the claim, the first for
each batch and the second over all.

Texts are compared by code points. The query's last sort key, the id of the
item, is never reached: the position within its user and the user name an item.
-/

namespace HybridInference.Batch

open Library

/-- A row of `batch_jobs` with what a claim reads of it. -/
structure QueuedBatch where
  id : String
  user : String
  modelIds : List String
  createdAt : ℚ
  claimSeq : Option ℕ
  batch : StoredBatch

/-- The batches, and the `batch_user_state` of their users. -/
structure ClaimTables where
  rows : List QueuedBatch
  userSeqs : String → Option ℕ

structure Offer where
  row : ℕ
  item : ℕ
  user : String
  userSeq : Option ℕ
  batchId : String
  claimSeq : Option ℕ
  createdAt : ℚ
  deriving DecidableEq

def nullsFirst (seq : Option ℕ) : WithBot ℕ :=
  seq.elim ⊥ fun number => (number : WithBot ℕ)

/-- The order of a user's items: `batch_pos, claim_seq, created_at, batch_id`. -/
def Offer.userKey (entry : Offer × ℕ) : ℕ ×ₗ WithBot ℕ ×ₗ ℚ ×ₗ String :=
  toLex (entry.2, toLex (nullsFirst entry.1.claimSeq, toLex (entry.1.createdAt, entry.1.batchId)))

/-- The order of the candidates: `user_pos, user_seq, user_id, batch_pos`. -/
def Offer.turnKey (entry : (Offer × ℕ) × ℕ) : ℕ ×ₗ WithBot ℕ ×ₗ String ×ₗ ℕ :=
  toLex (entry.2, toLex (nullsFirst entry.1.1.userSeq, toLex (entry.1.1.user, entry.1.2)))

namespace ClaimTables

def batchOffers (tables : ClaimTables) (model : String) (now : ℚ) (entry : QueuedBatch × ℕ) :
    List Offer :=
  if entry.1.batch.job.claimable now && entry.1.modelIds.contains model then
    (entry.1.batch.items.zipIdx.filter fun item =>
      item.1.modelId = model && item.1.claimable now).map fun item =>
        { row := entry.2
          item := item.2
          user := entry.1.user
          userSeq := tables.userSeqs entry.1.user
          batchId := entry.1.id
          claimSeq := entry.1.claimSeq
          createdAt := entry.1.createdAt }
  else []

def offers (tables : ClaimTables) (model : String) (now : ℚ) : List Offer :=
  tables.rows.zipIdx.flatMap (tables.batchOffers model now)

/-- The items the query numbers: at most `room` of each batch. -/
def limitedOffers (tables : ClaimTables) (model : String) (now : ℚ) (room : ℕ) : List Offer :=
  tables.rows.zipIdx.flatMap fun entry => (tables.batchOffers model now entry).take room

/-- Every item with its `batch_pos` and its `user_pos`, in the order of the
query. -/
def ranked (tables : ClaimTables) (model : String) (now : ℚ) (room : ℕ) : List ((Offer × ℕ) × ℕ) :=
  sortBy Offer.turnKey (rowNumbers (fun entry => entry.1.user)
      (sortBy Offer.userKey (rowNumbers Offer.row (tables.limitedOffers model now room))))

def candidates (tables : ClaimTables) (model : String) (now : ℚ) (room : ℕ) : List Offer :=
  ((tables.ranked model now room).take room).map fun entry => entry.1.1

section Fairness

variable {tables : ClaimTables} {model : String} {now : ℚ} {room : ℕ}

section

variable (tables : ClaimTables) (model : String) (now : ℚ) (room : ℕ)

theorem length_candidates_le : (tables.candidates model now room).length ≤ room := by
  simp [candidates]

theorem ranked_perm : ((tables.ranked model now room).map fun entry => entry.1).Perm
      (rowNumbers Offer.row (tables.limitedOffers model now room)) := by
  refine ((sortBy_perm _ _).map _).trans ?_
  rw [map_fst_rowNumbers]
  exact sortBy_perm _ _

theorem offers_perm : ((tables.ranked model now room).map fun entry => entry.1.1).Perm
      (tables.limitedOffers model now room) := by
  have firsts := (ranked_perm tables model now room).map Prod.fst
  rw [map_fst_rowNumbers, List.map_map] at firsts
  exact firsts

end

theorem turn_le_of_taken {done waiting : (Offer × ℕ) × ℕ}
    (taken : done ∈ (tables.ranked model now room).take room)
    (left : waiting ∈ (tables.ranked model now room).drop room) : done.2 ≤ waiting.2 := by
  have sorted := sortBy_sorted Offer.turnKey (rowNumbers (fun entry => entry.1.user)
    (sortBy Offer.userKey (rowNumbers Offer.row (tables.limitedOffers model now room))))
  change (tables.ranked model now room).Pairwise _ at sorted
  rw [← List.take_append_drop room (tables.ranked model now room)] at sorted
  have le := (List.pairwise_append.mp sorted).2.2 done taken waiting left
  rcases Prod.Lex.toLex_le_toLex.mp le with less | equal
  · exact less.le
  · exact equal.1.le

variable {offer : Offer}

theorem row_of_offer {entry : QueuedBatch × ℕ}
    (offered : offer ∈ tables.batchOffers model now entry) :
    offer.row = entry.2 ∧ offer.user = entry.1.user := by
  unfold batchOffers at offered
  split_ifs at offered
  · rcases List.mem_map.mp offered with ⟨item, -, rfl⟩
    exact ⟨rfl, rfl⟩
  · cases offered

theorem owner_of_limited (member : offer ∈ tables.limitedOffers model now room) :
    tables.rows[offer.row]?.map QueuedBatch.user = some offer.user := by
  rcases List.mem_flatMap.mp member with ⟨entry, entryMember, taken⟩
  rcases row_of_offer (List.mem_of_mem_take taken) with ⟨itsRow, itsUser⟩
  rw [itsRow, itsUser, List.mem_zipIdx_iff_getElem?.mp entryMember]
  rfl

section

variable (tables : ClaimTables) (model : String) (now : ℚ)

theorem batchOffers_apart (entry : QueuedBatch × ℕ) :
    (tables.batchOffers model now entry).Pairwise fun first second =>
      first.item ≠ second.item := by
  unfold batchOffers
  split_ifs
  · have positions : (entry.1.batch.items.zipIdx.map Prod.snd).Pairwise (· ≠ ·) := by
      rw [List.zipIdx_map_snd]
      exact List.nodup_range'
    apply List.pairwise_map.mpr
    exact (List.pairwise_map.mp positions).filter _
  · exact List.Pairwise.nil

theorem limitedOffers_apart (room : ℕ) :
    (tables.limitedOffers model now room).Pairwise fun first second =>
      (first.row, first.item) ≠ (second.row, second.item) := by
  apply List.pairwise_flatMap.mpr
  refine ⟨?_, ?_⟩
  · intro entry _
    apply ((batchOffers_apart tables model now entry).sublist (List.take_sublist _ _)).imp
    intro first second differ same
    exact differ (congrArg Prod.snd same)
  · have positions : (tables.rows.zipIdx.map Prod.snd).Pairwise (· ≠ ·) := by
      rw [List.zipIdx_map_snd]
      exact List.nodup_range'
    apply (List.pairwise_map.mp positions).imp
    intro first second differ offer offered other otherOffered same
    have sameRow : offer.row = other.row := congrArg Prod.fst same
    rw [(row_of_offer (List.mem_of_mem_take offered)).1,
      (row_of_offer (List.mem_of_mem_take otherOffered)).1] at sameRow
    exact differ sameRow

theorem candidates_apart (room : ℕ) :
    (tables.candidates model now room).Pairwise fun first second =>
      (first.row, first.item) ≠ (second.row, second.item) := by
  have turned {first second : Offer}
      (differ : (first.row, first.item) ≠ (second.row, second.item)) :
      (second.row, second.item) ≠ (first.row, first.item) := differ.symm
  have all := ((offers_perm tables model now room).pairwise_iff turned).mpr
    (limitedOffers_apart tables model now room)
  unfold candidates
  rw [List.map_take]
  exact all.sublist (List.take_sublist _ _)

end

theorem limit_binds {kind : Offer → Bool} (offered : offer ∈ tables.offers model now)
    (cut : offer ∉ tables.limitedOffers model now room)
    (alike : ∀ other, other.row = offer.row → other.user = offer.user → kind other = true) :
    room ≤ (tables.limitedOffers model now room).countP kind := by
  rcases List.mem_flatMap.mp offered with ⟨entry, entryMember, inBatch⟩
  have long : room < (tables.batchOffers model now entry).length := by
    by_contra short
    apply cut
    refine List.mem_flatMap.mpr ⟨entry, entryMember, ?_⟩
    rwa [List.take_of_length_le (by omega)]
  rcases row_of_offer inBatch with ⟨itsRow, itsUser⟩
  have all : ((tables.batchOffers model now entry).take room).countP kind = room := by
    rw [List.countP_eq_length.mpr, List.length_take_of_le long.le]
    intro other member
    rcases row_of_offer (List.mem_of_mem_take member) with ⟨otherRow, otherUser⟩
    exact alike other (otherRow.trans itsRow.symm) (otherUser.trans itsUser.symm)
  have part : ((tables.batchOffers model now entry).take room).Sublist
      (tables.limitedOffers model now room) :=
    List.sublist_flatten_of_mem (List.mem_map_of_mem entryMember)
  calc room = ((tables.batchOffers model now entry).take room).countP kind := all.symm
    _ ≤ (tables.limitedOffers model now room).countP kind := part.countP_le

theorem all_taken (kind : Offer → Bool)
    (noneLeft : ∀ waiting ∈ (tables.ranked model now room).drop room, kind waiting.1.1 = false)
    (short : (tables.candidates model now room).countP kind < room)
    (offered : offer ∈ tables.offers model now)
    (alike : ∀ other, other.row = offer.row → other.user = offer.user → kind other = true) :
    offer ∈ tables.candidates model now room := by
  have split : (tables.ranked model now room).map (fun entry => entry.1.1) =
      tables.candidates model now room ++
        ((tables.ranked model now room).drop room).map fun entry => entry.1.1 := by
    rw [candidates, ← List.map_append, List.take_append_drop]
  have perm := offers_perm tables model now room
  rw [split] at perm
  by_cases limited : offer ∈ tables.limitedOffers model now room
  · rcases List.mem_append.mp (perm.mem_iff.mpr limited) with taken | left
    · exact taken
    · rcases List.mem_map.mp left with ⟨waiting, member, rfl⟩
      have isKind := alike waiting.1.1 rfl rfl
      rw [noneLeft waiting member] at isKind
      cases isKind
  · have binds := limit_binds offered limited alike
    have leftNone : (((tables.ranked model now room).drop room).map fun entry =>
        entry.1.1).countP kind = 0 := by
      apply List.countP_eq_zero.mpr
      intro other member
      rcases List.mem_map.mp member with ⟨waiting, waitingMember, rfl⟩
      simp [noneLeft waiting waitingMember]
    rw [← perm.countP_eq, List.countP_append, leftNone] at binds
    omega

theorem groups_in_turn {Group : Type} [DecidableEq Group] (group : Offer → Group)
    (number : (Offer × ℕ) × ℕ → ℕ) {first second : Group}
    (inTurn : ∀ done ∈ (tables.ranked model now room).take room,
      ∀ waiting ∈ (tables.ranked model now room).drop room,
        group done.1.1 = first → group waiting.1.1 = second → number done ≤ number waiting)
    (contiguous : ∀ waiting ∈ tables.ranked model now room,
      (tables.ranked model now room).countP (fun other =>
        group other.1.1 = group waiting.1.1 ∧ number other < number waiting) + 1 = number waiting)
    (apart : (tables.ranked model now room).Pairwise fun earlier later =>
      group earlier.1.1 = group later.1.1 → number earlier ≠ number later)
    (ahead : (tables.candidates model now room).countP (fun offer => group offer = second) + 2 ≤
      (tables.candidates model now room).countP fun offer => group offer = first)
    (offered : offer ∈ tables.offers model now) (itsGroup : group offer = second)
    (alike : ∀ other : Offer, other.row = offer.row → other.user = offer.user →
      group other = group offer) : offer ∈ tables.candidates model now room := by
  have short : (tables.candidates model now room).countP (fun offer => group offer = first) ≤
      room := List.countP_le_length.trans (length_candidates_le tables model now room)
  refine all_taken (fun offer => group offer = second) ?_ (by omega) offered ?_
  · by_contra waits
    simp only [not_forall, Bool.not_eq_false, decide_eq_true_eq] at waits
    rcases waits with ⟨waiting, left, itsWaiting⟩
    have turns : ((tables.ranked model now room).take room).countP (fun entry =>
        group entry.1.1 = first) ≤
        ((tables.ranked model now room).take room).countP (fun entry =>
          group entry.1.1 = second) + 1 := by
      apply served_in_turn (fun entry => group entry.1.1) number inTurn
      · intro other otherLeft otherGroup
        rw [List.take_append_drop, ← otherGroup]
        exact contiguous other (List.mem_of_mem_drop otherLeft)
      · exact apart.sublist (List.take_sublist _ _)
      · intro done taken
        have numbered := contiguous done (List.mem_of_mem_take taken)
        omega
      · exact ⟨waiting, left, by simpa using itsWaiting⟩
    simp only [candidates, List.countP_map, Function.comp_def] at ahead
    omega
  · intro other sameRow sameUser
    simp [alike other sameRow sameUser, itsGroup]

theorem turn_perm (tables : ClaimTables) (model : String) (now : ℚ) (room : ℕ) :
    (tables.ranked model now room).Perm (rowNumbers (fun entry => entry.1.user)
      (sortBy Offer.userKey (rowNumbers Offer.row (tables.limitedOffers model now room)))) :=
  sortBy_perm _ _

theorem users_in_turn (tables : ClaimTables) {first second : String}
    (ahead : (tables.candidates model now room).countP (fun offer => offer.user = second) + 2 ≤
      (tables.candidates model now room).countP fun offer => offer.user = first)
    (offered : offer ∈ tables.offers model now) (itsUser : offer.user = second) :
    offer ∈ tables.candidates model now room := by
  have numbered := turn_perm tables model now room
  refine groups_in_turn Offer.user Prod.snd ?_ ?_ ?_ ahead offered itsUser fun _ _ same => same
  · intro done taken waiting left _ _
    exact turn_le_of_taken taken left
  · intro waiting member
    rw [numbered.countP_eq]
    exact rowNumbers_contiguous (numbered.mem_iff.mp member)
  · exact apart_of_perm_rowNumbers numbered

theorem batches_in_turn (tables : ClaimTables) {first second : ℕ}
    (sameUser : tables.rows[first]?.map QueuedBatch.user =
      tables.rows[second]?.map QueuedBatch.user)
    (ahead : (tables.candidates model now room).countP (fun offer => offer.row = second) + 2 ≤
      (tables.candidates model now room).countP fun offer => offer.row = first)
    (offered : offer ∈ tables.offers model now) (itsRow : offer.row = second) :
    offer ∈ tables.candidates model now room := by
  have numbered := turn_perm tables model now room
  have inBatches := ranked_perm tables model now room
  have owner {entry : (Offer × ℕ) × ℕ} (member : entry ∈ tables.ranked model now room) :
      tables.rows[entry.1.1.row]?.map QueuedBatch.user = some entry.1.1.user :=
    owner_of_limited ((offers_perm tables model now room).mem_iff.mp (List.mem_map_of_mem member))
  refine groups_in_turn Offer.row (fun entry => entry.1.2) ?_ ?_ ?_ ahead offered itsRow
    fun _ same _ => same
  · intro done taken waiting left isFirst isSecond
    have doneOwner := owner (List.mem_of_mem_take taken)
    have waitingOwner := owner (List.mem_of_mem_drop left)
    rw [isFirst, sameUser] at doneOwner
    rw [isSecond] at waitingOwner
    have le := key_le_of_rowNumbers (sortBy_sorted Offer.userKey _)
      (numbered.mem_iff.mp (List.mem_of_mem_take taken))
      (numbered.mem_iff.mp (List.mem_of_mem_drop left))
      (Option.some.inj (doneOwner.symm.trans waitingOwner)) (turn_le_of_taken taken left)
    rcases Prod.Lex.toLex_le_toLex.mp le with less | equal
    · exact less.le
    · exact equal.1.le
  · intro waiting member
    have contiguous := rowNumbers_contiguous (inBatches.mem_iff.mp (List.mem_map_of_mem member))
    rw [← inBatches.countP_eq, List.countP_map] at contiguous
    exact contiguous
  · exact List.pairwise_map.mp (apart_of_perm_rowNumbers inBatches)

end Fairness

end ClaimTables

end HybridInference.Batch
