import HybridInference.Batch.IdempotentRows

/-!
# A key creates one batch at a time

The record of a batch outlives its protection, and as long as it counts no creation
under the key gets past it. All this holds until a statement takes the moment at which a
file batch failed or expired for its end while requests of it still run.
-/

namespace HybridInference.Batch

open Library

/-- What an idempotency record says about the batch it names. -/
structure Recorded (history : List KeyEntry) (batches : Dict String KeyedBatch)
    (record : IdempotencyRecord) : Prop where
  created : KeyEntry.created record.batchId record.requestDigest ∈ history
  frozen : ∀ expiresAt, record.expiresAt = some expiresAt → ∃ moment,
    EndsAt history record.batchId moment ∧ expiresAt ≤ moment + idempotencyRetention
  unfrozen : record.expiresAt = none → ¬ Gone history record.batchId
  tombstone : record.deletedAt.isSome = true ↔ Gone history record.batchId
  stored : ¬ Gone history record.batchId → ∃ row, batches.find record.batchId = some row ∧
    row.batch.job.deleteRequested = false

/-- Rows and record agree with the history, and creates of the key exclude each other. -/
structure Idempotent (surface : Surface) (store : KeyStore) : Prop where
  rows : ∀ id row, store.batches.find id = some row → Kept surface store.history id row
  record : ∀ record, store.record = some record → Recorded store.history store.batches record
  guarded : ∀ id, Protected store.history id store.clock → ∃ record, store.record = some record ∧
    record.batchId = id ∧ ∀ expiresAt, record.expiresAt = some expiresAt →
      ∃ bound, protection store.history id = some bound ∧ bound ≤ expiresAt
  alone : ∀ (place other : ℕ) (create another : KeyedCreate) (stage next : CreateStage),
    store.creates[place]? = some (create, stage) → store.creates[other]? = some (another, next) →
    other ≠ place → stage.isLocked = true → next.isLocked = false
  past : ∀ (place : ℕ) (create : KeyedCreate) (stage : CreateStage),
    store.creates[place]? = some (create, stage) → stage.isPast = true →
    ∀ id, ¬ Protected store.history id store.clock
  creates : ∀ (place : ℕ) (create : KeyedCreate) (stage : CreateStage),
    store.creates[place]? = some (create, stage) → KeyStore.isProper surface create = true ∧
      create.now ≤ store.clock
  fresh : ∀ (place : ℕ) (create : KeyedCreate) (stage : CreateStage),
    store.creates[place]? = some (create, stage) → stage ≠ .ended .created →
    ∀ entry ∈ store.history, entry.id ≠ create.batchId
  apart : ∀ (place other : ℕ) (create another : KeyedCreate) (stage next : CreateStage),
    store.creates[place]? = some (create, stage) → store.creates[other]? = some (another, next) →
    other ≠ place → another.batchId ≠ create.batchId
  known : ∀ id row, store.batches.find id = some row → ∃ entry ∈ store.history, entry.id = id
  unique : ∀ id first second, KeyEntry.created id first ∈ store.history →
    KeyEntry.created id second ∈ store.history → second = first

section Moves

variable {surface : Surface} {store : KeyStore}

variable {stage next : CreateStage}

theorem setCreate_cases {place other : ℕ} {create moved : KeyedCreate}
    {found : KeyedCreate × CreateStage} (was : store.creates[place]? = some (create, stage))
    (isFound : (store.setCreate place moved next).creates[other]? = some found) :
    other = place ∧ found = (moved, next) ∨ other ≠ place ∧ store.creates[other]? = some found :=
  getElem?_set_cases was isFound

/-- A create that moves within its key's lock keeps the promise. -/
theorem Idempotent.move {place : ℕ} {create : KeyedCreate}
    (idempotent : Idempotent surface store) (found : store.creates[place]? = some (create, stage))
    (locked : next.isLocked = true → stage.isLocked = true ∨
      ∀ (other : ℕ) (another : KeyedCreate) (otherStage : CreateStage),
        store.creates[other]? = some (another, otherStage) → otherStage.isLocked = false)
    (past : next.isPast = true → ∀ id, ¬ Protected store.history id store.clock)
    (uncreated : stage ≠ .ended .created) :
    Idempotent surface (store.setCreate place create next) := by
  have lock {other : ℕ} {another : KeyedCreate} {otherStage : CreateStage}
      (isOther : store.creates[other]? = some (another, otherStage)) (different : other ≠ place)
      (isLocked : next.isLocked = true) : otherStage.isLocked = false := by
    rcases locked isLocked with was | free
    · exact idempotent.alone place other create another stage otherStage found isOther different was
    · exact free other another otherStage isOther
  have origin {other : ℕ} {another : KeyedCreate} {otherStage : CreateStage}
      (isFound : (store.setCreate place create next).creates[other]? = some (another, otherStage)) :
      ∃ earlierStage, store.creates[other]? = some (another, earlierStage) ∧
        (otherStage = earlierStage ∨ other = place ∧ otherStage = next ∧ earlierStage = stage) := by
    rcases setCreate_cases found isFound with ⟨rfl, same⟩ | ⟨-, earlier⟩
    · cases same
      exact ⟨stage, found, Or.inr ⟨rfl, rfl, rfl⟩⟩
    · exact ⟨otherStage, earlier, Or.inl rfl⟩
  refine ⟨idempotent.rows, idempotent.record, idempotent.guarded, ?_, ?_, ?_, ?_, ?_,
    idempotent.known, idempotent.unique⟩
  · intro first second one another firstStage secondStage isFirst isSecond different isLocked
    rcases origin isFirst with ⟨firstEarlier, wasFirst, rfl | ⟨rfl, rfl, rfl⟩⟩
    · rcases origin isSecond with ⟨secondEarlier, wasSecond, rfl | ⟨rfl, rfl, rfl⟩⟩
      · exact idempotent.alone first second one another firstStage secondStage wasFirst wasSecond
          different isLocked
      · cases alsoLocked : secondStage.isLocked with
        | false => rfl
        | true =>
          rw [lock wasFirst different.symm alsoLocked] at isLocked
          cases isLocked
    · rcases setCreate_cases found isSecond with ⟨same, -⟩ | ⟨-, wasSecond⟩
      · exact absurd same different
      · exact lock wasSecond different isLocked
  · intro other another otherStage isFound isPast
    rcases origin isFound with ⟨earlierStage, was, rfl | ⟨-, rfl, -⟩⟩
    · exact idempotent.past other another otherStage was isPast
    · exact past isPast
  · intro other another otherStage isFound
    rcases origin isFound with ⟨earlierStage, was, -⟩
    exact idempotent.creates other another earlierStage was
  · intro other another otherStage isFound notCreated
    rcases origin isFound with ⟨earlierStage, was, rfl | ⟨-, -, rfl⟩⟩
    · exact idempotent.fresh other another otherStage was notCreated
    · exact idempotent.fresh other another earlierStage was uncreated
  · intro first second one another firstStage secondStage isFirst isSecond different
    rcases origin isFirst with ⟨_, wasFirst, -⟩
    rcases origin isSecond with ⟨_, wasSecond, -⟩
    exact idempotent.apart first second one another _ _ wasFirst wasSecond different

theorem Idempotent.of_tables {record : Option IdempotencyRecord} {batches : Dict String KeyedBatch}
    {more : List KeyEntry} (idempotent : Idempotent surface store)
    (isKnown : ∀ entry ∈ more, ∃ earlier ∈ store.history, earlier.id = entry.id)
    (uncreated : ∀ id requestDigest, KeyEntry.created id requestDigest ∉ more)
    (deletedNow : ∀ id moment at_, KeyEntry.deleted id moment at_ ∈ more → at_ = store.clock)
    (stored : ∀ id row, batches.find id = some row → ∃ was, store.batches.find id = some was)
    (rows : ∀ id row, batches.find id = some row → Kept surface (store.history ++ more) id row)
    (recorded : ∀ next, record = some next → Recorded (store.history ++ more) batches next)
    (guarded : ∀ was, store.record = some was →
      Protected (store.history ++ more) was.batchId store.clock →
      (∀ expiresAt, was.expiresAt = some expiresAt →
        ∃ bound, protection store.history was.batchId = some bound ∧ bound ≤ expiresAt) →
      ∃ next, record = some next ∧ next.batchId = was.batchId ∧
        ∀ expiresAt, next.expiresAt = some expiresAt → ∃ bound,
          protection (store.history ++ more) was.batchId = some bound ∧ bound ≤ expiresAt) :
    Idempotent surface
      { store with record := record, batches := batches, history := store.history ++ more } := by
  have before {id : String} (protected_ : Protected (store.history ++ more) id store.clock) :
      Protected store.history id store.clock :=
    protected_.of_append (le_refl _) (uncreated id) (deletedNow id)
  refine ⟨rows, recorded, ?_, idempotent.alone, ?_, idempotent.creates, ?_, idempotent.apart, ?_,
    ?_⟩
  · intro id protected_
    rcases idempotent.guarded id (before protected_) with ⟨was, isRecord, rfl, bounded⟩
    exact guarded was isRecord protected_ bounded
  · intro place create stage found isPast id protected_
    exact idempotent.past place create stage found isPast id (before protected_)
  · intro place create stage found notCreated entry member
    rcases List.mem_append.mp member with earlier | last
    · exact idempotent.fresh place create stage found notCreated entry earlier
    · rcases isKnown entry last with ⟨earlier, isEarlier, same⟩
      rw [← same]
      exact idempotent.fresh place create stage found notCreated earlier isEarlier
  · intro id row found
    rcases stored id row found with ⟨was, wasFound⟩
    rcases idempotent.known id was wasFound with ⟨entry, member, same⟩
    exact ⟨entry, List.mem_append_left _ member, same⟩
  · intro id first second isFirst isSecond
    have earlier {requestDigest : String}
        (created : KeyEntry.created id requestDigest ∈ store.history ++ more) :
        KeyEntry.created id requestDigest ∈ store.history := by
      rcases List.mem_append.mp created with earlier | last
      · exact earlier
      · exact absurd last (uncreated id requestDigest)
    exact idempotent.unique id first second (earlier isFirst) (earlier isSecond)

theorem Idempotent.of_record {record : Option IdempotencyRecord}
    (idempotent : Idempotent surface store)
    (recorded : ∀ next, record = some next → Recorded store.history store.batches next)
    (guarded : ∀ was, store.record = some was → Protected store.history was.batchId store.clock →
      (∀ expiresAt, was.expiresAt = some expiresAt →
        ∃ bound, protection store.history was.batchId = some bound ∧ bound ≤ expiresAt) →
      ∃ next, record = some next ∧ next.batchId = was.batchId ∧
        ∀ expiresAt, next.expiresAt = some expiresAt → ∃ bound,
          protection store.history was.batchId = some bound ∧ bound ≤ expiresAt) :
    Idempotent surface { store with record := record } := by
  have unchanged := @Idempotent.of_tables surface store record store.batches [] idempotent
    (by simp) (by simp) (by simp) (fun id row found => ⟨row, found⟩)
    (by simpa using idempotent.rows) (by simpa using recorded) (by simpa using guarded)
  simpa using unchanged

variable {record : IdempotencyRecord}

theorem Idempotent.end_of_over {row : KeyedBatch}
    (idempotent : Idempotent surface store) (isRecord : store.record = some record)
    (unfrozen : record.expiresAt = none) (found : store.batches.find record.batchId = some row)
    (isOver : row.isOver = true) (settled : store.isDraining record = false) :
    ∃ moment, row.endedAt = some moment ∧ KeyEntry.ended record.batchId moment ∈ store.history ∧
      ∃ bound, protection store.history record.batchId = some bound ∧
        bound ≤ moment + idempotencyRetention := by
  have still : row.isDraining = false := by
    simpa [KeyStore.isDraining, unfrozen, found] using settled
  rcases (idempotent.rows _ _ found).endedAt_of_over isOver still with ⟨moment, isEnd, ended⟩
  have there := (idempotent.record record isRecord).unfrozen unfrozen
  refine ⟨moment, isEnd, ended, protection_le_of_ended ended ?_⟩
  intro at_ clock deleted
  exact there (Or.inl ⟨at_, clock, deleted⟩)

theorem Idempotent.isLive_of_protected {now : ℚ}
    (idempotent : Idempotent surface store) (isRecord : store.record = some record)
    (protected_ : Protected store.history record.batchId store.clock)
    (settled : store.isDraining record = false) (begun : now ≤ store.clock) :
    store.isLive record now = true := by
  rcases idempotent.guarded _ protected_ with ⟨other, isOther, -, bounded⟩
  obtain rfl : record = other := Option.some.inj (isRecord.symm.trans isOther)
  cases frozen : record.expiresAt with
  | some expiresAt =>
    rcases bounded expiresAt frozen with ⟨bound, isBound, le⟩
    have later := lt_of_le_of_lt begun (lt_of_lt_of_le (protected_.2 bound isBound) le)
    simpa [KeyStore.isLive, frozen] using later
  | none =>
    have recorded := idempotent.record record isRecord
    rcases recorded.stored (recorded.unfrozen frozen) with ⟨row, found, -⟩
    by_cases isOver : row.isOver = true
    · rcases idempotent.end_of_over isRecord frozen found isOver settled with
        ⟨moment, isEnd, -, bound, isBound, le⟩
      have later := lt_of_le_of_lt begun (lt_of_lt_of_le (protected_.2 bound isBound) le)
      simpa [KeyStore.isLive, frozen, found, KeyedBatch.recordExpiry, isOver, isEnd] using later
    · simp [KeyStore.isLive, frozen, found, KeyedBatch.recordExpiry, isOver]

end Moves

section Sweep

variable {surface : Surface} {store : KeyStore}

theorem Idempotent.freeze (idempotent : Idempotent surface store)
    (settled : ∀ record, store.record = some record → store.isDraining record = false) :
    Idempotent surface store.freeze := by
  apply idempotent.of_record
  · intro next isNext
    rcases Option.map_eq_some_iff.mp isNext with ⟨record, isRecord, rfl⟩
    have recorded := idempotent.record record isRecord
    refine ⟨recorded.created, ?_, ?_, recorded.tombstone, recorded.stored⟩
    · intro expiresAt isExpiry
      rcases Option.or_eq_some_iff.mp isExpiry with frozen | ⟨unfrozen, computed⟩
      · exact recorded.frozen expiresAt frozen
      · rcases Option.bind_eq_some_iff.mp computed with ⟨row, found, expires⟩
        simp only [KeyedBatch.recordExpiry] at expires
        split_ifs at expires with isOver
        rcases idempotent.end_of_over isRecord unfrozen found isOver (settled record isRecord) with
          ⟨moment, isEnd, ended, -⟩
        simp only [isEnd, Option.map_some, Option.some.injEq] at expires
        exact ⟨moment, Or.inl ended, expires.ge⟩
    · intro unfrozen
      exact recorded.unfrozen (Option.or_eq_none_iff.mp unfrozen).1
  · intro record isRecord protected_ bounded
    refine ⟨_, Option.map_eq_some_iff.mpr ⟨record, isRecord, rfl⟩, rfl, ?_⟩
    intro expiresAt isExpiry
    rcases Option.or_eq_some_iff.mp isExpiry with frozen | ⟨unfrozen, computed⟩
    · exact bounded expiresAt frozen
    · rcases Option.bind_eq_some_iff.mp computed with ⟨row, found, expires⟩
      simp only [KeyedBatch.recordExpiry] at expires
      split_ifs at expires with isOver
      rcases idempotent.end_of_over isRecord unfrozen found isOver (settled record isRecord) with
        ⟨moment, isEnd, -, bound, isBound, le⟩
      simp only [isEnd, Option.map_some, Option.some.injEq] at expires
      exact ⟨bound, isBound, le.trans expires.le⟩

theorem Idempotent.vanish_eq (idempotent : Idempotent surface store) (now : ℚ) :
    store.vanish now = store := by
  cases isRecord : store.record with
  | none =>
    simp only [KeyStore.vanish, isRecord, Option.map_none]
    rw [← isRecord]
  | some record =>
    have recorded := idempotent.record record isRecord
    have there : (record.expiresAt.isNone &&
        (store.batches.find record.batchId).isNone) = false := by
      by_contra vanished
      simp only [Bool.not_eq_false, Bool.and_eq_true, Option.isNone_iff_eq_none] at vanished
      rcases recorded.stored (recorded.unfrozen vanished.1) with ⟨row, found, -⟩
      rw [vanished.2] at found
      cases found
    simp only [KeyStore.vanish, isRecord, Option.map_some, there, Bool.false_eq_true, if_false]
    rw [← isRecord]

theorem Idempotent.drop {now : ℚ} (idempotent : Idempotent surface store)
    (begun : now ≤ store.clock) : Idempotent surface (store.drop now) := by
  apply idempotent.of_record
  · intro next isNext
    exact idempotent.record next (Option.filter_eq_some_iff.mp isNext).1
  · intro record isRecord protected_ bounded
    refine ⟨record, ?_, rfl, bounded⟩
    rw [isRecord, Option.filter_eq_some_iff]
    refine ⟨rfl, ?_⟩
    cases frozen : record.expiresAt with
    | none => rfl
    | some expiresAt =>
      rcases bounded expiresAt frozen with ⟨bound, isBound, le⟩
      have later := lt_of_le_of_lt begun (lt_of_lt_of_le (protected_.2 bound isBound) le)
      simpa using later

end Sweep

section Tables

variable {surface : Surface} {store : KeyStore}

theorem Idempotent.transact {id : String} {transaction : Transaction} {now : ℚ} {row : KeyedBatch}
    (idempotent : Idempotent surface store) (notDeleted : transaction.isRequestDelete = false)
    (found : store.batches.find id = some row) :
    Idempotent surface { store with
      batches := store.batches.insert id (row.write (row.batch.after transaction) now)
      history := store.history ++
        endsOf surface id row.batch.job (row.batch.after transaction).job now } := by
  have endings {entry : KeyEntry} (member : entry ∈ endsOf surface id row.batch.job
      (row.batch.after transaction).job now) : entry = .ended id now := by
    unfold endsOf at member
    split_ifs at member <;> simp_all
  rcases idempotent.known id row found with ⟨known, isKnown, knownId⟩
  apply idempotent.of_tables
  · intro entry member
    rw [endings member]
    exact ⟨known, isKnown, knownId⟩
  · intro other requestDigest member
    cases endings member
  · intro other moment at_ member
    cases endings member
  · intro other next isNext
    rw [Dict.find_insert] at isNext
    split_ifs at isNext with same
    · exact ⟨row, same ▸ found⟩
    · exact ⟨next, isNext⟩
  · intro other next isNext
    rw [Dict.find_insert] at isNext
    split_ifs at isNext with same
    · cases isNext
      exact same ▸ (idempotent.rows id row found).write notDeleted
    · apply (idempotent.rows other next isNext).append
      intro moment member
      exact same (KeyEntry.ended.inj (endings member)).1
  · intro record isRecord
    have recorded := idempotent.record record isRecord
    have gone : Gone (store.history ++ endsOf surface id row.batch.job
        (row.batch.after transaction).job now) record.batchId ↔
        Gone store.history record.batchId := by
      apply gone_append_iff
      intro entry member same
      rw [endings member] at same ⊢
      exact ⟨now, same ▸ rfl⟩
    refine ⟨List.mem_append_left _ recorded.created, ?_, ?_, ?_, ?_⟩
    · intro expiresAt frozen
      rcases recorded.frozen expiresAt frozen with ⟨moment, ends, le⟩
      exact ⟨moment, ends.append, le⟩
    · rw [gone]
      exact recorded.unfrozen
    · rw [gone]
      exact recorded.tombstone
    · rw [gone]
      intro there
      rcases recorded.stored there with ⟨was, wasFound, kept⟩
      by_cases same : record.batchId = id
      · rw [same] at wasFound
        obtain rfl : was = row := Option.some.inj (wasFound.symm.trans found)
        refine ⟨_, by rw [Dict.find_insert, if_pos same], ?_⟩
        exact (StoredBatch.after_endures was.batch notDeleted).deleteRequested.trans kept
      · exact ⟨was, by rw [Dict.find_insert, if_neg same]; exact wasFound, kept⟩
  · intro record isRecord _ bounded
    refine ⟨record, isRecord, rfl, ?_⟩
    intro expiresAt frozen
    rcases bounded expiresAt frozen with ⟨bound, isBound, le⟩
    have kept : ∀ moment clock, KeyEntry.deleted record.batchId moment clock ∉
        endsOf surface id row.batch.job (row.batch.after transaction).job now := by
      intro moment clock member
      cases endings member
    rcases protection_append_le isBound kept with ⟨later, isLater, laterLe⟩
    exact ⟨later, isLater, laterLe.trans le⟩

variable {record : IdempotencyRecord}

variable {batches : Dict String KeyedBatch}

theorem Recorded.of_other
    {more : List KeyEntry} (recorded : Recorded store.history store.batches record)
    (others : ∀ entry ∈ more, entry.id ≠ record.batchId)
    (same : batches.find record.batchId = store.batches.find record.batchId) :
    Recorded (store.history ++ more) batches record := by
  have gone : Gone (store.history ++ more) record.batchId ↔ Gone store.history record.batchId :=
    gone_append_iff fun entry member isId => absurd isId (others entry member)
  refine ⟨List.mem_append_left _ recorded.created, ?_, ?_, ?_, ?_⟩
  · intro expiresAt frozen
    rcases recorded.frozen expiresAt frozen with ⟨moment, ends, le⟩
    exact ⟨moment, ends.append, le⟩
  · rw [gone]
    exact recorded.unfrozen
  · rw [gone]
    exact recorded.tombstone
  · rw [gone, same]
    exact recorded.stored

theorem idempotencyRetention_nonneg : 0 ≤ idempotencyRetention := by
  decide +kernel

theorem Recorded.deleted {now clock : ℚ} (recorded : Recorded store.history store.batches record) :
    Recorded (store.history ++ [.deleted record.batchId now clock]) batches
      { record with
        deletedAt := some now
        expiresAt := some (max (record.expiresAt.getD now) (now + idempotencyRetention)) } := by
  have isGone : Gone (store.history ++ [.deleted record.batchId now clock]) record.batchId :=
    Or.inl ⟨now, clock, by simp⟩
  refine ⟨List.mem_append_left _ recorded.created, ?_, by simp, by simp [isGone],
    fun there => absurd isGone there⟩
  intro expiresAt isExpiry
  cases isExpiry
  cases frozen : record.expiresAt with
  | none =>
    refine ⟨now, Or.inr ⟨clock, by simp⟩, max_le ?_ (le_refl _)⟩
    simpa using idempotencyRetention_nonneg
  | some expiresAt =>
    rcases recorded.frozen expiresAt frozen with ⟨moment, ends, le⟩
    rcases le_total expiresAt (now + idempotencyRetention) with shorter | longer
    · exact ⟨now, Or.inr ⟨clock, by simp⟩, max_le shorter (le_refl _)⟩
    · exact ⟨moment, ends.append, max_le le (longer.trans le)⟩

theorem Idempotent.deleteBatch {id : String} {now : ℚ} {reading : Bool}
    (idempotent : Idempotent surface store) :
    Idempotent surface (store.deleteBatch id now reading) := by
  unfold KeyStore.deleteBatch
  cases found : store.batches.find id with
  | none => exact idempotent
  | some row =>
    dsimp only
    by_cases refused : (row.batch.job.deleteRequested ||
        KeyStore.hasLiveItem row store.clock) = true
    · rw [if_pos refused]
      exact idempotent
    · rw [if_neg refused]
      rcases idempotent.known id row found with ⟨known, isKnown, knownId⟩
      have kept := idempotent.rows id row found
      have isGone : Gone (store.history ++ [.deleted id now store.clock]) id :=
        Or.inl ⟨now, store.clock, by simp⟩
      apply idempotent.of_tables
      · intro entry member
        rw [List.mem_singleton.mp member]
        exact ⟨known, isKnown, knownId⟩
      · intro other requestDigest member
        cases List.mem_singleton.mp member
      · intro other moment at_ member
        cases List.mem_singleton.mp member
        rfl
      · intro other next isNext
        split_ifs at isNext
        · rw [Dict.find_insert] at isNext
          split_ifs at isNext with same
          · exact ⟨row, same ▸ found⟩
          · exact ⟨next, isNext⟩
        · rw [Dict.find_erase] at isNext
          split_ifs at isNext
          exact ⟨next, isNext⟩
      · intro other next isNext
        have stays (was : store.batches.find other = some next) :
            Kept surface (store.history ++ [.deleted id now store.clock]) other next :=
          (idempotent.rows other next was).append (by simp)
        split_ifs at isNext
        · rw [Dict.find_insert] at isNext
          split_ifs at isNext with same
          · cases isNext
            subst same
            exact kept.requestDelete isGone (by simp)
          · exact stays isNext
        · rw [Dict.find_erase] at isNext
          split_ifs at isNext
          exact stays isNext
      · intro next isNext
        rcases Option.map_eq_some_iff.mp isNext with ⟨record, isRecord, rfl⟩
        have recorded := idempotent.record record isRecord
        by_cases same : record.batchId = id
        · subst same
          rw [if_pos rfl]
          exact recorded.deleted
        · rw [if_neg same]
          apply recorded.of_other
          · intro entry member
            rw [List.mem_singleton.mp member]
            exact fun equal => same equal.symm
          · split_ifs
            · rw [Dict.find_insert, if_neg same]
            · rw [Dict.find_erase, if_neg same]
      · intro record isRecord protected_ bounded
        refine ⟨_, Option.map_eq_some_iff.mpr ⟨record, isRecord, rfl⟩, ?_, ?_⟩
        · split_ifs <;> rfl
        · intro expiresAt isExpiry
          by_cases same : record.batchId = id
          · subst same
            simp only [if_true, Option.some.injEq] at isExpiry
            have before : Protected store.history record.batchId store.clock :=
              protected_.of_append (le_refl _) (by simp) (by simp)
            have unexpired : (protection store.history record.batchId).all (store.clock < ·) := by
              rw [Option.all_eq_true]
              intro bound isBound
              simpa using before.2 bound isBound
            refine ⟨now + idempotencyRetention, ?_, ?_⟩
            · rw [protection_concat]
              simp [extendProtection, unexpired]
            · rw [← isExpiry]
              exact le_max_right _ _
          · rw [if_neg same] at isExpiry
            rcases bounded expiresAt isExpiry with ⟨bound, isBound, le⟩
            refine ⟨bound, ?_, le⟩
            rw [protection_append_of_ne, isBound]
            intro entry member
            rw [List.mem_singleton.mp member]
            exact fun equal => same equal.symm

theorem Idempotent.expiry_of_purge {now retention : ℚ} {row : KeyedBatch}
    (idempotent : Idempotent surface store)
    (isRecord : store.record = some record) (unfrozen : record.expiresAt = none)
    (found : store.batches.find record.batchId = some row)
    (purgeable : KeyStore.isPurgeable row now retention = true)
    (settled : store.isDraining record = false) :
    ∃ moment, row.endedAt = some moment ∧ KeyEntry.ended record.batchId moment ∈ store.history ∧
      ∃ bound, protection store.history record.batchId = some bound ∧
        bound ≤ moment + idempotencyRetention := by
  have recorded := idempotent.record record isRecord
  rcases recorded.stored (recorded.unfrozen unfrozen) with ⟨other, isOther, kept⟩
  obtain rfl : row = other := Option.some.inj (found.symm.trans isOther)
  simp only [KeyStore.isPurgeable, kept, Bool.or_false, Bool.and_eq_true] at purgeable
  exact idempotent.end_of_over isRecord unfrozen found purgeable.1.1 settled

theorem Idempotent.purge {id : String} {now retention : ℚ} (idempotent : Idempotent surface store)
    (settled : ∀ record, store.record = some record → record.batchId = id →
      store.isDraining record = false) :
    Idempotent surface (store.purge id now retention) := by
  unfold KeyStore.purge
  cases found : store.batches.find id with
  | none => exact idempotent
  | some row =>
    dsimp only
    by_cases purgeable : KeyStore.isPurgeable row now retention = true
    · rw [if_pos purgeable]
      rcases idempotent.known id row found with ⟨known, isKnown, knownId⟩
      have isGone : Gone (store.history ++ [.purged id]) id := Or.inr (by simp)
      apply idempotent.of_tables
      · intro entry member
        rw [List.mem_singleton.mp member]
        exact ⟨known, isKnown, knownId⟩
      · intro other requestDigest member
        cases List.mem_singleton.mp member
      · intro other moment at_ member
        cases List.mem_singleton.mp member
      · intro other next isNext
        rw [Dict.find_erase] at isNext
        split_ifs at isNext
        exact ⟨next, isNext⟩
      · intro other next isNext
        rw [Dict.find_erase] at isNext
        split_ifs at isNext
        exact (idempotent.rows other next isNext).append (by simp)
      · intro next isNext
        rcases Option.map_eq_some_iff.mp isNext with ⟨record, isRecord, rfl⟩
        have recorded := idempotent.record record isRecord
        by_cases same : record.batchId = id
        · subst same
          rw [if_pos rfl]
          refine ⟨List.mem_append_left _ recorded.created, ?_, by simp, by simp [isGone],
            fun there => absurd isGone there⟩
          intro expiresAt isExpiry
          cases frozen : record.expiresAt with
          | some before =>
            rcases recorded.frozen before frozen with ⟨moment, ends, le⟩
            simp only [frozen, Option.some_or, Option.some.injEq] at isExpiry
            exact ⟨moment, ends.append, isExpiry ▸ le⟩
          | none =>
            rcases idempotent.expiry_of_purge isRecord frozen found purgeable
              (settled record isRecord rfl) with ⟨moment, isEnd, ended, -⟩
            simp only [frozen, isEnd, Option.none_or, Option.map_some, Option.some_or,
              Option.some.injEq] at isExpiry
            exact ⟨moment, Or.inl (List.mem_append_left _ ended), isExpiry.ge⟩
        · rw [if_neg same]
          apply recorded.of_other
          · intro entry member
            rw [List.mem_singleton.mp member]
            exact fun equal => same equal.symm
          · rw [Dict.find_erase, if_neg same]
      · intro record isRecord protected_ bounded
        refine ⟨_, Option.map_eq_some_iff.mpr ⟨record, isRecord, rfl⟩, ?_, ?_⟩
        · split_ifs <;> rfl
        · intro expiresAt isExpiry
          rw [protection_concat]
          by_cases same : record.batchId = id
          · subst same
            rw [if_pos rfl] at isExpiry
            cases frozen : record.expiresAt with
            | some before =>
              simp only [frozen, Option.some_or, Option.some.injEq] at isExpiry
              exact isExpiry ▸ bounded before frozen
            | none =>
              rcases idempotent.expiry_of_purge isRecord frozen found purgeable
                (settled record isRecord rfl) with ⟨moment, isEnd, -, bound, isBound, le⟩
              simp only [frozen, isEnd, Option.none_or, Option.map_some, Option.some_or,
                Option.some.injEq] at isExpiry
              exact ⟨bound, isBound, isExpiry ▸ le⟩
          · rw [if_neg same] at isExpiry
            exact bounded expiresAt isExpiry
    · rw [if_neg purgeable]
      exact idempotent

end Tables

section Creates

variable {surface : Surface} {store : KeyStore}

variable {create : KeyedCreate}

theorem Idempotent.unprotected_of_replay
    (idempotent : Idempotent surface store) (begun : create.now ≤ store.clock)
    (settled : ∀ record, store.record = some record → store.isDraining record = true →
      store.isLive record create.now = true)
    (unanswered : store.replay create = none) (id : String) :
    ¬ Protected store.history id store.clock := by
  intro protected_
  rcases idempotent.guarded id protected_ with ⟨record, isRecord, rfl, -⟩
  have live : store.isLive record create.now = true := by
    cases draining : store.isDraining record with
    | true => exact settled record isRecord draining
    | false => exact idempotent.isLive_of_protected isRecord protected_ draining begun
  simp only [KeyStore.replay, isRecord, live, if_true] at unanswered
  split_ifs at unanswered

theorem Idempotent.beginCreate (idempotent : Idempotent surface store)
    (begun : create.now = store.clock) (proper : KeyStore.isProper surface create = true)
    (fresh : store.isFresh create.batchId = true) :
    Idempotent surface { store with creates := store.creates ++ [(create, .waiting)] } := by
  simp only [KeyStore.isFresh, Bool.and_eq_true, List.all_eq_true, decide_eq_true_eq] at fresh
  rcases fresh with ⟨⟨distinct, -⟩, unused⟩
  have place_cases {place : ℕ} {found : KeyedCreate × CreateStage}
      (isFound : (store.creates ++ [(create, CreateStage.waiting)])[place]? = some found) :
      store.creates[place]? = some found ∨
        place = store.creates.length ∧ found = (create, .waiting) := by
    rw [List.getElem?_append] at isFound
    split_ifs at isFound with inside
    · exact Or.inl isFound
    · rw [List.getElem?_singleton] at isFound
      split_ifs at isFound with last
      exact Or.inr ⟨by omega, (Option.some.inj isFound).symm⟩
  refine ⟨idempotent.rows, idempotent.record, idempotent.guarded, ?_, ?_, ?_, ?_, ?_,
    idempotent.known, idempotent.unique⟩
  · intro place other one another stage next isOne isAnother different locked
    rcases place_cases isAnother with earlier | ⟨-, new⟩
    · rcases place_cases isOne with earlierOne | ⟨-, new⟩
      · exact idempotent.alone place other one another stage next earlierOne earlier different
          locked
      · cases new
        cases locked
    · cases new
      rfl
  · intro place one stage isOne isPast
    rcases place_cases isOne with earlier | ⟨-, new⟩
    · exact idempotent.past place one stage earlier isPast
    · cases new
      cases isPast
  · intro place one stage isOne
    rcases place_cases isOne with earlier | ⟨-, new⟩
    · exact idempotent.creates place one stage earlier
    · cases new
      exact ⟨proper, begun.le⟩
  · intro place one stage isOne notCreated entry member
    rcases place_cases isOne with earlier | ⟨-, new⟩
    · exact idempotent.fresh place one stage earlier notCreated entry member
    · cases new
      exact unused entry member
  · intro place other one another stage next isOne isAnother different
    rcases place_cases isOne with earlierOne | ⟨isLast, new⟩
    · rcases place_cases isAnother with earlier | ⟨-, new⟩
      · exact idempotent.apart place other one another stage next earlierOne earlier different
      · cases new
        exact fun same => distinct _ (List.mem_of_getElem? earlierOne) same.symm
    · rcases place_cases isAnother with earlier | ⟨alsoLast, -⟩
      · cases new
        exact distinct _ (List.mem_of_getElem? earlier)
      · exact absurd (alsoLast.trans isLast.symm) different

theorem id_of_createdEntries {entry : KeyEntry} (member : entry ∈ createdEntries surface create) :
    entry = .created create.batchId create.requestDigest ∨
      entry = .ended create.batchId create.now := by
  unfold createdEntries at member
  split_ifs at member <;> simp_all

theorem Idempotent.commit {place : ℕ} (idempotent : Idempotent surface store)
    (found : store.creates[place]? = some (create, .admitted)) :
    Idempotent surface
      { store.setCreate place create (.ended .created) with
        record := some { requestDigest := create.requestDigest, batchId := create.batchId }
        batches := store.batches.insert create.batchId (KeyStore.newRow create)
        history := store.history ++ createdEntries surface create } := by
  have moved : Idempotent surface (store.setCreate place create (.ended .created)) :=
    idempotent.move found (by simp [CreateStage.isLocked]) (by simp [CreateStage.isPast]) (by simp)
  have unprotected := idempotent.past place create .admitted found rfl
  have unused := idempotent.fresh place create .admitted found (by simp)
  have proper := (idempotent.creates place create .admitted found).1
  have sameId {entry : KeyEntry} (member : entry ∈ createdEntries surface create) :
      entry.id = create.batchId := by
    rcases id_of_createdEntries member with rfl | rfl <;> rfl
  have there : ¬ Gone (store.history ++ createdEntries surface create) create.batchId := by
    rintro (⟨moment, clock, deleted⟩ | purged)
    · rcases List.mem_append.mp deleted with earlier | last
      · exact unused _ earlier rfl
      · rcases id_of_createdEntries last with different | different <;> cases different
    · rcases List.mem_append.mp purged with earlier | last
      · exact unused _ earlier rfl
      · rcases id_of_createdEntries last with different | different <;> cases different
  refine ⟨?_, ?_, ?_, moved.alone, ?_, moved.creates, ?_, moved.apart, ?_, ?_⟩
  · intro id row isRow
    rw [Dict.find_insert] at isRow
    split_ifs at isRow with same
    · cases isRow
      exact same ▸ kept_newRow proper unused
    · apply (idempotent.rows id row isRow).append
      intro moment member
      exact same (sameId member)
  · intro record isRecord
    cases isRecord
    refine ⟨by simp [createdEntries], by simp, fun _ => there, by simp [there], fun _ => ?_⟩
    refine ⟨KeyStore.newRow create, by rw [Dict.find_insert, if_pos rfl], ?_⟩
    exact (create.creation.stored_facts create.now).2.2.2.1
  · intro id protected_
    by_cases same : id = create.batchId
    · subst same
      exact ⟨_, rfl, rfl, by simp⟩
    · have others : ∀ entry ∈ createdEntries surface create, entry.id ≠ id :=
        fun entry member equal => same (equal.symm.trans (sameId member))
      refine absurd (protected_.of_append (le_refl _) ?_ ?_) (unprotected id)
      · intro requestDigest member
        exact others _ member rfl
      · intro moment at_ member
        exact absurd rfl (others _ member)
  · intro other another stage isAnother isPast
    exfalso
    rcases setCreate_cases found isAnother with ⟨-, same⟩ | ⟨different, earlier⟩
    · cases same
      cases isPast
    · have free := idempotent.alone place other create another .admitted stage found earlier
        different rfl
      cases stage <;> simp_all [CreateStage.isPast, CreateStage.isLocked]
  · intro other another stage isAnother notCreated entry member
    rcases List.mem_append.mp member with earlier | last
    · exact moved.fresh other another stage isAnother notCreated entry earlier
    · rw [sameId last]
      rcases setCreate_cases found isAnother with ⟨-, same⟩ | ⟨different, was⟩
      · cases same
        exact absurd rfl notCreated
      · exact fun equal => idempotent.apart place other create another .admitted stage found was
          different equal.symm
  · intro id row isRow
    rw [Dict.find_insert] at isRow
    split_ifs at isRow with same
    · exact ⟨.created create.batchId create.requestDigest, by simp [createdEntries], same.symm⟩
    · rcases idempotent.known id row isRow with ⟨entry, member, isId⟩
      exact ⟨entry, List.mem_append_left _ member, isId⟩
  · intro id first second isFirst isSecond
    have new {requestDigest : String}
        (member : KeyEntry.created id requestDigest ∈ createdEntries surface create) :
        id = create.batchId ∧ requestDigest = create.requestDigest := by
      rcases id_of_createdEntries member with same | different
      · exact KeyEntry.created.inj same
      · cases different
    rcases List.mem_append.mp isFirst with earlierFirst | lastFirst
    · rcases List.mem_append.mp isSecond with earlierSecond | lastSecond
      · exact idempotent.unique id first second earlierFirst earlierSecond
      · exact absurd (new lastSecond).1 (unused _ earlierFirst)
    · rcases List.mem_append.mp isSecond with earlierSecond | lastSecond
      · exact absurd (new lastFirst).1 (unused _ earlierSecond)
      · exact (new lastSecond).2.trans (new lastFirst).2.symm

end Creates

end HybridInference.Batch
