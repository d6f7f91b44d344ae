import HybridInference.Batch.ClaimOrder
import HybridInference.Batch.Fencing

/-!
# Claims in flight

`claim_items` over all batches: under the advisory lock of its model it counts
the live leases, reads its candidates, and then locks their batches, re-checks
and claims. These are three steps here, between which every other transaction
may come; a heartbeat is the check of the leases and the commit, under the locks
of its models. Leases are granted by the clock of the transaction's start and
renewed by the wall clock, which never runs backwards.
-/

namespace HybridInference.Batch

open Library

def Item.live (model : String) (now : ℚ) (item : Item) : Bool :=
  item.modelId = model && (item.status = .running && item.leaseExpiresAt.any (now < ·))

namespace ClaimTables

def item? (tables : ClaimTables) (row index : ℕ) : Option Item :=
  tables.rows[row]?.bind fun found => found.batch.items[index]?

def live (tables : ClaimTables) (model : String) (now : ℚ) : ℕ :=
  tally (fun row => row.batch.items.countP (Item.live model now)) tables.rows

def stillClaimable (tables : ClaimTables) (model : String) (now : ℚ) (offer : Offer) : Bool :=
  tables.rows[offer.row]?.any fun row => row.batch.job.claimable now &&
    row.batch.items[offer.item]?.any fun item => item.modelId = model && item.claimable now

end ClaimTables

/-- The arguments of `claim_items` and the start of its transaction. -/
structure ClaimRequest where
  model : String
  worker : String
  limit : ℤ
  maxRunning : ℤ
  leaseSeconds : ℚ
  startedAt : ℚ

structure PendingClaim extends ClaimRequest where
  room : ℕ
  read : Option ClaimTables := none

structure Heartbeat where
  id : ℕ
  models : List String
  items : List (ℕ × ℕ)
  expiresAt : ℚ

def Heartbeat.ofRow (beat : Heartbeat) (row : ℕ) : Renewal where
  id := beat.id
  models := beat.models
  items := (beat.items.filter fun place => place.1 = row).map Prod.snd
  expiresAt := beat.expiresAt

structure Grant where
  row : ℕ
  item : ℕ
  attempt : ℕ
  worker : String
  grantedAt : ℚ
  expiresAt : ℚ
  endedAt : Option ℚ := none

def Grant.liveUntil (grant : Grant) : ℚ :=
  grant.endedAt.elim grant.expiresAt (min grant.expiresAt)

structure ClaimWorld where
  tables : ClaimTables
  clock : ℚ
  pending : List PendingClaim := []
  beats : List Heartbeat := []
  grants : List Grant := []

/-- The events of the store. `seqs` are the numbers `batch_claim_seq` gives, and
`meanwhile` the heartbeats that commit while a transaction runs. -/
inductive ClaimEvent where
  | tick (clock : ℚ)
  | countLive (request : ClaimRequest)
  | readCandidates (model : String)
  | commitClaim (model : String) (seqs : List ℕ)
  | rollBackClaim (model : String)
  | checkLeases (id : ℕ) (worker : String) (places : List (ℕ × ℕ)) (leaseSeconds : ℚ)
  | commitHeartbeat (id : ℕ)
  | rollBackHeartbeat (id : ℕ)
  | transact (row : ℕ) (transaction : Transaction) (meanwhile : List ℕ)

namespace PendingClaim

def candidates (claim : PendingClaim) (read : ClaimTables) : List Offer :=
  read.candidates claim.model claim.startedAt claim.room

def served (claim : PendingClaim) (read now : ClaimTables) : List Offer :=
  (claim.candidates read).filter (now.stillClaimable claim.model claim.startedAt)

/-- The candidates that were no longer claimable when the claim locked and re-checked them. -/
def lost (claim : PendingClaim) (read now : ClaimTables) : List Offer :=
  (claim.candidates read).filter (!now.stillClaimable claim.model claim.startedAt ·)

end PendingClaim

namespace ClaimTables

def claim (tables : ClaimTables) (claim : PendingClaim) (read : ClaimTables) (seqs : List ℕ) :
    ClaimTables :=
  let served := claim.served read tables
  let batchesInOrder := (served.map Offer.row).dedup
  let usersInOrder := (served.map Offer.user).dedup
  { rows := tables.rows.mapIdx fun index row =>
      let ids := ((claim.candidates read).filter fun offer => offer.row = index).map Offer.item
      if ids.isEmpty then row
      else
        { row with
          claimSeq := ((batchesInOrder.zip seqs).lookup index).or row.claimSeq
          batch := row.batch.claimItems claim.worker claim.model ids claim.startedAt
            claim.leaseSeconds }
    userSeqs := fun user =>
      ((usersInOrder.zip (seqs.drop batchesInOrder.length)).lookup user).or (tables.userSeqs user) }

def renew (tables : ClaimTables) (beat : Heartbeat) : ClaimTables :=
  { tables with
    rows := tables.rows.mapIdx fun index row =>
      { row with batch := row.batch.renew (beat.ofRow index) } }

def write (tables : ClaimTables) (index : ℕ) (batch : StoredBatch) : ClaimTables :=
  { tables with rows := tables.rows.modify index fun row => { row with batch := batch } }

end ClaimTables

namespace ClaimWorld

def locked (world : ClaimWorld) (model : String) : Bool :=
  (world.pending.any fun claim => claim.model = model) ||
    world.beats.any fun beat => beat.models.contains model

def claimOf (world : ClaimWorld) (model : String) : Option PendingClaim :=
  world.pending.find? fun claim => claim.model = model

def otherClaims (world : ClaimWorld) (model : String) : List PendingClaim :=
  world.pending.filter fun claim => claim.model ≠ model

def grantsOf (world : ClaimWorld) (claim : PendingClaim) (read : ClaimTables) : List Grant :=
  (claim.served read world.tables).map fun offer =>
    { row := offer.row
      item := offer.item
      attempt := (world.tables.item? offer.row offer.item).elim 0 Item.attemptSeq + 1
      worker := claim.worker
      grantedAt := world.clock
      expiresAt := claim.startedAt + claim.leaseSeconds }

def extend (tables : ClaimTables) (beat : Heartbeat) (grant : Grant) : Grant :=
  if beat.items.contains (grant.row, grant.item) &&
      (tables.item? grant.row grant.item).any fun item =>
        item.status = .running && item.attemptSeq = grant.attempt then
    { grant with expiresAt := beat.expiresAt }
  else grant

def commitBeat (world : ClaimWorld) (beat : Heartbeat) : ClaimWorld :=
  { world with
    tables := world.tables.renew beat
    beats := world.beats.filter fun other => other.id ≠ beat.id
    grants := world.grants.map (extend world.tables beat) }

def endGrant (clock : ℚ) (row : ℕ) (reports : List Closing) (grant : Grant) : Grant :=
  if reports.any fun report =>
      grant.row = row && (grant.item = report.item && grant.attempt = report.attempt) then
    { grant with endedAt := some clock }
  else grant

/-- What a transaction has to wait for: a report for the row of its item, and
whoever clears the items of a batch for all of them. Claims and heartbeats are
events of their own. -/
def waits (world : ClaimWorld) (row : ℕ) : Transaction → Bool
  | .completeItem id _ _ _ _ | .retryItem id _ _ _ _ _ | .releaseItem id _ _ _ _ _ =>
    world.beats.any fun beat => beat.items.contains (row, id)
  | .resetStagedItems _ | .failValidation _ =>
    world.beats.any fun beat => beat.items.any fun place => place.1 = row
  | .claimItems _ _ _ _ _ | .heartbeat _ _ _ _ => true
  | _ => false

def transact (world : ClaimWorld) (index : ℕ) (transaction : Transaction) (meanwhile : List ℕ) :
    Option ClaimWorld :=
  world.tables.rows[index]?.bind fun row =>
    if world.waits index transaction then none
    else
      match row.batch.handsOver transaction with
      | none =>
        if meanwhile = [] then
          some { world with tables := world.tables.write index (row.batch.after transaction) }
        else none
      | some (handed, now, status) =>
        let committing := world.beats.filter fun beat => meanwhile.contains beat.id
        let others := world.beats.filter fun beat => !meanwhile.contains beat.id
        if others.any fun beat => handed.waitsFor now status (beat.ofRow index) then none
        else
          let reported : ClaimWorld :=
            { world with
              tables := world.tables.write index handed
              grants := world.grants.map
                (endGrant world.clock index (row.batch.reportOf transaction)) }
          let renewed := committing.foldl commitBeat reported
          some
            { renewed with
              tables := renewed.tables.write index
                (handed.settleAmid now status (committing.map fun beat => beat.ofRow index)) }

def step (world : ClaimWorld) : ClaimEvent → Option ClaimWorld
  | .tick clock => if world.clock ≤ clock then some { world with clock := clock } else none
  | .countLive request =>
    if world.locked request.model || decide (world.clock < request.startedAt) then none
    else if request.limit ≤ 0 ∨ request.maxRunning ≤ 0 then some world
    else
      let live := world.tables.live request.model request.startedAt
      let room := min request.limit (request.maxRunning - live)
      if room ≤ 0 then some world
      else
        some { world with pending := { request with room := room.toNat } :: world.pending }
  | .readCandidates model =>
    (world.claimOf model).bind fun claim =>
      if claim.read.isSome then none
      else if (claim.candidates world.tables).isEmpty then
        some { world with pending := world.otherClaims model }
      else
        some
          { world with
            pending := { claim with read := some world.tables } :: world.otherClaims model }
  | .commitClaim model seqs =>
    (world.claimOf model).bind fun claim => claim.read.map fun read =>
      { world with
        tables := world.tables.claim claim read seqs
        pending := world.otherClaims model
        grants := world.grants ++ world.grantsOf claim read }
  | .rollBackClaim model => some { world with pending := world.otherClaims model }
  | .checkLeases id worker places leaseSeconds =>
    let models := places.filterMap fun place =>
      (world.tables.item? place.1 place.2).map Item.modelId
    if models.any world.locked || world.beats.any fun beat => beat.id = id then none
    else
      let beat : Heartbeat :=
        { id := id
          models := models
          items := places.filter fun place =>
            (world.tables.item? place.1 place.2).any (Item.beats worker world.clock)
          expiresAt := world.clock + leaseSeconds }
      some { world with beats := beat :: world.beats }
  | .commitHeartbeat id =>
    some ((world.beats.filter fun beat => beat.id = id).foldl commitBeat world)
  | .rollBackHeartbeat id =>
    some { world with beats := world.beats.filter fun beat => beat.id ≠ id }
  | .transact row transaction meanwhile => world.transact row transaction meanwhile

end ClaimWorld

def claimMachine : Machine ClaimWorld ClaimEvent where
  step := ClaimWorld.step

open StoredBatch (Scope Stands)

namespace ClaimTables

variable {tables before after : ClaimTables} {scope : ℕ → Scope} {model : String} {now : ℚ}

structure Rests (scope : ℕ → Scope) (before after : ClaimTables) : Prop where
  kept : ∀ (index : ℕ) (row : QueuedBatch), before.rows[index]? = some row →
    ∃ later, after.rows[index]? = some later ∧ row.batch.Rests (scope index) later.batch
  known : ∀ (index : ℕ) (later : QueuedBatch), after.rows[index]? = some later →
    ∃ row, before.rows[index]? = some row

theorem item?_eq_some {row index : ℕ} {item : Item} : tables.item? row index = some item ↔
      ∃ found, tables.rows[row]? = some found ∧ found.batch.items[index]? = some item :=
  Option.bind_eq_some_iff

theorem write_rests {index : ℕ} {row : QueuedBatch} {batch : StoredBatch} {wide : Scope}
    (found : tables.rows[index]? = some row) (rests : row.batch.Rests wide batch) :
    tables.Rests (fun place => if place = index then wide else .nothing)
      (tables.write index batch) := by
  refine ⟨?_, ?_⟩
  · intro place old foundOld
    simp only [write, List.getElem?_modify, foundOld, Option.map_eq_map, Option.map_some]
    by_cases here : place = index
    · subst here
      rw [found] at foundOld
      cases foundOld
      simp only [if_true]
      exact ⟨_, rfl, rests⟩
    · rw [if_neg (Ne.symm here), if_neg here]
      exact ⟨_, rfl, .of_items rfl id⟩
  · intro place later foundLater
    simp only [write, List.getElem?_modify, Option.map_eq_map, Option.map_eq_some_iff] at foundLater
    rcases foundLater with ⟨old, foundOld, -⟩
    exact ⟨old, foundOld⟩

theorem renew_row (tables : ClaimTables) (beat : Heartbeat) (index : ℕ) :
    (tables.renew beat).rows[index]? = tables.rows[index]?.map fun row =>
      { row with batch := row.batch.renew (beat.ofRow index) } := by
  simp only [renew, List.getElem?_mapIdx]

theorem renew_rests (tables : ClaimTables) (beat : Heartbeat) :
    tables.Rests (fun place => .renewing [beat.ofRow place]) (tables.renew beat) := by
  refine ⟨?_, ?_⟩
  · intro index row found
    refine ⟨_, by rw [renew_row, found, Option.map_some], ?_⟩
    exact (StoredBatch.renew_quiet row.batch (List.mem_singleton_self _)).toRests
  · intro index later found
    rw [renew_row, Option.map_eq_some_iff] at found
    rcases found with ⟨row, foundRow, -⟩
    exact ⟨row, foundRow⟩

theorem live_le (rests : before.Rests scope after)
    (otherModels : ∀ (row index : ℕ), (scope row).renewed index → ∀ item,
      before.item? row index = some item → item.modelId ≠ model) :
    after.live model now ≤ before.live model now := by
  apply tally_le_of_places
  intro index later foundLater
  rcases rests.known index later foundLater with ⟨row, foundRow⟩
  rcases rests.kept index row foundRow with ⟨same, foundSame, batchRests⟩
  rw [foundLater] at foundSame
  cases foundSame
  rw [foundRow, Option.elim_some, countP_eq_tally, countP_eq_tally]
  apply tally_le_of_places
  intro place lease foundLease
  split_ifs with live
  · simp only [Item.live, Bool.and_eq_true, decide_eq_true_eq] at live
    rcases batchRests.running place lease foundLease live.2.1 with ⟨item, foundItem, stands⟩
    have sameModel : item.modelId = model := stands.modelId.symm.trans live.1
    have sameLease : lease.leaseExpiresAt = item.leaseExpiresAt := by
      rcases stands.leased live.2.1 with same | renewed
      · exact same
      · exact absurd sameModel
          (otherModels index place renewed item (item?_eq_some.mpr ⟨row, foundRow, foundItem⟩))
    have stillLive : item.live model now = true := by
      simp only [Item.live, Bool.and_eq_true, decide_eq_true_eq]
      exact ⟨sameModel, stands.running live.2.1, sameLease ▸ live.2.2⟩
    simp [foundItem, stillLive]
  · exact Nat.zero_le _

theorem item_of_rests (rests : before.Rests scope after) {row index : ℕ} {found : QueuedBatch}
    {item : Item} (foundRow : before.rows[row]? = some found)
    (foundItem : found.batch.items[index]? = some item)
    (kept : (scope row).cleared → found.batch.job.phase ≠ .validating) :
    ∃ later laterItem, after.rows[row]? = some later ∧ found.batch.Rests (scope row) later.batch ∧
      later.batch.items[index]? = some laterItem ∧ Stands (scope row) index item laterItem := by
  rcases rests.kept row found foundRow with ⟨later, foundLater, batchRests⟩
  rcases batchRests.kept index item foundItem with
    ⟨cleared, validating⟩ | ⟨laterItem, stays, stands⟩
  · exact absurd validating (kept cleared)
  · exact ⟨later, laterItem, foundLater, batchRests, stays, stands⟩

end ClaimTables

namespace Grant

/-- A grant against its item: while the item runs at its attempt the worker knows its lease, and
afterwards the lease is over. -/
structure Holds (grant : Grant) (item : Item) (clock : ℚ) : Prop where
  numbered : grant.attempt ≤ item.attemptSeq
  leased : item.status = .running → grant.attempt = item.attemptSeq →
    item.leaseExpiresAt = some grant.expiresAt
  ended : item.status = .queued ∨ grant.attempt < item.attemptSeq → grant.liveUntil ≤ clock

def Placed (tables : ClaimTables) (clock : ℚ) (grant : Grant) : Prop :=
  ∃ row item, tables.rows[grant.row]? = some row ∧ row.batch.items[grant.item]? = some item ∧
    row.batch.job.phase ≠ .validating ∧ grant.Holds item clock

variable {grant : Grant} {item later : Item} {clock : ℚ} {scope : Scope} {index : ℕ}

theorem liveUntil_le (grant : Grant) : grant.liveUntil ≤ grant.expiresAt := by
  unfold liveUntil
  cases grant.endedAt with
  | none => exact le_rfl
  | some ended => exact min_le_left _ _

theorem Holds.stands (holds : grant.Holds item clock) (stands : Stands scope index item later)
    (notRenewed : ¬ scope.renewed index) (notEnded : ¬ scope.ended index) :
    grant.Holds later clock where
  numbered := stands.attemptSeq ▸ holds.numbered
  leased := by
    intro runs current
    rcases stands.leased runs with same | renewed
    · rw [same]
      exact holds.leased (stands.running runs) (current.trans stands.attemptSeq)
    · exact absurd renewed notRenewed
  ended := by
    rintro (waits | earlier)
    · rcases stands.queued waits with waited | ended
      · exact holds.ended (Or.inl waited)
      · exact absurd ended notEnded
    · exact holds.ended (Or.inr (stands.attemptSeq ▸ earlier))

theorem Holds.over_of_claimable {startedAt : ℚ} (holds : grant.Holds item clock)
    (claimable : item.claimable startedAt = true) (started : startedAt ≤ clock) :
    grant.liveUntil ≤ clock := by
  simp only [Item.claimable, Item.leaseRanOut, Bool.or_eq_true, Bool.and_eq_true,
    decide_eq_true_eq] at claimable
  rcases claimable with ⟨queued, -⟩ | ⟨running, ranOut⟩
  · exact holds.ended (Or.inl queued)
  · rcases holds.numbered.lt_or_eq with earlier | current
    · exact holds.ended (Or.inr earlier)
    · rw [holds.leased running current] at ranOut
      have expired : grant.expiresAt ≤ startedAt := by simpa using ranOut
      exact (grant.liveUntil_le.trans expired).trans started

end Grant

namespace ClaimWorld

/-- What holds in every state: room for what a claim has counted, one holder of a model's lock, and
grants that follow one another. -/
structure Sound (world : ClaimWorld) : Prop where
  started : ∀ claim ∈ world.pending, claim.startedAt ≤ world.clock
  capped : ∀ claim ∈ world.pending,
    (world.tables.live claim.model claim.startedAt : ℤ) + claim.room ≤ claim.maxRunning ∧
      (claim.room : ℤ) ≤ claim.limit
  alone : world.pending.Pairwise fun first second => first.model ≠ second.model
  unbeaten : ∀ claim ∈ world.pending, ∀ beat ∈ world.beats, claim.model ∉ beat.models
  held : ∀ beat ∈ world.beats, ∀ place ∈ beat.items,
    ∃ item, world.tables.item? place.1 place.2 = some item ∧ item.modelId ∈ beat.models
  granted : ∀ grant ∈ world.grants, grant.Placed world.tables world.clock
  apart : world.grants.Pairwise fun earlier later =>
    earlier.row = later.row → earlier.item = later.item →
      earlier.attempt < later.attempt ∧ earlier.liveUntil ≤ later.grantedAt

namespace Sound

variable {world : ClaimWorld} {tables : ClaimTables} {scope : ℕ → Scope}

theorem fewer {pending : List PendingClaim} {beats : List Heartbeat} (sound : world.Sound)
    (claims : pending.Sublist world.pending) (heartbeats : beats.Sublist world.beats) :
    Sound { world with pending := pending, beats := beats } where
  started claim member := sound.started claim (claims.subset member)
  capped claim member := sound.capped claim (claims.subset member)
  alone := sound.alone.sublist claims
  unbeaten claim member beat beatMember :=
    sound.unbeaten claim (claims.subset member) beat (heartbeats.subset beatMember)
  held beat member := sound.held beat (heartbeats.subset member)
  granted := sound.granted
  apart := sound.apart

theorem rests (sound : world.Sound) (rests : world.tables.Rests scope tables)
    (update : Grant → Grant)
    (unheld : ∀ beat ∈ world.beats, ∀ place ∈ beat.items, ¬ (scope place.1).cleared)
    (otherModels : ∀ claim ∈ world.pending, ∀ row index, (scope row).renewed index → ∀ item,
      world.tables.item? row index = some item → item.modelId ≠ claim.model)
    (same : ∀ grant, (update grant).row = grant.row ∧ (update grant).item = grant.item ∧
      (update grant).attempt = grant.attempt ∧ (update grant).grantedAt = grant.grantedAt)
    (current : ∀ grant, (update grant).liveUntil = grant.liveUntil ∨
      ∃ item, world.tables.item? grant.row grant.item = some item ∧ grant.attempt = item.attemptSeq)
    (holds : ∀ grant item later, world.tables.item? grant.row grant.item = some item →
      tables.item? grant.row grant.item = some later →
      Stands (scope grant.row) grant.item item later → grant.Holds item world.clock →
      (update grant).Holds later world.clock) :
    Sound { world with tables := tables, grants := world.grants.map update } where
  started := sound.started
  capped := by
    intro claim member
    have fewer : tables.live claim.model claim.startedAt ≤
        world.tables.live claim.model claim.startedAt :=
      ClaimTables.live_le rests (otherModels claim member)
    have capped := sound.capped claim member
    refine ⟨?_, capped.2⟩
    dsimp only
    omega
  alone := sound.alone
  unbeaten := sound.unbeaten
  held := by
    intro beat member place placeMember
    rcases sound.held beat member place placeMember with ⟨item, found, itsModel⟩
    rcases ClaimTables.item?_eq_some.mp found with ⟨row, foundRow, foundItem⟩
    rcases ClaimTables.item_of_rests rests foundRow foundItem
      (fun cleared => absurd cleared (unheld beat member place placeMember)) with
      ⟨later, laterItem, foundLater, -, foundLaterItem, stands⟩
    refine ⟨laterItem, ClaimTables.item?_eq_some.mpr ⟨later, foundLater, foundLaterItem⟩, ?_⟩
    rw [stands.modelId]
    exact itsModel
  granted := by
    intro grant member
    rcases List.mem_map.mp member with ⟨old, oldMember, rfl⟩
    rcases sound.granted old oldMember with ⟨row, item, foundRow, foundItem, phase, oldHolds⟩
    rcases ClaimTables.item_of_rests rests foundRow foundItem (fun _ => phase) with
      ⟨later, laterItem, foundLater, batchRests, foundLaterItem, stands⟩
    rcases same old with ⟨sameRow, sameItem, -, -⟩
    refine ⟨later, laterItem, ?_, ?_, fun validating => phase (batchRests.phase validating), ?_⟩
    · rw [sameRow]
      exact foundLater
    · rw [sameItem]
      exact foundLaterItem
    · exact holds old item laterItem (ClaimTables.item?_eq_some.mpr ⟨row, foundRow, foundItem⟩)
        (ClaimTables.item?_eq_some.mpr ⟨later, foundLater, foundLaterItem⟩) stands oldHolds
  apart := by
    apply List.pairwise_map.mpr
    refine sound.apart.imp_of_mem ?_
    intro earlier later earlierMember laterMember ordered sameRow sameItem
    rcases same earlier with ⟨earlierRow, earlierItem, earlierAttempt, -⟩
    rcases same later with ⟨laterRow, laterItem, laterAttempt, laterGranted⟩
    rw [earlierRow, laterRow] at sameRow
    rw [earlierItem, laterItem] at sameItem
    rw [earlierAttempt, laterAttempt, laterGranted]
    rcases ordered sameRow sameItem with ⟨less, lapsed⟩
    refine ⟨less, ?_⟩
    rcases current earlier with unchanged | ⟨item, found, isCurrent⟩
    · rw [unchanged]
      exact lapsed
    · rcases sound.granted later laterMember with ⟨row, last, foundRow, foundLast, -, lastHolds⟩
      rw [sameRow, sameItem, ClaimTables.item?_eq_some.mpr ⟨row, foundRow, foundLast⟩] at found
      cases found
      have atMost := lastHolds.numbered
      omega

theorem tick (sound : world.Sound) {clock : ℚ} (later : world.clock ≤ clock) :
    Sound { world with clock := clock } where
  started claim member := (sound.started claim member).trans later
  capped := sound.capped
  alone := sound.alone
  unbeaten := sound.unbeaten
  held := sound.held
  granted := by
    intro grant member
    rcases sound.granted grant member with ⟨row, item, foundRow, foundItem, phase, holds⟩
    refine ⟨row, item, foundRow, foundItem, phase, holds.numbered, holds.leased, ?_⟩
    exact fun passed => (holds.ended passed).trans later
  apart := sound.apart

end Sound

def Owns (world : ClaimWorld) (beat : Heartbeat) : Prop :=
  (∀ place ∈ beat.items,
      ∃ item, world.tables.item? place.1 place.2 = some item ∧ item.modelId ∈ beat.models) ∧
    ∀ claim ∈ world.pending, claim.model ∉ beat.models

theorem Sound.owns {world : ClaimWorld} (sound : world.Sound) {beat : Heartbeat}
    (member : beat ∈ world.beats) : world.Owns beat :=
  ⟨sound.held beat member, fun claim claimMember => sound.unbeaten claim claimMember beat member⟩

section Heartbeats

variable {world : ClaimWorld} {beat : Heartbeat}

theorem mem_ofRow {row index : ℕ} : index ∈ (beat.ofRow row).items ↔ (row, index) ∈ beat.items := by
  simp only [Heartbeat.ofRow, List.mem_map, List.mem_filter, decide_eq_true_eq]
  constructor
  · rintro ⟨place, ⟨member, rfl⟩, rfl⟩
    exact member
  · intro member
    exact ⟨(row, index), ⟨member, rfl⟩, rfl⟩

theorem renew_item? (tables : ClaimTables) (beat : Heartbeat) (row index : ℕ) :
    (tables.renew beat).item? row index = (tables.item? row index).map fun item =>
      if beat.items.contains (row, index) then
        { item with leaseExpiresAt := some beat.expiresAt }
      else item := by
  unfold ClaimTables.item?
  rw [ClaimTables.renew_row]
  cases tables.rows[row]? with
  | none => rfl
  | some found =>
    have same : (beat.ofRow row).items.contains index = beat.items.contains (row, index) := by
      rw [Bool.eq_iff_iff, List.contains_iff_mem, List.contains_iff_mem]
      exact mem_ofRow
    simp only [Option.map_some, Option.bind_some, StoredBatch.renew_item, same]
    rfl

theorem extend_holds {grant : Grant} {item later : Item} {clock : ℚ}
    (found : world.tables.item? grant.row grant.item = some item)
    (foundLater : (world.tables.renew beat).item? grant.row grant.item = some later)
    (holds : grant.Holds item clock) :
    (extend world.tables beat grant).Holds later clock := by
  rw [renew_item?, found, Option.map_some, Option.some.injEq] at foundLater
  subst foundLater
  unfold extend
  rw [found, Option.any_some]
  by_cases renewed : beat.items.contains (grant.row, grant.item) = true
  · rw [if_pos renewed, renewed, Bool.true_and]
    by_cases running : item.status = .running ∧ item.attemptSeq = grant.attempt
    · rw [if_pos (by simpa using running)]
      refine ⟨holds.numbered, fun _ _ => rfl, ?_⟩
      rintro (waits | earlier)
      · rw [running.1] at waits
        cases waits
      · exact absurd running.2.symm earlier.ne
    · rw [if_neg (by simpa using running)]
      refine ⟨holds.numbered, ?_, holds.ended⟩
      exact fun runs current => absurd ⟨runs, current.symm⟩ running
  · simp only [renewed, Bool.false_and, Bool.false_eq_true, if_false]
    exact holds

theorem Sound.commitBeat (sound : world.Sound) (owns : world.Owns beat) :
    (world.commitBeat beat).Sound := by
  have renewed := sound.rests (world.tables.renew_rests beat) (extend world.tables beat)
    (fun _ _ _ _ cleared => cleared) ?_ ?_ ?_ ?_
  · exact renewed.fewer (List.Sublist.refl _) List.filter_sublist
  · intro claim member row index renews item found sameModel
    rcases renews with ⟨renewal, renewalMember, holds⟩
    cases List.mem_singleton.mp renewalMember
    rcases owns.1 (row, index) (mem_ofRow.mp holds) with ⟨same, foundSame, itsModel⟩
    rw [found] at foundSame
    cases foundSame
    exact owns.2 claim member (sameModel ▸ itsModel)
  · intro grant
    unfold extend
    split_ifs <;> exact ⟨rfl, rfl, rfl, rfl⟩
  · intro grant
    unfold extend
    split_ifs with extended
    · right
      simp only [Bool.and_eq_true, Option.any_eq_true] at extended
      rcases extended.2 with ⟨item, found, current⟩
      simp only [decide_eq_true_eq] at current
      exact ⟨item, found, current.2.symm⟩
    · exact Or.inl rfl
  · intro grant item later found foundLater _ holds
    exact extend_holds found foundLater holds

theorem Owns.commitBeat {other : Heartbeat} (owns : world.Owns other) :
    (world.commitBeat beat).Owns other := by
  refine ⟨?_, owns.2⟩
  intro place member
  rcases owns.1 place member with ⟨item, found, itsModel⟩
  refine ⟨_, by
    change (world.tables.renew beat).item? place.1 place.2 = _
    rw [renew_item?, found, Option.map_some], ?_⟩
  split_ifs <;> exact itsModel

theorem Sound.foldl_commitBeat (sound : world.Sound) {committing : List Heartbeat}
    (owns : ∀ beat ∈ committing, world.Owns beat) :
    (committing.foldl ClaimWorld.commitBeat world).Sound := by
  induction committing generalizing world with
  | nil => exact sound
  | cons beat rest ih =>
    refine ih (sound.commitBeat (owns beat (by simp))) ?_
    intro other member
    exact (owns other (by simp [member])).commitBeat

end Heartbeats

section Transact

variable {world next : ClaimWorld} {index : ℕ} {row : QueuedBatch} {batch : StoredBatch}

theorem Sound.write (sound : world.Sound) {wide : Scope}
    (found : world.tables.rows[index]? = some row) (rests : row.batch.Rests wide batch)
    (nothing : wide.ended = Scope.nothing.ended ∧ wide.renewed = Scope.nothing.renewed)
    (unheld : wide.cleared → ∀ beat ∈ world.beats, ∀ place ∈ beat.items, place.1 ≠ index) :
    Sound { world with tables := world.tables.write index batch } := by
  have never (place item : ℕ) : ¬ (if place = index then wide else Scope.nothing).renewed item ∧
        ¬ (if place = index then wide else Scope.nothing).ended item := by
    split_ifs
    · rw [nothing.1, nothing.2]
      exact ⟨id, id⟩
    · exact ⟨id, id⟩
  have written := sound.rests (ClaimTables.write_rests found rests) id ?_ ?_
    (fun _ => ⟨rfl, rfl, rfl, rfl⟩) (fun _ => Or.inl rfl) ?_
  · simpa using written
  · intro beat member place placeMember cleared
    split_ifs at cleared with here
    · exact unheld cleared beat member place placeMember here
    · exact cleared
  · intro claim _ place item renewed
    exact absurd renewed (never place item).1
  · intro grant item later _ _ stands holds
    exact holds.stands stands (never grant.row grant.item).1 (never grant.row grant.item).2

variable {transaction : Transaction}

theorem reportOf_current {report : Closing} (member : report ∈ batch.reportOf transaction) :
    ∃ item, batch.items[report.item]? = some item ∧ item.attemptSeq = report.attempt := by
  have guarded {id attempt : ℕ} {worker : String} {rewrite : Item → Item} {closedBy : ClosedBy}
      (reported : report ∈ if (batch.guardedItemWrite id worker attempt rewrite).isSome then
        [{ item := id, attempt := attempt, closedBy := closedBy : Closing }] else []) :
      ∃ item, batch.items[report.item]? = some item ∧ item.attemptSeq = report.attempt := by
    split_ifs at reported with some
    · cases List.mem_singleton.mp reported
      rcases Option.isSome_iff_exists.mp some with ⟨written, guarded⟩
      rcases StoredBatch.guardedItemWrite_cases guarded with ⟨item, found, -, current, -⟩
      exact ⟨item, found, current⟩
    · cases reported
  cases transaction with
  | completeItem id worker attempt report now => exact guarded member
  | retryItem id worker attempt report nextAttemptAt now => exact guarded member
  | releaseItem id worker attempt nextAttemptAt dispatched now => exact guarded member
  | _ => cases member

theorem Sound.report (sound : world.Sound) (found : world.tables.rows[index]? = some row)
    (rests : row.batch.Rests (.reporting (row.batch.reportOf transaction)) batch) :
    Sound { world with
      tables := world.tables.write index batch
      grants := world.grants.map
        (endGrant world.clock index (row.batch.reportOf transaction)) } := by
  refine sound.rests (ClaimTables.write_rests found rests) _ ?_ ?_ ?_ ?_ ?_
  · intro beat _ place _ cleared
    split_ifs at cleared
    · exact cleared
    · exact cleared
  · intro claim _ place item renewed
    split_ifs at renewed
    · exact renewed.elim
    · exact renewed.elim
  · intro grant
    unfold endGrant
    split_ifs <;> exact ⟨rfl, rfl, rfl, rfl⟩
  · intro grant
    unfold endGrant
    split_ifs with ended
    · right
      simp only [List.any_eq_true, Bool.and_eq_true, decide_eq_true_eq] at ended
      rcases ended with ⟨report, member, sameRow, sameItem, sameAttempt⟩
      rcases reportOf_current member with ⟨item, foundItem, current⟩
      refine ⟨item, ?_, sameAttempt.trans current.symm⟩
      rw [sameRow, sameItem]
      exact ClaimTables.item?_eq_some.mpr ⟨row, found, foundItem⟩
    · exact Or.inl rfl
  · intro grant item later foundItem _ stands holds
    have leased (runs : later.status = .running) (isCurrent : grant.attempt = later.attemptSeq) :
        later.leaseExpiresAt = some grant.expiresAt := by
      have same : later.leaseExpiresAt = item.leaseExpiresAt := by
        rcases stands.leased runs with same | renewed
        · exact same
        · split_ifs at renewed <;> exact renewed.elim
      rw [same]
      exact holds.leased (stands.running runs) (isCurrent.trans stands.attemptSeq)
    have numbered : grant.attempt ≤ later.attemptSeq := stands.attemptSeq ▸ holds.numbered
    unfold endGrant
    split_ifs with ended
    · exact ⟨numbered, leased, fun _ => min_le_right _ _⟩
    · refine ⟨numbered, leased, ?_⟩
      rintro (waits | earlier)
      · rcases stands.queued waits with waited | reported
        · exact holds.ended (Or.inl waited)
        · split_ifs at reported with here
          · rcases reported with ⟨report, member, sameItem⟩
            rcases reportOf_current member with ⟨reportedItem, foundReported, current⟩
            rw [here, ← sameItem,
              ClaimTables.item?_eq_some.mpr ⟨row, found, foundReported⟩] at foundItem
            cases foundItem
            refine holds.ended (Or.inr (holds.numbered.lt_of_ne ?_))
            intro isCurrent
            apply ended
            simp only [List.any_eq_true, Bool.and_eq_true, decide_eq_true_eq]
            exact ⟨report, member, here, sameItem.symm, isCurrent.trans current⟩
          · exact reported.elim
      · exact holds.ended (Or.inr (stands.attemptSeq ▸ earlier))

theorem foldl_commitBeat_row (committing : List Heartbeat) (world : ClaimWorld) (index : ℕ) :
    (committing.foldl commitBeat world).tables.rows[index]? =
      world.tables.rows[index]?.map fun row =>
        { row with
          batch := (committing.map fun beat => beat.ofRow index).foldl StoredBatch.renew
            row.batch } := by
  induction committing generalizing world with
  | nil => simp
  | cons beat rest ih =>
    rw [List.foldl_cons, ih]
    simp only [commitBeat, ClaimTables.renew_row, Option.map_map, List.map_cons, List.foldl_cons]
    rfl

theorem write_row {tables : ClaimTables} (found : tables.rows[index]? = some row) :
    (tables.write index batch).rows[index]? = some { row with batch := batch } := by
  simp [ClaimTables.write, found]

theorem Owns.report {beat : Heartbeat} (owns : world.Owns beat)
    (found : world.tables.rows[index]? = some row) (grants : List Grant)
    (rests : row.batch.Rests (.reporting (row.batch.reportOf transaction)) batch) :
    Owns { world with tables := world.tables.write index batch, grants := grants } beat := by
  refine ⟨?_, owns.2⟩
  intro place member
  rcases owns.1 place member with ⟨item, foundItem, itsModel⟩
  rcases ClaimTables.item?_eq_some.mp foundItem with ⟨its, foundIts, inIts⟩
  rcases ClaimTables.item_of_rests (ClaimTables.write_rests found rests) foundIts inIts
    (fun cleared => by split_ifs at cleared <;> exact cleared.elim) with
    ⟨later, laterItem, foundLater, -, foundLaterItem, stands⟩
  refine ⟨laterItem, ClaimTables.item?_eq_some.mpr ⟨later, foundLater, foundLaterItem⟩, ?_⟩
  rw [stands.modelId]
  exact itsModel

theorem scopeOf_nothing (transaction : Transaction) :
    (StoredBatch.scopeOf transaction).ended = Scope.nothing.ended ∧
      (StoredBatch.scopeOf transaction).renewed = Scope.nothing.renewed := by
  cases transaction <;> exact ⟨rfl, rfl⟩

theorem starts_of_not_waits (starts : ¬ world.waits index transaction = true) :
    transaction.claims = false ∧ transaction.beats = false ∧
      ((StoredBatch.scopeOf transaction).cleared →
        ∀ beat ∈ world.beats, ∀ place ∈ beat.items, place.1 ≠ index) := by
  have unheld (clears : ¬ (world.beats.any fun beat =>
      beat.items.any fun place => place.1 = index) = true) :
      ∀ beat ∈ world.beats, ∀ place ∈ beat.items, place.1 ≠ index := by
    intro beat member place placeMember here
    apply clears
    simp only [List.any_eq_true, decide_eq_true_eq]
    exact ⟨beat, member, place, placeMember, here⟩
  cases transaction with
  | claimItems worker model ids now leaseSeconds => exact absurd rfl starts
  | heartbeat worker ids now leaseSeconds => exact absurd rfl starts
  | resetStagedItems worker | failValidation worker =>
    exact ⟨rfl, rfl, fun _ => unheld starts⟩
  | _ => exact ⟨rfl, rfl, fun cleared => cleared.elim⟩

theorem Sound.transact (sound : world.Sound) {meanwhile : List ℕ}
    (stepped : world.transact index transaction meanwhile = some next) : next.Sound := by
  rcases Option.bind_eq_some_iff.mp stepped with ⟨row, found, committed⟩
  by_cases waits : world.waits index transaction = true
  · rw [if_pos waits] at committed
    cases committed
  · rw [if_neg waits] at committed
    cases hands : row.batch.handsOver transaction with
    | none =>
      simp only [hands] at committed
      split_ifs at committed
      cases committed
      rcases starts_of_not_waits waits with ⟨notClaim, notBeat, unheld⟩
      exact sound.write found (StoredBatch.after_rests hands notClaim notBeat)
        (scopeOf_nothing transaction) unheld
    | some settlement =>
      rcases settlement with ⟨handed, now, status⟩
      simp only [hands] at committed
      split_ifs at committed
      cases committed
      have rests := StoredBatch.handsOver_rests hands
      have reported := sound.report found rests
      have owned (beat : Heartbeat)
          (member : beat ∈ world.beats.filter fun beat => meanwhile.contains beat.id) :
          Owns { world with
            tables := world.tables.write index handed
            grants := world.grants.map
              (endGrant world.clock index (row.batch.reportOf transaction)) } beat :=
        (sound.owns (List.mem_of_mem_filter member)).report found _ rests
      have renewed := reported.foldl_commitBeat owned
      have foundHanded := foldl_commitBeat_row
        (world.beats.filter fun beat => meanwhile.contains beat.id)
        { world with
          tables := world.tables.write index handed
          grants := world.grants.map
            (endGrant world.clock index (row.batch.reportOf transaction)) } index
      rw [write_row found, Option.map_some] at foundHanded
      exact renewed.write foundHanded (StoredBatch.settleAmid_rests handed now status _)
        ⟨rfl, rfl⟩ (fun cleared => cleared.elim)

end Transact

section Claims

variable {world : ClaimWorld} {claim : PendingClaim} {read tables : ClaimTables} {seqs : List ℕ}

def takesPlace (claim : PendingClaim) (read tables : ClaimTables) (row index : ℕ) : Bool :=
  (claim.served read tables).any fun offer => offer.row = row && offer.item = index

theorem takesPlace_iff (claim : PendingClaim) (read : ClaimTables) {row index : ℕ}
    {found : QueuedBatch} {item : Item} (foundRow : tables.rows[row]? = some found)
    (foundItem : found.batch.items[index]? = some item) :
    takesPlace claim read tables row index = true ↔
      (∃ offer ∈ claim.candidates read, offer.row = row ∧ offer.item = index) ∧
        found.batch.job.claimable claim.startedAt = true ∧
        item.modelId = claim.model ∧ item.claimable claim.startedAt = true := by
  simp only [takesPlace, List.any_eq_true, PendingClaim.served, List.mem_filter, Bool.and_eq_true,
    decide_eq_true_eq]
  constructor
  · rintro ⟨offer, ⟨member, still⟩, rfl, rfl⟩
    simp only [ClaimTables.stillClaimable, foundRow, foundItem, Option.any_some,
      Bool.and_eq_true, decide_eq_true_eq] at still
    exact ⟨⟨offer, member, rfl, rfl⟩, still⟩
  · rintro ⟨⟨offer, member, rfl, rfl⟩, still⟩
    refine ⟨offer, ⟨member, ?_⟩, rfl, rfl⟩
    simp only [ClaimTables.stillClaimable, foundRow, foundItem, Option.any_some,
      Bool.and_eq_true, decide_eq_true_eq]
    exact still

theorem claim_item (claim : PendingClaim) (read : ClaimTables) (seqs : List ℕ) {row index : ℕ}
    {found : QueuedBatch} {item : Item} (foundRow : tables.rows[row]? = some found)
    (foundItem : found.batch.items[index]? = some item) :
    ∃ later costStatus, (tables.claim claim read seqs).rows[row]? = some later ∧
      later.batch.job.phase = found.batch.job.phase ∧
      later.batch.items[index]? = some (if takesPlace claim read tables row index then
        { item.claim claim.worker claim.startedAt claim.leaseSeconds with
          costStatus := costStatus }
      else { item with costStatus := costStatus }) := by
  have taken := takesPlace_iff claim read foundRow foundItem
  simp only [ClaimTables.claim, List.getElem?_mapIdx, foundRow, Option.map_some]
  by_cases none : (((claim.candidates read).filter fun offer => offer.row = row).map
      Offer.item).isEmpty = true
  · have notTaken : ¬ takesPlace claim read tables row index = true := by
      intro takes
      rcases (taken.mp takes).1 with ⟨offer, member, sameRow, sameItem⟩
      rw [List.isEmpty_iff, List.map_eq_nil_iff] at none
      have inRow : offer ∈ (claim.candidates read).filter fun offer => offer.row = row := by
        simp [member, sameRow]
      rw [none] at inRow
      cases inRow
    rw [if_pos none]
    refine ⟨found, item.costStatus, rfl, rfl, ?_⟩
    rw [if_neg notTaken]
    exact foundItem
  · rw [if_neg none]
    rcases StoredBatch.claimItems_item claim.worker claim.model
      (((claim.candidates read).filter fun offer => offer.row = row).map Offer.item)
      claim.startedAt claim.leaseSeconds foundItem with ⟨costStatus, foundLater⟩
    refine ⟨_, costStatus, rfl, StoredBatch.claimItems_phase _ _ _ _ _ _, ?_⟩
    rw [foundLater]
    congr 1
    have same : (found.batch.job.claimable claim.startedAt && StoredBatch.takes claim.model
        (((claim.candidates read).filter fun offer => offer.row = row).map Offer.item)
        claim.startedAt index item) = takesPlace claim read tables row index := by
      rw [Bool.eq_iff_iff, taken]
      simp only [StoredBatch.takes, Bool.and_eq_true, List.contains_iff_mem, List.mem_map,
        List.mem_filter, decide_eq_true_eq]
      constructor
      · rintro ⟨claimable, ⟨offer, ⟨member, sameRow⟩, sameItem⟩, rest⟩
        exact ⟨⟨offer, member, sameRow, sameItem⟩, claimable, rest⟩
      · rintro ⟨⟨offer, member, sameRow, sameItem⟩, claimable, rest⟩
        exact ⟨claimable, ⟨offer, ⟨member, sameRow⟩, sameItem⟩, rest⟩
    rw [same]

theorem claim_known {row : ℕ} {later : QueuedBatch}
    (foundLater : (tables.claim claim read seqs).rows[row]? = some later) :
    ∃ found, tables.rows[row]? = some found ∧
      later.batch.items.length = found.batch.items.length := by
  simp only [ClaimTables.claim, List.getElem?_mapIdx, Option.map_eq_some_iff] at foundLater
  rcases foundLater with ⟨found, foundRow, rfl⟩
  refine ⟨found, foundRow, ?_⟩
  split_ifs
  · rfl
  · exact StoredBatch.claimItems_length _ _ _ _ _ _

theorem claim_live_le (tables : ClaimTables) (claim : PendingClaim) (read : ClaimTables)
    (seqs : List ℕ) (model : String) (now : ℚ) :
    (tables.claim claim read seqs).live model now ≤ tables.live model now +
      (if model = claim.model then claim.served read tables else []).length := by
  apply tally_le_add_marked Offer.row
  intro row later foundLater
  rcases claim_known foundLater with ⟨found, foundRow, sameLength⟩
  rw [foundRow, Option.elim_some, countP_eq_tally, countP_eq_tally, List.countP_eq_length_filter]
  apply tally_le_add_marked Offer.item
  intro index item foundItem
  have inside : index < found.batch.items.length := by
    rw [← sameLength]
    exact (List.getElem?_eq_some_iff.mp foundItem).1
  have foundOld : found.batch.items[index]? = some found.batch.items[index] :=
    List.getElem?_eq_getElem inside
  rcases claim_item claim read seqs foundRow foundOld with
    ⟨same, costStatus, foundSame, -, shape⟩
  rw [foundLater] at foundSame
  cases foundSame
  rw [foundItem] at shape
  cases shape
  rw [foundOld, Option.elim_some]
  by_cases taken : takesPlace claim read tables row index = true
  · have itsModel := ((takesPlace_iff claim read foundRow foundOld).mp taken).2.2.1
    by_cases sameModel : model = claim.model
    · rw [if_pos sameModel]
      have marked : 0 < ((claim.served read tables).filter fun offer => offer.row = row).countP
          fun offer => offer.item = index := by
        simp only [takesPlace, List.any_eq_true, Bool.and_eq_true, decide_eq_true_eq] at taken
        rcases taken with ⟨offer, member, sameRow, sameItem⟩
        apply List.countP_pos_iff.mpr
        exact ⟨offer, by simp [member, sameRow], by simp [sameItem]⟩
      split_ifs <;> omega
    · have notLive : Item.live model now { found.batch.items[index].claim claim.worker
          claim.startedAt claim.leaseSeconds with costStatus := costStatus } = false := by
        simp [Item.live, Item.claim, itsModel, Ne.symm sameModel]
      rw [if_pos taken, notLive]
      exact Nat.zero_le _
  · rw [if_neg taken]
    exact Nat.le_add_right _ _

theorem item_of_served {offer : Offer} (member : offer ∈ claim.served read tables) :
    ∃ row item, tables.rows[offer.row]? = some row ∧
      row.batch.items[offer.item]? = some item ∧ row.batch.job.phase = .runnable ∧
      item.claimable claim.startedAt = true ∧
      takesPlace claim read tables offer.row offer.item = true := by
  have still := (List.mem_filter.mp member).2
  simp only [ClaimTables.stillClaimable, Option.any_eq_true, Bool.and_eq_true] at still
  rcases still with ⟨row, foundRow, claimable, item, foundItem, -, itemClaimable⟩
  refine ⟨row, item, foundRow, foundItem, ?_, itemClaimable, ?_⟩
  · simp only [Job.claimable, Bool.and_eq_true, decide_eq_true_eq] at claimable
    exact claimable.1.1.1.1
  · simp only [takesPlace, List.any_eq_true, Bool.and_eq_true, decide_eq_true_eq]
    exact ⟨offer, member, rfl, rfl⟩

theorem Sound.commitClaim (sound : world.Sound) {model : String}
    (found : world.claimOf model = some claim) (read : ClaimTables) (seqs : List ℕ) :
    Sound { world with
      tables := world.tables.claim claim read seqs
      pending := world.otherClaims model
      grants := world.grants ++ world.grantsOf claim read } := by
  have itsModel : claim.model = model := by simpa using List.find?_some found
  have started := sound.started claim (List.mem_of_find?_eq_some found)
  have others : (world.otherClaims model).Sublist world.pending := List.filter_sublist
  refine ⟨?_, ?_, sound.alone.sublist others, ?_, ?_, ?_, ?_⟩
  · exact fun other member => sound.started other (others.subset member)
  · intro other member
    have capped := sound.capped other (others.subset member)
    have fewer := claim_live_le world.tables claim read seqs other.model other.startedAt
    have apart : other.model ≠ claim.model := by
      rw [itsModel]
      simpa using (List.mem_filter.mp member).2
    rw [if_neg apart, List.length_nil] at fewer
    refine ⟨?_, capped.2⟩
    dsimp only
    omega
  · exact fun other member => sound.unbeaten other (others.subset member)
  · intro beat member place placeMember
    rcases sound.held beat member place placeMember with ⟨item, foundItem, beatModel⟩
    rcases ClaimTables.item?_eq_some.mp foundItem with ⟨row, foundRow, inRow⟩
    rcases claim_item claim read seqs foundRow inRow with
      ⟨later, costStatus, foundLater, -, shape⟩
    refine ⟨_, ClaimTables.item?_eq_some.mpr ⟨later, foundLater, shape⟩, ?_⟩
    split_ifs <;> exact beatModel
  · intro grant member
    rcases List.mem_append.mp member with old | fresh
    · rcases sound.granted grant old with ⟨row, item, foundRow, foundItem, phase, holds⟩
      rcases claim_item claim read seqs foundRow foundItem with
        ⟨later, costStatus, foundLater, samePhase, shape⟩
      refine ⟨later, _, foundLater, shape, samePhase ▸ phase, ?_⟩
      split_ifs with taken
      · have claimable := ((takesPlace_iff claim read foundRow foundItem).mp taken).2.2.2
        refine ⟨Nat.le_succ_of_le holds.numbered, ?_, ?_⟩
        · intro _ current
          exact absurd current (Nat.lt_succ_of_le holds.numbered).ne
        · exact fun _ => holds.over_of_claimable claimable started
      · exact ⟨holds.numbered, holds.leased, holds.ended⟩
    · rcases List.mem_map.mp fresh with ⟨offer, served, rfl⟩
      rcases item_of_served served with ⟨row, item, foundRow, foundItem, runnable, -, taken⟩
      rcases claim_item claim read seqs foundRow foundItem with
        ⟨later, costStatus, foundLater, samePhase, shape⟩
      rw [if_pos taken] at shape
      refine ⟨later, _, foundLater, shape, ?_, ?_, ?_, ?_⟩
      · rw [samePhase, runnable]
        exact Phase.noConfusion
      · rw [ClaimTables.item?_eq_some.mpr ⟨row, foundRow, foundItem⟩]
        exact le_rfl
      · exact fun _ _ => rfl
      · rw [ClaimTables.item?_eq_some.mpr ⟨row, foundRow, foundItem⟩]
        rintro (waits | earlier)
        · cases waits
        · exact absurd earlier (lt_irrefl _)
  · apply List.pairwise_append.mpr
    refine ⟨sound.apart, ?_, ?_⟩
    · apply List.pairwise_map.mpr
      have places := (read.candidates_apart claim.model claim.startedAt claim.room).filter
        (world.tables.stillClaimable claim.model claim.startedAt)
      apply places.imp
      intro first second differ sameRow sameItem
      exact absurd (Prod.ext sameRow sameItem) differ
    · intro earlier earlierMember later laterMember sameRow sameItem
      rcases List.mem_map.mp laterMember with ⟨offer, served, rfl⟩
      rcases item_of_served served with ⟨row, item, foundRow, foundItem, -, claimable, -⟩
      rcases sound.granted earlier earlierMember with
        ⟨itsRow, itsItem, foundItsRow, foundItsItem, -, holds⟩
      rw [sameRow, foundRow] at foundItsRow
      cases foundItsRow
      rw [sameItem, foundItem] at foundItsItem
      cases foundItsItem
      rw [ClaimTables.item?_eq_some.mpr ⟨row, foundRow, foundItem⟩]
      exact ⟨Nat.lt_succ_of_le holds.numbered, holds.over_of_claimable claimable started⟩

end Claims

section Locks

variable {world : ClaimWorld}

theorem Sound.begins (sound : world.Sound) {claim : PendingClaim}
    (started : claim.startedAt ≤ world.clock)
    (capped : (world.tables.live claim.model claim.startedAt : ℤ) + claim.room ≤
      claim.maxRunning ∧ (claim.room : ℤ) ≤ claim.limit)
    (alone : ∀ other ∈ world.pending, claim.model ≠ other.model)
    (unbeaten : ∀ beat ∈ world.beats, claim.model ∉ beat.models) :
    Sound { world with pending := claim :: world.pending } := by
  refine ⟨?_, ?_, List.Pairwise.cons alone sound.alone, ?_, sound.held, sound.granted, sound.apart⟩
  · intro other member
    rcases List.mem_cons.mp member with rfl | older
    · exact started
    · exact sound.started other older
  · intro other member
    rcases List.mem_cons.mp member with rfl | older
    · exact capped
    · exact sound.capped other older
  · intro other member
    rcases List.mem_cons.mp member with rfl | older
    · exact unbeaten
    · exact sound.unbeaten other older

theorem locked_eq_false {model : String} (free : ¬ world.locked model = true) :
    (∀ claim ∈ world.pending, model ≠ claim.model) ∧ ∀ beat ∈ world.beats, model ∉ beat.models := by
  simp only [locked, Bool.or_eq_true, List.any_eq_true, decide_eq_true_eq, List.contains_iff_mem,
    not_or, not_exists, not_and] at free
  exact ⟨fun claim member same => free.1 claim member same.symm, free.2⟩

theorem Sound.countLive (sound : world.Sound) {request : ClaimRequest}
    (free : ¬ world.locked request.model = true) (started : request.startedAt ≤ world.clock)
    (room : 0 < min request.limit
      (request.maxRunning - world.tables.live request.model request.startedAt)) :
    Sound { world with
      pending :=
        { request with
          room := (min request.limit (request.maxRunning -
            world.tables.live request.model request.startedAt)).toNat } :: world.pending } := by
  rcases locked_eq_false free with ⟨alone, unbeaten⟩
  refine sound.begins started ?_ alone unbeaten
  have counted := Int.toNat_of_nonneg room.le
  dsimp only
  omega

theorem Sound.readCandidates (sound : world.Sound) {model : String} {claim : PendingClaim}
    (found : world.claimOf model = some claim) (read : Option ClaimTables) :
    Sound { world with
      pending := { claim with read := read } :: world.otherClaims model } := by
  have member := List.mem_of_find?_eq_some found
  have itsModel : claim.model = model := by simpa using List.find?_some found
  have fewer : Sound { world with pending := world.otherClaims model, beats := world.beats } :=
    sound.fewer List.filter_sublist (List.Sublist.refl _)
  refine fewer.begins (sound.started claim member) (sound.capped claim member) ?_
    (sound.unbeaten claim member)
  intro other otherMember
  rw [itsModel]
  exact Ne.symm (by simpa using (List.mem_filter.mp otherMember).2)

theorem Sound.checkLeases (sound : world.Sound) {beat : Heartbeat}
    (free : ∀ model ∈ beat.models, ¬ world.locked model = true)
    (held : ∀ place ∈ beat.items,
      ∃ item, world.tables.item? place.1 place.2 = some item ∧ item.modelId ∈ beat.models) :
    Sound { world with beats := beat :: world.beats } := by
  refine ⟨sound.started, sound.capped, sound.alone, ?_, ?_, sound.granted, sound.apart⟩
  · intro claim member other otherMember
    rcases List.mem_cons.mp otherMember with rfl | older
    · intro shared
      exact (locked_eq_false (free claim.model shared)).1 claim member rfl
    · exact sound.unbeaten claim member other older
  · intro other otherMember
    rcases List.mem_cons.mp otherMember with rfl | older
    · exact held
    · exact sound.held other older

end Locks

/-- One event keeps the claims' tables sound. -/
theorem Sound.step {world next : ClaimWorld} (sound : world.Sound) {event : ClaimEvent}
    (stepped : claimMachine.step world event = some next) : next.Sound := by
  cases event <;> simp only [claimMachine, ClaimWorld.step] at stepped
  case tick clock =>
    split_ifs at stepped with later
    cases stepped
    exact sound.tick later
  case countLive request =>
    split_ifs at stepped with busy invalid full <;> cases stepped
    · exact sound
    · exact sound
    · simp only [Bool.or_eq_true, decide_eq_true_eq, not_or, not_lt] at busy
      exact sound.countLive busy.1 busy.2 (not_le.mp full)
  case readCandidates model =>
    rcases Option.bind_eq_some_iff.mp stepped with ⟨claim, found, reads⟩
    split_ifs at reads <;> cases reads
    · exact sound.fewer List.filter_sublist (List.Sublist.refl _)
    · exact sound.readCandidates found (some world.tables)
  case commitClaim model seqs =>
    rcases Option.bind_eq_some_iff.mp stepped with ⟨claim, found, commits⟩
    rcases Option.map_eq_some_iff.mp commits with ⟨read, -, rfl⟩
    exact sound.commitClaim found read seqs
  case rollBackClaim model =>
    cases stepped
    exact sound.fewer List.filter_sublist (List.Sublist.refl _)
  case checkLeases id worker places leaseSeconds =>
    split_ifs at stepped with busy
    cases stepped
    simp only [Bool.or_eq_true, List.any_eq_true, not_or, not_exists, not_and] at busy
    refine sound.checkLeases busy.1 ?_
    intro place member
    rcases List.mem_filter.mp member with ⟨requested, beats⟩
    rcases (Option.any_eq_true _ _).mp beats with ⟨item, found, -⟩
    exact ⟨item, found, List.mem_filterMap.mpr ⟨place, requested, by rw [found]; rfl⟩⟩
  case commitHeartbeat id =>
    cases stepped
    apply sound.foldl_commitBeat
    intro beat member
    exact sound.owns (List.mem_of_mem_filter member)
  case rollBackHeartbeat id =>
    cases stepped
    exact sound.fewer (List.Sublist.refl _) List.filter_sublist
  case transact row transaction meanwhile => exact sound.transact stepped

section Commit

variable {claim : PendingClaim} {read tables : ClaimTables}

theorem live_mono (tables : ClaimTables) (model : String) {earlier later : ℚ}
    (le : earlier ≤ later) : tables.live model later ≤ tables.live model earlier := by
  apply tally_le_tally
  intro row _
  apply List.countP_mono_left
  intro item _ live
  simp only [Item.live, Bool.and_eq_true, decide_eq_true_eq] at live ⊢
  refine ⟨live.1, live.2.1, ?_⟩
  rcases (Option.any_eq_true _ _).mp live.2.2 with ⟨lease, itsLease, beyond⟩
  rw [itsLease]
  simp only [decide_eq_true_eq, Option.any_some] at beyond ⊢
  exact le.trans_lt beyond

theorem length_served_le (claim : PendingClaim) (read tables : ClaimTables) :
    (claim.served read tables).length ≤ claim.room :=
  (List.length_filter_le _ _).trans (read.length_candidates_le _ _ _)

theorem served_not_live {offer : Offer} (member : offer ∈ claim.served read tables) :
    ∃ item, tables.item? offer.row offer.item = some item ∧
      item.live claim.model claim.startedAt = false := by
  rcases item_of_served member with ⟨row, item, foundRow, foundItem, -, claimable, -⟩
  refine ⟨item, ClaimTables.item?_eq_some.mpr ⟨row, foundRow, foundItem⟩, ?_⟩
  simp only [Item.claimable, Item.leaseRanOut, Bool.or_eq_true, Bool.and_eq_true,
    decide_eq_true_eq] at claimable
  rcases claimable with ⟨queued, -⟩ | ⟨running, ranOut⟩
  · simp [Item.live, queued]
  · rcases (Option.any_eq_true _ _).mp ranOut with ⟨lease, itsLease, expired⟩
    simp only [decide_eq_true_eq] at expired
    simp [Item.live, itsLease, expired]

/-- A candidate is served or lost. -/
theorem mem_candidates_iff {offer : Offer} : offer ∈ claim.candidates read ↔
    offer ∈ claim.served read tables ∨ offer ∈ claim.lost read tables := by
  simp only [PendingClaim.served, PendingClaim.lost, List.mem_filter, Bool.not_eq_true']
  cases tables.stillClaimable claim.model claim.startedAt offer <;> simp

theorem countP_candidates (test : Offer → Bool) : (claim.candidates read).countP test =
    (claim.served read tables).countP test + (claim.lost read tables).countP test :=
  List.countP_eq_countP_filter_add _ _ _

/-- Whoever got at least two items more than another got and lost together is ahead of that one
among the candidates as well. -/
theorem ahead_among_candidates {first second : Offer → Bool}
    (ahead : (claim.served read tables).countP second + (claim.lost read tables).countP second + 2 ≤
      (claim.served read tables).countP first) :
    (claim.candidates read).countP second + 2 ≤ (claim.candidates read).countP first := by
  rw [@countP_candidates _ _ tables second]
  exact ahead.trans List.filter_sublist.countP_le

end Commit

/-- In every run from any tables: the leases of an item follow one another, a claim stays within
both caps, and it serves users and batches in turn: when one of them got at least two items more
than another got and lost together, nothing of the other was left out. -/
theorem claims_capped_apart_and_in_turn {tables : ClaimTables} {clock : ℚ}
    {events : List ClaimEvent} {world : ClaimWorld}
    (ran : claimMachine.run { tables := tables, clock := clock } events = some world) :
    (world.grants.Pairwise fun earlier later =>
        earlier.row = later.row → earlier.item = later.item → earlier.liveUntil ≤ later.grantedAt) ∧
      ∀ (model : String) (claim : PendingClaim) (read : ClaimTables) (seqs : List ℕ)
        (next : ClaimWorld), world.claimOf model = some claim → claim.read = some read →
        claimMachine.step world (.commitClaim model seqs) = some next →
        ((claim.served read world.tables).length : ℤ) ≤ claim.limit ∧
        (∀ now, claim.startedAt ≤ now → (next.tables.live claim.model now : ℤ) ≤ claim.maxRunning) ∧
        (∀ offer ∈ claim.served read world.tables,
          ∃ item, world.tables.item? offer.row offer.item = some item ∧
            item.live claim.model claim.startedAt = false) ∧
        (∀ first second : String,
          (claim.served read world.tables).countP (fun offer => offer.user = second) +
              (claim.lost read world.tables).countP (fun offer => offer.user = second) + 2 ≤
            (claim.served read world.tables).countP (fun offer => offer.user = first) →
          ∀ offer ∈ read.offers claim.model claim.startedAt, offer.user = second →
            offer ∈ claim.served read world.tables ∨ offer ∈ claim.lost read world.tables) ∧
        (∀ first second : ℕ, read.rows[first]?.map QueuedBatch.user =
            read.rows[second]?.map QueuedBatch.user →
          (claim.served read world.tables).countP (fun offer => offer.row = second) +
              (claim.lost read world.tables).countP (fun offer => offer.row = second) + 2 ≤
            (claim.served read world.tables).countP (fun offer => offer.row = first) →
          ∀ offer ∈ read.offers claim.model claim.startedAt, offer.row = second →
            offer ∈ claim.served read world.tables ∨ offer ∈ claim.lost read world.tables) := by
  have initial : Sound { tables := tables, clock := clock } := by
    constructor <;> simp
  have preserved (before : ClaimWorld) (event : ClaimEvent) (after : ClaimWorld)
      (sound : before.Sound) (stepped : claimMachine.step before event = some after) :
      after.Sound := sound.step stepped
  have sound := Machine.run_invariant preserved initial ran
  refine ⟨?_, ?_⟩
  · apply sound.apart.imp
    intro earlier later ordered sameRow sameItem
    exact (ordered sameRow sameItem).2
  · intro model claim read seqs next found itsRead stepped
    have capped := sound.capped claim (List.mem_of_find?_eq_some found)
    have few := length_served_le claim read world.tables
    refine ⟨by omega, ?_, fun offer member => served_not_live member, ?_, ?_⟩
    · intro now le
      simp only [claimMachine, ClaimWorld.step, found, Option.bind_some, itsRead,
        Option.map_some, Option.some.injEq] at stepped
      subst stepped
      have later := live_mono (world.tables.claim claim read seqs) claim.model le
      have more := claim_live_le world.tables claim read seqs claim.model claim.startedAt
      rw [if_pos rfl] at more
      dsimp only
      omega
    · intro first second ahead offer offered itsUser
      exact mem_candidates_iff.mp
        (read.users_in_turn (ahead_among_candidates ahead) offered itsUser)
    · intro first second sameUser ahead offer offered itsRow
      exact mem_candidates_iff.mp
        (read.batches_in_turn sameUser (ahead_among_candidates ahead) offered itsRow)

def queuedItems (number : ℕ) : StoredBatch where
  job := { apiSurface := .openaiInline, phase := .runnable, status := .inProgress }
  items := List.replicate number { modelId := "model" }

def threeBatches : ClaimTables where
  rows :=
    [{ id := "first", user := "ann", modelIds := ["model"], createdAt := 0, claimSeq := none
       batch := queuedItems 4 },
      { id := "second", user := "bob", modelIds := ["model"], createdAt := 0, claimSeq := none
        batch := queuedItems 2 },
      { id := "third", user := "bob", modelIds := ["model"], createdAt := 0, claimSeq := none
        batch := queuedItems 3 }]
  userSeqs _ := none

def claimOfEight : List ClaimEvent :=
  [.countLive
      { model := "model", worker := "worker", limit := 8, maxRunning := 8, leaseSeconds := 30
        startedAt := 0 },
    .readCandidates "model"]

theorem claims_capped_apart_and_in_turn_of_eight : ∃ world claim read next,
      claimMachine.run { tables := threeBatches, clock := 0 } claimOfEight = some world ∧
      world.claimOf "model" = some claim ∧ claim.read = some read ∧
      claimMachine.step world (.commitClaim "model" [1, 2, 3, 4, 5]) = some next ∧
      (claim.served read world.tables).length = 8 ∧ (next.tables.live claim.model 0 : ℤ) ≤ 8 := by
  have ends : ((claimMachine.run { tables := threeBatches, clock := 0 } claimOfEight).bind
      fun world => (world.claimOf "model").bind fun claim => claim.read.bind fun read =>
        (claimMachine.step world (.commitClaim "model" [1, 2, 3, 4, 5])).map fun _ =>
          (claim.startedAt, claim.maxRunning, (claim.served read world.tables).length)) =
      some (0, 8, 8) := by
    decide +kernel
  rcases Option.bind_eq_some_iff.mp ends with ⟨world, ran, ends⟩
  rcases Option.bind_eq_some_iff.mp ends with ⟨claim, found, ends⟩
  rcases Option.bind_eq_some_iff.mp ends with ⟨read, itsRead, ends⟩
  rcases Option.map_eq_some_iff.mp ends with ⟨next, stepped, facts⟩
  simp only [Prod.mk.injEq] at facts
  have commits := (claims_capped_apart_and_in_turn ran).2 "model" _ _ _ _ found itsRead stepped
  refine ⟨world, claim, read, next, ran, found, itsRead, stepped, facts.2.2, ?_⟩
  rw [← facts.2.1]
  exact commits.2.1 0 facts.1.le

/-- A batch that is cancelled between the read and the re-check takes the turns
of its user's other batch with it. -/
theorem turns_lost_with_cancelled_batch :
    ¬ ∀ (tables : ClaimTables) (clock : ℚ) (events : List ClaimEvent) (world : ClaimWorld)
      (model : String) (claim : PendingClaim) (read : ClaimTables),
      claimMachine.run { tables := tables, clock := clock } events = some world →
      world.claimOf model = some claim → claim.read = some read →
      ∀ first second : String,
        (claim.served read world.tables).countP (fun offer => offer.user = second) + 2 ≤
          (claim.served read world.tables).countP (fun offer => offer.user = first) →
        ∀ offer ∈ read.offers claim.model claim.startedAt, offer.user = second →
          world.tables.stillClaimable claim.model claim.startedAt offer = true →
          offer ∈ claim.served read world.tables := by
  intro turns
  have ran := (Option.some_get (show (claimMachine.run { tables := threeBatches, clock := 0 }
    (claimOfEight ++ [.transact 1 (.cancelBatch 0) []])).isSome = true by decide +kernel)).symm
  have found := (Option.some_get (show (((claimMachine.run { tables := threeBatches, clock := 0 }
      (claimOfEight ++ [.transact 1 (.cancelBatch 0) []])).get (by decide +kernel)).claimOf
        "model").isSome = true by decide +kernel)).symm
  have itsRead := (Option.some_get (show (((((claimMachine.run
    { tables := threeBatches, clock := 0 }
      (claimOfEight ++ [.transact 1 (.cancelBatch 0) []])).get (by decide +kernel)).claimOf
        "model").get (by decide +kernel)).read).isSome = true by decide +kernel)).symm
  have all := turns _ _ _ _ "model" _ _ ran found itsRead "ann" "bob" (by decide +kernel)
  revert all
  decide +kernel

end ClaimWorld

end HybridInference.Batch
