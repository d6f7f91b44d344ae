import HybridInference.Library.Dict
import HybridInference.Library.ListUpdate
import HybridInference.Library.Machine
import HybridInference.Library.RoundRobin
import Mathlib.Algebra.Field.Rat

/-!
# Probe samples shared between workers

`_probe_endpoint` from the measured result on, `sync_probe_samples_once` and
`bootstrap_from_probe_rows` of `routing.routewise.router`, over the table
`routewise_probe_samples`. An id is drawn from the sequence when a row is
inserted, and the row is visible once its transaction commits.

Every worker has one router. A sample is named by its place in the list of all
measurements; a record in a latency profile carries that name, which decides
nothing. Each event is a block of the source with no `await` in it or one
statement of the database. An insert that is never remembered stands for a
worker that died, was cancelled or lost the reply.
-/

namespace HybridInference.RouteWise

open Library

def probeReadbackMaxRows : ℕ := 10000

def probeSelfSampleIdCap : ℕ := 10000

structure ProbeResult where
  modelId : String
  endpointId : String
  ok : Bool
  ttftMs : Option ℚ
  error : Option String
  deriving DecidableEq

/-- A call of `ProviderProfile.record`, and the sample it stems from. -/
structure ProfileRecord where
  endpointId : String
  ts : ℚ
  ttftMs : ℚ
  error : Option String
  sample : ℕ
  deriving DecidableEq

namespace ProbeResult

def timed (result : ProbeResult) : Option ℚ :=
  if result.ok then result.ttftMs.filter (0 < ·) else none

def errorText (result : ProbeResult) : String :=
  match result.error with
  | some text => if text = "" then "probe_error" else text
  | none => "probe_error"

def countable (result : ProbeResult) : Bool :=
  !result.ok || result.timed.isSome

/-- What `_record_probe_result` records. -/
def ownRecord (result : ProbeResult) (now : ℚ) (sample : ℕ) : ProfileRecord :=
  match result.timed with
  | some ttft => ⟨result.endpointId, now, ttft, none, sample⟩
  | none => ⟨result.endpointId, now, -1, some result.errorText, sample⟩

/-- What `bootstrap_from_probe_rows` records of a row. -/
def rowRecord (result : ProbeResult) (checkedAt : ℚ) (sample : ℕ) : Option ProfileRecord :=
  match result.timed with
  | some ttft => some ⟨result.endpointId, checkedAt, ttft, none, sample⟩
  | none =>
    if result.ok then none
    else some ⟨result.endpointId, checkedAt, -1, some result.errorText, sample⟩

theorem rowRecord_isSome (result : ProbeResult) (checkedAt : ℚ) (sample : ℕ) :
    (result.rowRecord checkedAt sample).isSome = result.countable := by
  unfold rowRecord countable
  cases timed : result.timed with
  | some ttft => simp
  | none => cases result.ok <;> simp

theorem rowRecord_named {result : ProbeResult} {checkedAt : ℚ} {sample : ℕ}
    {record : ProfileRecord} (made : result.rowRecord checkedAt sample = some record) :
    record.sample = sample := by
  unfold rowRecord at made
  cases timed : result.timed with
  | some ttft =>
    rw [timed] at made
    cases made
    rfl
  | none =>
    simp only [timed, Option.ite_none_left_eq_some, Option.some.injEq] at made
    rw [← made.2]

end ProbeResult

inductive InsertStage where
  | measured
  | inserted (id : ℕ)
  | committed (id : ℕ)
  | failed
  deriving DecidableEq

structure Sample where
  worker : ℕ
  result : ProbeResult
  checkedAt : ℚ
  stage : InsertStage := .measured
  remembered : Bool := false
  deriving DecidableEq

structure ProbeWorker where
  latencyProfiles : List String
  startWatermark : ℕ
  watermark : ℕ
  selfSampleIds : List ℕ := []
  records : List ProfileRecord := []
  priorsMs : Dict String ℚ := ∅
  syncing : Option (List ℕ) := none

namespace ProbeWorker

def started (latencyProfiles : List String) (watermark : ℕ) : ProbeWorker :=
  { latencyProfiles := latencyProfiles, startWatermark := watermark, watermark := watermark }

def entered (worker : ProbeWorker) (sample : ℕ) : ℕ :=
  worker.records.countP fun record => record.sample = sample

def recordProbeResult (worker : ProbeWorker) (result : ProbeResult) (now : ℚ) (sample : ℕ) :
    ProbeWorker :=
  if result.endpointId ∈ worker.latencyProfiles then
    { worker with
      records := worker.records ++ [result.ownRecord now sample]
      priorsMs :=
        match result.timed with
        | some ttft =>
          worker.priorsMs.insert result.endpointId
            (((worker.priorsMs.find result.endpointId).map fun prior =>
              (prior + ttft) / 2).getD ttft)
        | none => worker.priorsMs }
  else worker

def replayed (worker : ProbeWorker) (sample : ℕ) (row : Sample) : Option ProfileRecord :=
  if row.result.endpointId ∈ worker.latencyProfiles then
    row.result.rowRecord row.checkedAt sample
  else none

def meanTtft (records : List ProfileRecord) (endpointId : String) : ℚ :=
  let times := (records.filter fun record =>
    record.endpointId = endpointId ∧ record.error = none).map ProfileRecord.ttftMs
  times.sum / times.length

def bootstrapFromProbeRows (worker : ProbeWorker) (rows : List (ℕ × Sample)) : ProbeWorker :=
  let records := rows.filterMap fun row => worker.replayed row.1 row.2
  { worker with
    records := worker.records ++ records
    priorsMs :=
      (records.filter fun record => record.error = none).foldl
        (fun priors record => priors.insert record.endpointId (meanTtft records record.endpointId))
        worker.priorsMs }

/-- `_remember_self_probe_sample_id`; past the cap the set gives up some id. -/
def rememberSelf (worker : ProbeWorker) (id evicted : ℕ) : ProbeWorker :=
  let ids := worker.selfSampleIds.insert id
  { worker with
    selfSampleIds := if probeSelfSampleIdCap < ids.length then ids.erase evicted else ids }

def wants (worker : ProbeWorker) (row : Sample) (id : ℕ) : Bool :=
  worker.startWatermark < id && row.result.endpointId ∈ worker.latencyProfiles &&
    row.result.countable

end ProbeWorker

structure SampleWorld where
  sequence : ℕ
  samples : List Sample := []
  workers : List ProbeWorker

inductive SampleEvent where
  | measure (worker : ℕ) (result : ProbeResult) (now checkedAt : ℚ)
  | insert (sample : ℕ)
  | commit (sample : ℕ)
  | fail (sample : ℕ)
  | remember (sample evicted : ℕ)
  | read (worker : ℕ)
  | finish (worker : ℕ)
  | giveUp (worker : ℕ)

namespace SampleWorld

def start (sequence : ℕ) (workers : List (List String × ℕ)) : SampleWorld :=
  { sequence := sequence
    workers := workers.map fun worker => .started worker.1 worker.2 }

def withWorker (world : SampleWorld) (index : ℕ) (worker : ProbeWorker) : SampleWorld :=
  { world with workers := world.workers.set index worker }

def withSample (world : SampleWorld) (sample : ℕ) (row : Sample) : SampleWorld :=
  { world with samples := world.samples.set sample row }

def visibleId (world : SampleWorld) (sample : ℕ) : Option ℕ :=
  match world.samples[sample]? with
  | some row =>
    match row.stage with
    | .committed id => some id
    | _ => none
  | none => none

/-- `_int_or_zero(row.get("id"))` of a sample that was read. -/
def rowId (world : SampleWorld) (sample : ℕ) : ℕ :=
  (world.visibleId sample).getD 0

def unread (world : SampleWorld) (watermark : ℕ) : List ℕ :=
  sortBy world.rowId ((List.range world.samples.length).filter fun sample =>
    (world.visibleId sample).any fun id => watermark < id)

/-- The rest of `sync_probe_samples_once`, once its rows have arrived. -/
def replay (world : SampleWorld) (worker : ProbeWorker) (read : List ℕ) : ProbeWorker :=
  let ids := read.map world.rowId
  let rows := (read.filter fun sample => world.rowId sample ∉ worker.selfSampleIds).filterMap
    fun sample => (world.samples[sample]?).map fun row => (sample, row)
  { worker.bootstrapFromProbeRows rows with
    selfSampleIds := worker.selfSampleIds.filter fun id => id ∉ ids
    watermark := ids.foldl max worker.watermark
    syncing := none }

def step (world : SampleWorld) : SampleEvent → Option SampleWorld
  | .measure index result now checkedAt =>
    match world.workers[index]? with
    | some worker =>
      let sample := world.samples.length
      some { world.withWorker index (worker.recordProbeResult result now sample) with
        samples := world.samples ++ [{ worker := index, result, checkedAt }] }
    | none => none
  | .insert sample =>
    match world.samples[sample]? with
    | some row =>
      if row.stage = .measured then
        some { world.withSample sample { row with stage := .inserted (world.sequence + 1) } with
          sequence := world.sequence + 1 }
      else none
    | none => none
  | .commit sample =>
    match world.samples[sample]? with
    | some row =>
      match row.stage with
      | .inserted id => some (world.withSample sample { row with stage := .committed id })
      | _ => none
    | none => none
  | .fail sample =>
    match world.samples[sample]? with
    | some row =>
      match row.stage with
      | .committed _ => none
      | _ => some (world.withSample sample { row with stage := .failed })
    | none => none
  | .remember sample evicted =>
    match world.samples[sample]? with
    | some row =>
      match row.stage, world.workers[row.worker]? with
      | .committed id, some worker =>
        if row.remembered then none
        else
          some ((world.withSample sample { row with remembered := true }).withWorker
            row.worker (worker.rememberSelf id evicted))
      | _, _ => none
    | none => none
  | .read index =>
    match world.workers[index]? with
    | some worker =>
      if worker.syncing = none then
        let rows := (world.unread worker.watermark).take probeReadbackMaxRows
        some (world.withWorker index { worker with syncing := some rows })
      else none
    | none => none
  | .finish index =>
    match world.workers[index]? with
    | some worker =>
      match worker.syncing with
      | some rows => some (world.withWorker index (world.replay worker rows))
      | none => none
    | none => none
  | .giveUp index =>
    match world.workers[index]? with
    | some worker => some (world.withWorker index { worker with syncing := none })
    | none => none

end SampleWorld

def sampleMachine : Machine SampleWorld SampleEvent where
  step := SampleWorld.step

/-- What an event can do. -/
inductive SampleMoves (world : SampleWorld) : SampleEvent → SampleWorld → Prop where
  | measure {index worker result now checkedAt} (found : world.workers[index]? = some worker) :
    SampleMoves world (.measure index result now checkedAt)
      { world.withWorker index (worker.recordProbeResult result now world.samples.length) with
        samples := world.samples ++ [{ worker := index, result, checkedAt }] }
  | insert {sample row} (found : world.samples[sample]? = some row)
      (measured : row.stage = .measured) :
    SampleMoves world (.insert sample)
      { world.withSample sample { row with stage := .inserted (world.sequence + 1) } with
        sequence := world.sequence + 1 }
  | commit {sample row id} (found : world.samples[sample]? = some row)
      (inserted : row.stage = .inserted id) :
    SampleMoves world (.commit sample) (world.withSample sample { row with stage := .committed id })
  | fail {sample row} (found : world.samples[sample]? = some row)
      (hidden : ∀ id, row.stage ≠ .committed id) :
    SampleMoves world (.fail sample) (world.withSample sample { row with stage := .failed })
  | remember {sample row id worker evicted} (found : world.samples[sample]? = some row)
      (committed : row.stage = .committed id) (there : world.workers[row.worker]? = some worker) :
    SampleMoves world (.remember sample evicted)
      ((world.withSample sample { row with remembered := true }).withWorker row.worker
        (worker.rememberSelf id evicted))
  | read {index worker} (found : world.workers[index]? = some worker)
      (idle : worker.syncing = none) :
    SampleMoves world (.read index) (world.withWorker index { worker with
      syncing := some ((world.unread worker.watermark).take probeReadbackMaxRows) })
  | finish {index worker rows} (found : world.workers[index]? = some worker)
      (reading : worker.syncing = some rows) :
    SampleMoves world (.finish index) (world.withWorker index (world.replay worker rows))
  | giveUp {index worker} (found : world.workers[index]? = some worker) :
    SampleMoves world (.giveUp index) (world.withWorker index { worker with syncing := none })

def Sample.drawnId (row : Sample) : Option ℕ :=
  match row.stage with
  | .inserted id => some id
  | .committed id => some id
  | _ => none

/-- What one worker has recorded of one sample: its own once, when it was
measured; another worker's not before the watermark passed its id, and then
once. -/
structure Counted (index : ℕ) (worker : ProbeWorker) (sample : ℕ) (row : Sample) : Prop where
  own : row.worker = index → worker.entered sample =
    if row.result.endpointId ∈ worker.latencyProfiles then 1 else 0
  ahead : row.worker ≠ index → (∀ id, row.stage = .committed id → worker.watermark < id) →
    worker.entered sample = 0
  passed : row.worker ≠ index → ∀ id, row.stage = .committed id → id ≤ worker.watermark →
    worker.wants row id = true → worker.entered sample = 1

structure WorkerCounted (world : SampleWorld) (index : ℕ) (worker : ProbeWorker) : Prop where
  pairs : ∀ (sample : ℕ) row, world.samples[sample]? = some row → Counted index worker sample row
  absent : ∀ sample, world.samples.length ≤ sample → worker.entered sample = 0
  self : ∀ id ∈ worker.selfSampleIds, ∃ (sample : ℕ) (row : Sample),
    world.samples[sample]? = some row ∧ row.worker = index ∧ row.stage = .committed id
  started : worker.startWatermark ≤ worker.watermark
  distinct : ∀ rows, worker.syncing = some rows → rows.Nodup
  fresh : ∀ rows, worker.syncing = some rows → ∀ sample ∈ rows,
    ∃ id, world.visibleId sample = some id ∧ worker.watermark < id

/-- Ids are drawn once, and every worker's records agree with the table. -/
structure SamplesCounted (world : SampleWorld) : Prop where
  drawn : ∀ (sample : ℕ) (row : Sample) id, world.samples[sample]? = some row →
    row.drawnId = some id → id ≤ world.sequence
  distinct : ∀ (first second : ℕ) (firstRow secondRow : Sample) id,
    world.samples[first]? = some firstRow → world.samples[second]? = some secondRow →
    firstRow.drawnId = some id → secondRow.drawnId = some id → first = second
  workers : ∀ (index : ℕ) worker, world.workers[index]? = some worker →
    WorkerCounted world index worker

namespace SampleWorld

def CommitsInOrder (world : SampleWorld) (sample : ℕ) : Prop :=
  ∀ row ∈ world.samples[sample]?, ∀ id ∈ row.drawnId,
    ∀ index ∈ List.range world.workers.length, ∀ worker ∈ world.workers[index]?,
      row.worker ≠ index → worker.wants row id = true → worker.watermark < id

def SyncsInOrder (world : SampleWorld) (index : ℕ) : Prop :=
  ∀ worker ∈ world.workers[index]?, ∀ rows ∈ worker.syncing,
    ∀ sample ∈ List.range world.samples.length, ∀ row ∈ world.samples[sample]?,
      ∀ id ∈ world.visibleId sample, worker.wants row id = true →
        (row.worker = index → sample ∈ rows → id ∈ worker.selfSampleIds) ∧
        (row.worker ≠ index → worker.watermark < id →
          id ≤ (rows.map world.rowId).foldl max worker.watermark → sample ∈ rows)

instance (world : SampleWorld) (sample : ℕ) : Decidable (world.CommitsInOrder sample) := by
  unfold CommitsInOrder
  infer_instance

instance (world : SampleWorld) (index : ℕ) : Decidable (world.SyncsInOrder index) := by
  unfold SyncsInOrder
  infer_instance

def InOrder (world : SampleWorld) : SampleEvent → Prop
  | .commit sample => world.CommitsInOrder sample
  | .finish index => world.SyncsInOrder index
  | _ => True

instance (world : SampleWorld) : ∀ event, Decidable (world.InOrder event)
  | .commit sample => inferInstanceAs (Decidable (world.CommitsInOrder sample))
  | .finish index => inferInstanceAs (Decidable (world.SyncsInOrder index))
  | .measure _ _ _ _ | .insert _ | .fail _ | .remember _ _ | .read _ | .giveUp _ => isTrue trivial

end SampleWorld

section Records

variable {world : SampleWorld} {worker : ProbeWorker} {index sample id : ℕ} {row : Sample}

theorem visibleId_eq_some : world.visibleId sample = some id ↔
    ∃ row, world.samples[sample]? = some row ∧ row.stage = .committed id := by
  unfold SampleWorld.visibleId
  cases found : world.samples[sample]? with
  | none => simp
  | some row => cases stage : row.stage <;> simp [stage]

theorem visibleId_of_committed (found : world.samples[sample]? = some row)
    (committed : row.stage = .committed id) : world.visibleId sample = some id :=
  visibleId_eq_some.mpr ⟨row, found, committed⟩

theorem drawnId_of_committed (committed : row.stage = .committed id) : row.drawnId = some id := by
  simp [Sample.drawnId, committed]

theorem mem_unread {watermark : ℕ} : sample ∈ world.unread watermark ↔
    ∃ id, world.visibleId sample = some id ∧ watermark < id := by
  unfold SampleWorld.unread
  rw [(sortBy_perm _ _).mem_iff, List.mem_filter, List.mem_range]
  cases visible : world.visibleId sample with
  | none => simp
  | some id =>
    rcases visibleId_eq_some.mp visible with ⟨row, found, -⟩
    have inside := (List.getElem?_eq_some_iff.mp found).1
    simp [inside]

theorem unread_nodup (watermark : ℕ) : (world.unread watermark).Nodup := by
  apply (sortBy_perm _ _).nodup_iff.mpr
  exact List.Nodup.filter _ List.nodup_range

theorem countP_filterMap_sample {samples : List ℕ} {record : ℕ → Option ProfileRecord}
    (named : ∀ sample made, record sample = some made → made.sample = sample)
    (distinct : samples.Nodup) (sample : ℕ) :
    (samples.filterMap record).countP (fun made => made.sample = sample) =
      if sample ∈ samples ∧ (record sample).isSome = true then 1 else 0 := by
  induction samples with
  | nil => simp
  | cons first rest ih =>
    rcases List.nodup_cons.mp distinct with ⟨notAgain, distinctRest⟩
    have later := ih distinctRest
    cases made : record first with
    | none =>
      rw [List.filterMap_cons_none made, later]
      by_cases same : sample = first
      · subst same
        simp [notAgain, made]
      · simp [same]
    | some entry =>
      have name := named first entry made
      rw [List.filterMap_cons_some made, List.countP_cons, later]
      by_cases same : sample = first
      · subst same
        simp [notAgain, made, name]
      · have different : entry.sample ≠ sample := by
          rw [name]
          exact fun equal => same equal.symm
        simp [same, different]

theorem replayed_named {record : ProfileRecord} (made : worker.replayed sample row = some record) :
    record.sample = sample := by
  unfold ProbeWorker.replayed at made
  split_ifs at made
  exact ProbeResult.rowRecord_named made

theorem replayed_isSome : (worker.replayed sample row).isSome = true ↔
    row.result.endpointId ∈ worker.latencyProfiles ∧ row.result.countable = true := by
  unfold ProbeWorker.replayed
  split_ifs with routed
  · simp [routed, ProbeResult.rowRecord_isSome]
  · simp [routed]

theorem entered_replay (world : SampleWorld) {rows : List ℕ} (distinct : rows.Nodup)
    (worker : ProbeWorker) (sample : ℕ) :
    (world.replay worker rows).entered sample = worker.entered sample +
      if sample ∈ rows ∧ world.rowId sample ∉ worker.selfSampleIds ∧
        (world.samples[sample]?.bind fun row => worker.replayed sample row).isSome = true
      then 1 else 0 := by
  have named : ∀ other record, (world.samples[other]?.bind fun row =>
      worker.replayed other row) = some record → record.sample = other := by
    intro other record made
    rcases Option.bind_eq_some_iff.mp made with ⟨_, -, replayed⟩
    exact replayed_named replayed
  have counted := countP_filterMap_sample named
    (distinct.filter fun sample => world.rowId sample ∉ worker.selfSampleIds) sample
  simp only [ProbeWorker.entered, SampleWorld.replay, ProbeWorker.bootstrapFromProbeRows,
    List.countP_append, List.filterMap_filterMap]
  have same : (fun other => ((world.samples[other]?).map fun row => (other, row)).bind
      fun row => worker.replayed row.1 row.2) =
      fun other => world.samples[other]?.bind fun row => worker.replayed other row := by
    funext other
    cases world.samples[other]? <;> rfl
  rw [same, counted]
  simp only [List.mem_filter, decide_eq_true_eq, and_assoc]

end Records

section Steps

variable {world next : SampleWorld} {worker : ProbeWorker} {index sample id : ℕ} {row : Sample}

theorem SamplesCounted.withWorker (holds : SamplesCounted world) {old new : ProbeWorker}
    (found : world.workers[index]? = some old) (counted : WorkerCounted world index new) :
    SamplesCounted (world.withWorker index new) where
  drawn := holds.drawn
  distinct := holds.distinct
  workers := by
    intro other worker there
    simp only [SampleWorld.withWorker, getElem?_set_of_some found] at there
    split_ifs at there with same
    · cases there
      subst same
      exact { counted with }
    · exact { holds.workers other worker there with }

theorem SamplesCounted.withSample (holds : SamplesCounted world) (new : Sample) (sequence : ℕ)
    (found : world.samples[sample]? = some row) (sameWorker : new.worker = row.worker)
    (sameResult : new.result = row.result) (later : world.sequence ≤ sequence)
    (drawn : ∀ id, new.drawnId = some id →
      row.drawnId = some id ∨ world.sequence < id ∧ id ≤ sequence)
    (kept : ∀ id, row.stage = .committed id → new.stage = .committed id)
    (inOrder : ∀ id, new.stage = .committed id → row.stage = .committed id ∨
      ∀ (index : ℕ) worker, world.workers[index]? = some worker → row.worker ≠ index →
        worker.wants row id = true → worker.watermark < id) :
    SamplesCounted ⟨sequence, world.samples.set sample new, world.workers⟩ := by
  have lookup : ∀ other : ℕ, (world.samples.set sample new)[other]? =
      if sample = other then some new else world.samples[other]? :=
    fun other => getElem?_set_of_some found
  constructor
  · intro other otherRow id there hasId
    simp only [lookup] at there
    split_ifs at there with same
    · cases there
      rcases drawn id hasId with before | ⟨-, below⟩
      · exact (holds.drawn sample row id found before).trans later
      · exact below
    · exact (holds.drawn other otherRow id there hasId).trans later
  · intro first second firstRow secondRow id firstThere secondThere firstId secondId
    simp only [lookup] at firstThere secondThere
    have fresh : ∀ (other : ℕ) otherRow, world.samples[other]? = some otherRow →
        otherRow.drawnId = some id → new.drawnId = some id → sample = other := by
      intro other otherRow there otherId newId
      rcases drawn id newId with before | ⟨above, -⟩
      · exact holds.distinct sample other row otherRow id found there before otherId
      · have := holds.drawn other otherRow id there otherId
        omega
    split_ifs at firstThere secondThere with sameFirst sameSecond sameSecond
    · exact sameFirst.symm.trans sameSecond
    · cases firstThere
      exact sameFirst.symm.trans (fresh second secondRow secondThere secondId firstId)
    · cases secondThere
      exact (fresh first firstRow firstThere firstId secondId).symm.trans sameSecond
    · exact holds.distinct first second firstRow secondRow id firstThere secondThere
        firstId secondId
  · intro index worker there
    have counted := holds.workers index worker there
    refine ⟨?_, ?_, ?_, counted.started, counted.distinct, ?_⟩
    · intro other otherRow otherThere
      simp only [lookup] at otherThere
      split_ifs at otherThere with same
      · cases otherThere
        subst same
        have pair := counted.pairs sample row found
        constructor
        · intro own
          rw [sameResult]
          exact pair.own (sameWorker.symm.trans own)
        · intro foreign above
          rw [sameWorker] at foreign
          apply pair.ahead foreign
          intro id committed
          exact above id (kept id committed)
        · intro foreign id committed below wanted
          rw [sameWorker] at foreign
          have wanted : worker.wants row id = true := by
            rw [← wanted]
            simp [ProbeWorker.wants, sameResult]
          rcases inOrder id committed with before | ordered
          · exact pair.passed foreign id before below wanted
          · have := ordered index worker there foreign wanted
            omega
      · exact counted.pairs other otherRow otherThere
    · intro other beyond
      apply counted.absent other
      simpa using beyond
    · intro id member
      rcases counted.self id member with ⟨other, otherRow, otherThere, own, committed⟩
      by_cases same : sample = other
      · subst same
        rw [found, Option.some.injEq] at otherThere
        subst otherThere
        exact ⟨sample, new, by simp [lookup], sameWorker.trans own, kept id committed⟩
      · exact ⟨other, otherRow, by rw [lookup, if_neg same]; exact otherThere, own, committed⟩
    · intro rows syncing other member
      rcases counted.fresh rows syncing other member with ⟨id, visible, above⟩
      refine ⟨id, ?_, above⟩
      rcases visibleId_eq_some.mp visible with ⟨otherRow, otherThere, committed⟩
      apply visibleId_eq_some.mpr
      by_cases same : sample = other
      · subst same
        rw [found, Option.some.injEq] at otherThere
        subst otherThere
        exact ⟨new, by simp [lookup], kept id committed⟩
      · exact ⟨otherRow, by rw [lookup, if_neg same]; exact otherThere, committed⟩

theorem WorkerCounted.measured (counted : WorkerCounted world index worker) (new : Sample)
    {after : ProbeWorker} (profiles : after.latencyProfiles = worker.latencyProfiles)
    (start : after.startWatermark = worker.startWatermark)
    (watermark : after.watermark = worker.watermark)
    (selfIds : after.selfSampleIds = worker.selfSampleIds)
    (syncing : after.syncing = worker.syncing) (stage : new.stage = .measured)
    (entered : ∀ sample, after.entered sample = worker.entered sample +
      if sample = world.samples.length ∧ new.worker = index ∧
        new.result.endpointId ∈ worker.latencyProfiles then 1 else 0) :
    WorkerCounted { world with samples := world.samples ++ [new] } index after := by
  refine ⟨?_, ?_, ?_, ?_, ?_, ?_⟩
  · intro sample row found
    rcases getElem?_concat_cases found with earlier | ⟨rfl, rfl⟩
    · have pair := counted.pairs sample row earlier
      have inside := (List.getElem?_eq_some_iff.mp earlier).1
      have unchanged : after.entered sample = worker.entered sample := by
        rw [entered, if_neg (by omega)]
        rfl
      constructor
      · intro own
        rw [unchanged, profiles]
        exact pair.own own
      · intro foreign above
        rw [unchanged]
        exact pair.ahead foreign fun id committed => watermark ▸ above id committed
      · intro foreign id committed below wanted
        rw [unchanged]
        apply pair.passed foreign id committed (watermark ▸ below)
        simpa [ProbeWorker.wants, profiles, start] using wanted
    · have none := counted.absent world.samples.length le_rfl
      constructor
      · intro own
        rw [entered, none, profiles]
        simp [own]
      · intro foreign _
        rw [entered, none]
        simp [foreign]
      · intro _ id committed
        simp [stage] at committed
  · intro sample beyond
    simp only [List.length_append, List.length_singleton] at beyond
    rw [entered, counted.absent sample (by omega), if_neg (by omega)]
  · intro id member
    rw [selfIds] at member
    rcases counted.self id member with ⟨sample, row, found, own, committed⟩
    exact ⟨sample, row, getElem?_concat_of_some found, own, committed⟩
  · rw [start, watermark]
    exact counted.started
  · rw [syncing]
    exact counted.distinct
  · intro rows reading sample member
    rw [syncing] at reading
    rcases counted.fresh rows reading sample member with ⟨id, visible, above⟩
    rcases visibleId_eq_some.mp visible with ⟨row, found, committed⟩
    refine ⟨id, visibleId_eq_some.mpr ⟨row, getElem?_concat_of_some found, committed⟩, ?_⟩
    rw [watermark]
    exact above

theorem recordProbeResult_frame (worker : ProbeWorker) (result : ProbeResult) (now : ℚ)
    (sample : ℕ) :
    (worker.recordProbeResult result now sample).latencyProfiles = worker.latencyProfiles ∧
    (worker.recordProbeResult result now sample).startWatermark = worker.startWatermark ∧
    (worker.recordProbeResult result now sample).watermark = worker.watermark ∧
    (worker.recordProbeResult result now sample).selfSampleIds = worker.selfSampleIds ∧
    (worker.recordProbeResult result now sample).syncing = worker.syncing := by
  unfold ProbeWorker.recordProbeResult
  split_ifs <;> exact ⟨rfl, rfl, rfl, rfl, rfl⟩

theorem ownRecord_named (result : ProbeResult) (now : ℚ) (sample : ℕ) :
    (result.ownRecord now sample).sample = sample := by
  unfold ProbeResult.ownRecord
  cases result.timed <;> rfl

theorem entered_recordProbeResult (worker : ProbeWorker) (result : ProbeResult) (now : ℚ)
    (sample other : ℕ) :
    (worker.recordProbeResult result now sample).entered other = worker.entered other +
      if other = sample ∧ result.endpointId ∈ worker.latencyProfiles then 1 else 0 := by
  unfold ProbeWorker.recordProbeResult ProbeWorker.entered
  by_cases routed : result.endpointId ∈ worker.latencyProfiles
  · rw [if_pos routed]
    simp only [List.countP_append, List.countP_singleton, ownRecord_named, routed, and_true,
      decide_eq_true_eq]
    congr 1
    by_cases same : other = sample
    · simp [same]
    · have different : sample ≠ other := fun equal => same equal.symm
      simp [same, different]
  · simp [routed]

theorem SamplesCounted.measure (holds : SamplesCounted world)
    (found : world.workers[index]? = some worker) (result : ProbeResult) (now checkedAt : ℚ) :
    SamplesCounted
      { world.withWorker index
          (worker.recordProbeResult result now world.samples.length) with
        samples := world.samples ++ [{ worker := index, result, checkedAt }] } where
  drawn := by
    intro sample row id there hasId
    rcases getElem?_concat_cases there with earlier | ⟨-, rfl⟩
    · exact holds.drawn sample row id earlier hasId
    · simp [Sample.drawnId] at hasId
  distinct := by
    intro first second firstRow secondRow id firstThere secondThere firstId secondId
    rcases getElem?_concat_cases firstThere with firstThere | ⟨-, rfl⟩
    · rcases getElem?_concat_cases secondThere with secondThere | ⟨-, rfl⟩
      · exact holds.distinct first second firstRow secondRow id firstThere secondThere firstId
          secondId
      · simp [Sample.drawnId] at secondId
    · simp [Sample.drawnId] at firstId
  workers := by
    intro other otherWorker there
    simp only [SampleWorld.withWorker, getElem?_set_of_some found] at there
    split_ifs at there with same
    · cases there
      subst same
      rcases recordProbeResult_frame worker result now world.samples.length with
        ⟨profiles, start, watermark, selfIds, syncing⟩
      have counted := (holds.workers index worker found).measured
        { worker := index, result, checkedAt } profiles start watermark selfIds syncing rfl (by
          intro sample
          rw [entered_recordProbeResult]
          simp)
      exact { counted with }
    · have counted := (holds.workers other otherWorker there).measured
        { worker := index, result, checkedAt } rfl rfl rfl rfl rfl rfl (by
          intro sample
          simp [same])
      exact { counted with }

theorem WorkerCounted.reading (counted : WorkerCounted world index worker) :
    WorkerCounted world index
      { worker with
        syncing := some ((world.unread worker.watermark).take probeReadbackMaxRows) } := by
  refine ⟨fun sample row found => { counted.pairs sample row found with }, counted.absent,
    counted.self, counted.started, ?_, ?_⟩
  · intro rows reading
    cases reading
    exact (unread_nodup worker.watermark).sublist (List.take_sublist _ _)
  · intro rows reading sample member
    cases reading
    exact mem_unread.mp ((List.take_sublist _ _).subset member)

theorem WorkerCounted.gaveUp (counted : WorkerCounted world index worker) :
    WorkerCounted world index { worker with syncing := none } :=
  ⟨fun sample row found => { counted.pairs sample row found with }, counted.absent, counted.self,
    counted.started, by simp, by simp⟩

theorem le_foldl_max (ids : List ℕ) (watermark : ℕ) : watermark ≤ ids.foldl max watermark := by
  induction ids generalizing watermark with
  | nil => exact le_rfl
  | cons id rest ih => exact (le_max_left _ _).trans (ih _)

theorem le_foldl_max_of_mem {ids : List ℕ} (member : id ∈ ids) (watermark : ℕ) :
    id ≤ ids.foldl max watermark := by
  induction ids generalizing watermark with
  | nil => cases member
  | cons first rest ih =>
    rcases List.mem_cons.mp member with rfl | later
    · exact (le_max_right _ _).trans (le_foldl_max rest _)
    · exact ih later _

theorem rowId_eq (visible : world.visibleId sample = some id) : world.rowId sample = id := by
  simp [SampleWorld.rowId, visible]

variable {rows : List ℕ}

theorem SamplesCounted.finished (holds : SamplesCounted world)
    (found : world.workers[index]? = some worker) (reading : worker.syncing = some rows)
    (inOrder : world.SyncsInOrder index) :
    WorkerCounted world index (world.replay worker rows) := by
  have counted := holds.workers index worker found
  have distinct := counted.distinct rows reading
  have later : worker.watermark ≤ (world.replay worker rows).watermark := le_foldl_max _ _
  have ordered : ∀ (sample : ℕ) row id, world.samples[sample]? = some row →
      row.stage = .committed id → worker.wants row id = true →
      (row.worker = index → sample ∈ rows → id ∈ worker.selfSampleIds) ∧
      (row.worker ≠ index → worker.watermark < id →
        id ≤ (world.replay worker rows).watermark → sample ∈ rows) := by
    intro sample row id there committed wanted
    have inside := (List.getElem?_eq_some_iff.mp there).1
    exact inOrder worker found rows reading sample (List.mem_range.mpr inside) row there id
      (visibleId_of_committed there committed) wanted
  have fresh : ∀ sample ∈ rows, ∀ row id, world.samples[sample]? = some row →
      row.stage = .committed id → worker.watermark < id ∧
        id ≤ (world.replay worker rows).watermark ∧ world.rowId sample = id := by
    intro sample member row id there committed
    have visible := visibleId_of_committed there committed
    rcases counted.fresh rows reading sample member with ⟨other, alsoVisible, above⟩
    rw [visible, Option.some.injEq] at alsoVisible
    subst alsoVisible
    have named := rowId_eq visible
    refine ⟨above, le_foldl_max_of_mem ?_ _, named⟩
    exact List.mem_map.mpr ⟨sample, member, named⟩
  have read : ∀ sample ∈ rows, ∃ row id, world.samples[sample]? = some row ∧
      row.stage = .committed id := by
    intro sample member
    rcases counted.fresh rows reading sample member with ⟨id, visible, -⟩
    rcases visibleId_eq_some.mp visible with ⟨row, there, committed⟩
    exact ⟨row, id, there, committed⟩
  refine ⟨?_, ?_, ?_, counted.started.trans later, by simp [SampleWorld.replay],
    by simp [SampleWorld.replay]⟩
  · intro sample row there
    have pair := counted.pairs sample row there
    have entered := entered_replay world distinct worker sample
    simp only [there, Option.bind_some, replayed_isSome] at entered
    constructor
    · intro own
      rw [entered, if_neg, pair.own own]
      · rfl
      · rintro ⟨member, notOwn, routed, countable⟩
        rcases read sample member with ⟨sameRow, id, sameThere, committed⟩
        rw [there, Option.some.injEq] at sameThere
        subst sameThere
        rcases fresh sample member row id there committed with ⟨above, -, named⟩
        have wanted : worker.wants row id = true := by
          have := counted.started
          simp only [ProbeWorker.wants, routed, countable, decide_true, Bool.and_true,
            decide_eq_true_eq]
          omega
        rw [named] at notOwn
        exact notOwn ((ordered sample row id there committed wanted).1 own member)
    · intro foreign above
      rw [entered, if_neg]
      · apply pair.ahead foreign
        intro id committed
        exact later.trans_lt (above id committed)
      · rintro ⟨member, -⟩
        rcases read sample member with ⟨sameRow, id, sameThere, committed⟩
        rw [there, Option.some.injEq] at sameThere
        subst sameThere
        rcases fresh sample member row id there committed with ⟨-, below, -⟩
        have := above id committed
        omega
    · intro foreign id committed below wanted
      have wanted : worker.wants row id = true := wanted
      by_cases member : sample ∈ rows
      · rcases fresh sample member row id there committed with ⟨above, -, named⟩
        have notOwn : id ∉ worker.selfSampleIds := by
          intro known
          rcases counted.self id known with ⟨other, otherRow, otherThere, own, otherCommitted⟩
          have same := holds.distinct sample other row otherRow id there otherThere
            (drawnId_of_committed committed) (drawnId_of_committed otherCommitted)
          subst same
          rw [there, Option.some.injEq] at otherThere
          subst otherThere
          exact foreign own
        have notYet : worker.entered sample = 0 := by
          apply pair.ahead foreign
          intro other otherCommitted
          rw [committed, InsertStage.committed.injEq] at otherCommitted
          exact otherCommitted ▸ above
        simp only [ProbeWorker.wants, Bool.and_eq_true, decide_eq_true_eq] at wanted
        rw [entered, notYet, if_pos ⟨member, named ▸ notOwn, wanted.1.2, wanted.2⟩]
      · rw [entered, if_neg (fun both => member both.1)]
        apply pair.passed foreign id committed ?_ wanted
        by_contra above
        exact member ((ordered sample row id there committed wanted).2 foreign (by omega) below)
  · intro sample beyond
    have missing : sample ∉ rows := by
      intro member
      rcases read sample member with ⟨row, id, there, -⟩
      have := (List.getElem?_eq_some_iff.mp there).1
      omega
    rw [entered_replay world distinct, if_neg (fun both => missing both.1)]
    exact counted.absent sample beyond
  · intro id member
    exact counted.self id (List.mem_filter.mp member).1

theorem WorkerCounted.remembered (counted : WorkerCounted world index worker)
    (found : world.samples[sample]? = some row) (own : row.worker = index)
    (committed : row.stage = .committed id) (evicted : ℕ) :
    WorkerCounted world index (worker.rememberSelf id evicted) := by
  refine ⟨fun sample row found => { counted.pairs sample row found with }, counted.absent, ?_,
    counted.started, counted.distinct, counted.fresh⟩
  intro other member
  have inserted : other ∈ worker.selfSampleIds.insert id := by
    simp only [ProbeWorker.rememberSelf] at member
    split_ifs at member
    · exact List.mem_of_mem_erase member
    · exact member
  rcases List.mem_insert_iff.mp inserted with rfl | earlier
  · exact ⟨sample, row, found, own, committed⟩
  · exact counted.self other earlier

theorem SamplesCounted.remember (holds : SamplesCounted world)
    (found : world.samples[sample]? = some row) (committed : row.stage = .committed id)
    (there : world.workers[row.worker]? = some worker) (evicted : ℕ) :
    SamplesCounted ((world.withSample sample { row with remembered := true }).withWorker
      row.worker (worker.rememberSelf id evicted)) := by
  have moved : SamplesCounted (world.withSample sample { row with remembered := true }) :=
    holds.withSample { row with remembered := true } world.sequence found rfl rfl le_rfl
      (fun _ hasId => Or.inl hasId) (fun _ stage => stage) fun _ stage => Or.inl stage
  refine moved.withWorker there ?_
  have marked : (world.withSample sample { row with remembered := true }).samples[sample]? =
      some { row with remembered := true } := by
    simp [SampleWorld.withSample, getElem?_set_of_some found]
  exact (moved.workers row.worker worker there).remembered marked rfl committed evicted

variable {event : SampleEvent}

theorem SampleMoves.of_step (stepped : sampleMachine.step world event = some next) :
    SampleMoves world event next := by
  simp only [sampleMachine, SampleWorld.step] at stepped
  cases event with
  | measure | giveUp =>
    simp only at stepped
    split at stepped <;> cases stepped
    constructor
    assumption
  | insert | read =>
    simp only at stepped
    split at stepped
    · simp only [Option.ite_none_right_eq_some, Option.some.injEq] at stepped
      rcases stepped with ⟨stage, rfl⟩
      constructor <;> assumption
    · cases stepped
  | commit | finish =>
    simp only at stepped
    split at stepped
    · split at stepped <;> cases stepped
      constructor <;> assumption
    · cases stepped
  | fail sample =>
    simp only at stepped
    split at stepped
    · next found =>
        split at stepped
        · cases stepped
        · next hidden =>
            cases stepped
            exact .fail found hidden
    · cases stepped
  | remember sample evicted =>
    simp only at stepped
    split at stepped
    · next found =>
        split at stepped
        · next committed there =>
            simp only [Option.ite_none_left_eq_some, Option.some.injEq] at stepped
            rcases stepped with ⟨-, rfl⟩
            exact .remember found committed there
        · cases stepped
    · cases stepped

/-- One step in order counts every sample once. -/
theorem SamplesCounted.step (holds : SamplesCounted world) (inOrder : world.InOrder event)
    (stepped : sampleMachine.step world event = some next) : SamplesCounted next := by
  cases SampleMoves.of_step stepped with
  | measure found => exact holds.measure found _ _ _
  | insert found measured =>
    refine holds.withSample _ (world.sequence + 1) found rfl rfl (Nat.le_succ _) ?_ ?_ ?_
    · intro id hasId
      simp only [Sample.drawnId, Option.some.injEq] at hasId
      omega
    · intro id committed
      simp [measured] at committed
    · intro id committed
      simp at committed
  | @commit _ row id found inserted =>
    have drawn : row.drawnId = some id := by
      simp [Sample.drawnId, inserted]
    refine holds.withSample _ world.sequence found rfl rfl le_rfl ?_ ?_ ?_
    · intro other hasId
      left
      rw [drawn]
      exact hasId
    · intro other committed
      simp [inserted] at committed
    · intro other committed
      simp only [InsertStage.committed.injEq] at committed
      subst committed
      right
      intro index worker there foreign wanted
      have inside := (List.getElem?_eq_some_iff.mp there).1
      exact inOrder row found id drawn index (List.mem_range.mpr inside) worker there foreign wanted
  | fail found hidden =>
    refine holds.withSample _ world.sequence found rfl rfl le_rfl ?_ ?_ ?_
    · intro id hasId
      simp [Sample.drawnId] at hasId
    · intro id committed
      exact absurd committed (hidden id)
    · intro id committed
      simp at committed
  | remember found committed there => exact holds.remember found committed there _
  | read found => exact holds.withWorker found (holds.workers _ _ found).reading
  | finish found reading => exact holds.withWorker found (holds.finished found reading inOrder)
  | giveUp found => exact holds.withWorker found (holds.workers _ _ found).gaveUp

theorem SamplesCounted.start (sequence : ℕ) (workers : List (List String × ℕ)) :
    SamplesCounted (.start sequence workers) := by
  refine ⟨by simp [SampleWorld.start], by simp [SampleWorld.start], ?_⟩
  intro index worker found
  simp only [SampleWorld.start, List.getElem?_map, Option.map_eq_some_iff] at found
  rcases found with ⟨settings, -, rfl⟩
  refine ⟨by simp [SampleWorld.start], ?_, ?_, le_rfl, ?_, ?_⟩
  all_goals simp [ProbeWorker.started, ProbeWorker.entered]

theorem SamplesCounted.of_run {start : SampleWorld} {events : List SampleEvent}
    (holds : SamplesCounted start) (along : sampleMachine.Along SampleWorld.InOrder start events)
    (ran : sampleMachine.run start events = some world) : SamplesCounted world :=
  Machine.run_invariant_along SampleWorld.InOrder
    (fun _ _ _ holds inOrder stepped => SamplesCounted.step holds inOrder stepped) holds along ran

def Stored (sample id worker : ℕ) (result : ProbeResult) (world : SampleWorld) : Prop :=
  ∃ row, world.samples[sample]? = some row ∧ row.stage = .committed id ∧
    row.worker = worker ∧ row.result = result

theorem Stored.set {new : Sample} {owner other : ℕ} {result : ProbeResult}
    (stored : Stored sample id owner result world) (found : world.samples[other]? = some row)
    (samples : next.samples = world.samples.set other new) (sameWorker : new.worker = row.worker)
    (sameResult : new.result = row.result)
    (kept : ∀ id, row.stage = .committed id → new.stage = .committed id) :
    Stored sample id owner result next := by
  rcases stored with ⟨stored, there, committed, rfl, rfl⟩
  unfold Stored
  rw [samples]
  simp only [getElem?_set_of_some found]
  by_cases same : other = sample
  · subst same
    rw [found, Option.some.injEq] at there
    subst there
    exact ⟨new, if_pos rfl, kept id committed, sameWorker, sameResult⟩
  · exact ⟨stored, by rw [if_neg same]; exact there, committed, rfl, rfl⟩

theorem Stored.step {owner : ℕ} {result : ProbeResult}
    (stored : Stored sample id owner result world)
    (stepped : sampleMachine.step world event = some next) :
    Stored sample id owner result next := by
  cases SampleMoves.of_step stepped with
  | measure =>
    rcases stored with ⟨row, found, rest⟩
    exact ⟨row, getElem?_concat_of_some found, rest⟩
  | insert found measured => exact stored.set found rfl rfl rfl (by simp [measured])
  | commit found inserted => exact stored.set found rfl rfl rfl (by simp [inserted])
  | fail found hidden =>
    exact stored.set found rfl rfl rfl fun id committed => absurd committed (hidden id)
  | remember found => exact stored.set found rfl rfl rfl fun _ committed => committed
  | read | finish | giveUp => exact stored

/-- The worker's sync is under way with these rows, and its watermark and route
table are those of `reader`. -/
def Reading (index : ℕ) (reader : ProbeWorker) (rows : List ℕ) (world : SampleWorld) : Prop :=
  ∃ worker, world.workers[index]? = some worker ∧ worker.syncing = some rows ∧
    worker.watermark = reader.watermark ∧ worker.latencyProfiles = reader.latencyProfiles ∧
    worker.startWatermark = reader.startWatermark

theorem Reading.set {new reader : ProbeWorker} {other : ℕ}
    (reading : Reading index reader rows world) (found : world.workers[other]? = some worker)
    (workers : next.workers = world.workers.set other new)
    (kept : other = index → worker.syncing = some rows →
      new.syncing = some rows ∧ new.watermark = worker.watermark ∧
        new.latencyProfiles = worker.latencyProfiles ∧
        new.startWatermark = worker.startWatermark) :
    Reading index reader rows next := by
  rcases reading with ⟨there, foundThere, syncing, unmoved, profiles, start⟩
  unfold Reading
  rw [workers]
  simp only [getElem?_set_of_some found]
  by_cases same : other = index
  · subst same
    rw [found, Option.some.injEq] at foundThere
    subst foundThere
    rcases kept rfl syncing with ⟨still, newUnmoved, newProfiles, newStart⟩
    exact ⟨new, if_pos rfl, still, newUnmoved.trans unmoved, newProfiles.trans profiles,
      newStart.trans start⟩
  · exact ⟨there, by rw [if_neg same]; exact foundThere, syncing, unmoved, profiles, start⟩

theorem Reading.step {reader : ProbeWorker} (reading : Reading index reader rows world)
    (goesOn : event ≠ .finish index ∧ event ≠ .giveUp index)
    (stepped : sampleMachine.step world event = some next) :
    Reading index reader rows next := by
  cases SampleMoves.of_step stepped with
  | @measure _ worker measured now _ found =>
    rcases recordProbeResult_frame worker measured now world.samples.length with
      ⟨profiles, start, unmoved, -, syncing⟩
    exact reading.set found rfl fun _ still => ⟨syncing.trans still, unmoved, profiles, start⟩
  | insert | commit | fail => exact reading
  | remember _ _ found => exact reading.set found rfl fun _ still => ⟨still, rfl, rfl, rfl⟩
  | read found idle => exact reading.set found rfl fun _ still => by simp [idle] at still
  | finish found => exact reading.set found rfl fun same => absurd (same ▸ rfl) goesOn.1
  | giveUp found => exact reading.set found rfl fun same => absurd (same ▸ rfl) goesOn.2

theorem passed_after_sync {between : List SampleEvent}
    (there : world.workers[index]? = some worker) (visible : world.visibleId sample = some id)
    (few : (world.unread worker.watermark).length ≤ probeReadbackMaxRows)
    (goesOn : ∀ event ∈ between, event ≠ .finish index ∧ event ≠ .giveUp index)
    (ran : sampleMachine.run world (.read index :: (between ++ [.finish index])) = some next) :
    ∃ after, next.workers[index]? = some after ∧ id ≤ after.watermark ∧
      after.latencyProfiles = worker.latencyProfiles ∧
      after.startWatermark = worker.startWatermark := by
  rcases visibleId_eq_some.mp visible with ⟨row, found, committed⟩
  have stored : Stored sample id row.worker row.result world := ⟨row, found, committed, rfl, rfl⟩
  rcases Machine.run_cons_eq_some.mp ran with ⟨reading, readStep, ranOn⟩
  rcases Machine.run_append_eq_some.mp ranOn with ⟨middle, ranBetween, ranFinish⟩
  rcases Machine.run_cons_eq_some.mp ranFinish with ⟨last, finishStep, ended⟩
  cases ended
  have storedReading := stored.step readStep
  have began : Reading index worker (world.unread worker.watermark) reading := by
    simp only [sampleMachine, SampleWorld.step, there, Option.ite_none_right_eq_some,
      Option.some.injEq, List.take_of_length_le few] at readStep
    rcases readStep with ⟨-, rfl⟩
    refine ⟨{ worker with syncing := some (world.unread worker.watermark) }, ?_, rfl, rfl, rfl, rfl⟩
    simp [SampleWorld.withWorker, getElem?_set_of_some there]
  have preserved (before : SampleWorld) (event : SampleEvent) (after : SampleWorld)
      (both : Stored sample id row.worker row.result before ∧
        Reading index worker (world.unread worker.watermark) before)
      (allowed : event ≠ .finish index ∧ event ≠ .giveUp index)
      (stepped : sampleMachine.step before event = some after) :
      Stored sample id row.worker row.result after ∧
        Reading index worker (world.unread worker.watermark) after :=
    ⟨both.1.step stepped, both.2.step allowed stepped⟩
  have along : sampleMachine.Along
      (fun _ event => event ≠ .finish index ∧ event ≠ .giveUp index) reading between :=
    Machine.along_of_forall_mem
      (fun event : SampleEvent => event ≠ .finish index ∧ event ≠ .giveUp index) goesOn
  rcases Machine.run_invariant_along _ preserved ⟨storedReading, began⟩ along ranBetween with
    ⟨⟨kept, keptThere, keptCommitted, -, -⟩, reader, readerThere, syncing, unmoved, profiles, start⟩
  simp only [sampleMachine, SampleWorld.step, readerThere, syncing, Option.some.injEq] at finishStep
  subst finishStep
  refine ⟨middle.replay reader (world.unread worker.watermark), ?_, ?_, profiles, start⟩
  · simp [SampleWorld.withWorker, getElem?_set_of_some readerThere]
  · by_cases past : worker.watermark < id
    · apply le_foldl_max_of_mem
      refine List.mem_map.mpr ⟨sample, mem_unread.mpr ⟨id, visible, past⟩, ?_⟩
      exact rowId_eq (visibleId_of_committed keptThere keptCommitted)
    · have : id ≤ reader.watermark := by omega
      exact this.trans (le_foldl_max _ _)

/-- In a run whose rows become visible and are read in order, a sample enters the profile of its own
worker once, and that of any other once, when the watermark passes its id. -/
theorem probe_samples_counted_once {sequence : ℕ} {workers : List (List String × ℕ)}
    {events : List SampleEvent}
    (along : sampleMachine.Along SampleWorld.InOrder (.start sequence workers) events)
    (ran : sampleMachine.run (.start sequence workers) events = some world)
    (there : world.workers[index]? = some worker) (found : world.samples[sample]? = some row)
    (committed : row.stage = .committed id) (unread : worker.startWatermark < id)
    (routed : row.result.endpointId ∈ worker.latencyProfiles)
    (countable : row.result.countable = true) :
    (row.worker = index → worker.entered sample = 1) ∧
    (row.worker ≠ index → (worker.watermark < id → worker.entered sample = 0) ∧
      (id ≤ worker.watermark → worker.entered sample = 1)) ∧
    ∀ between next after, (world.unread worker.watermark).length ≤ probeReadbackMaxRows →
      (∀ event ∈ between, event ≠ .finish index ∧ event ≠ .giveUp index) →
      sampleMachine.Along SampleWorld.InOrder world (.read index :: (between ++ [.finish index])) →
      sampleMachine.run world (.read index :: (between ++ [.finish index])) = some next →
      next.workers[index]? = some after → after.entered sample = 1 := by
  have holds : SamplesCounted world := (SamplesCounted.start sequence workers).of_run along ran
  have pair := (holds.workers index worker there).pairs sample row found
  have wanted : worker.wants row id = true := by
    simp [ProbeWorker.wants, unread, routed, countable]
  refine ⟨?_, ?_, ?_⟩
  · intro own
    rw [pair.own own, if_pos routed]
  · intro foreign
    refine ⟨?_, fun below => pair.passed foreign id committed below wanted⟩
    intro above
    apply pair.ahead foreign
    intro other otherCommitted
    rw [committed, InsertStage.committed.injEq] at otherCommitted
    exact otherCommitted ▸ above
  · intro between next after few goesOn alongOn ranOn afterThere
    have visible := visibleId_of_committed found committed
    rcases passed_after_sync there visible few goesOn ranOn with
      ⟨same, sameThere, below, profiles, start⟩
    rw [afterThere, Option.some.injEq] at sameThere
    subst sameThere
    have stored : Stored sample id row.worker row.result world := ⟨row, found, committed, rfl, rfl⟩
    rcases Machine.run_invariant (fun _ _ _ stored stepped => Stored.step stored stepped) stored
      ranOn with ⟨kept, keptThere, keptCommitted, sameWorker, sameResult⟩
    have later := ((holds.of_run alongOn ranOn).workers index after afterThere).pairs sample kept
      keptThere
    by_cases own : row.worker = index
    · rw [later.own (sameWorker.trans own), profiles, sameResult, if_pos routed]
    · apply later.passed (fun same => own (sameWorker ▸ same)) id keptCommitted below
      simpa [ProbeWorker.wants, profiles, start, sameResult] using wanted

end Steps

/-- One worker measures, another one reads the row before the first has
remembered it, and both count the sample once. -/
theorem probe_samples_counted_once_two_workers :
    let start : SampleWorld := .start 0 [(["east"], 0), (["east"], 0)]
    let events : List SampleEvent :=
      [.measure 0 ⟨"m", "east", true, some 120, none⟩ 1 1, .insert 0, .commit 0, .read 1,
        .remember 0 0, .finish 1, .read 0, .finish 0]
    ∃ world worker, sampleMachine.run start events = some world ∧
      world.workers[1]? = some worker ∧ worker.entered 0 = 1 := by
  intro start events
  have along : sampleMachine.Along SampleWorld.InOrder start events := by
    decide +kernel
  have workerSeen : ((sampleMachine.run start events).bind fun world =>
      (world.workers[1]?).map fun worker =>
        (worker.startWatermark, worker.watermark, worker.latencyProfiles)) =
      some (0, 1, ["east"]) := by
    decide +kernel
  have rowSeen : ((sampleMachine.run start events).bind fun world =>
      (world.samples[0]?).map fun row =>
        (row.worker, row.stage, row.result.endpointId, row.result.countable)) =
      some (0, .committed 1, "east", true) := by
    decide +kernel
  rcases Option.bind_eq_some_iff.mp workerSeen with ⟨world, ran, workerSeen⟩
  rw [ran] at rowSeen
  rcases Option.map_eq_some_iff.mp workerSeen with ⟨worker, there, settings⟩
  rcases Option.map_eq_some_iff.mp rowSeen with ⟨row, found, contents⟩
  simp only [Prod.mk.injEq] at settings contents
  rcases settings with ⟨begun, watermark, profiles⟩
  rcases contents with ⟨owner, committed, endpoint, countable⟩
  have counted := probe_samples_counted_once along ran there found committed (by omega)
    (by simp [endpoint, profiles]) countable
  exact ⟨world, worker, ran, there, (counted.2.1 (by omega)).2 (by omega)⟩

/-- A worker's own sample is counted again by a sync that reads it before the
worker has remembered its id, and a sample that is committed after a later one
was read is never counted. -/
theorem probe_sample_counted_twice_and_lost :
    let start : SampleWorld := .start 0 [(["east"], 0), (["east"], 0)]
    let measured (duration : ℕ) : ProbeResult := ⟨"m", "east", true, some duration, none⟩
    (sampleMachine.run start
        [.measure 0 (measured 120) 1 1, .insert 0, .commit 0, .read 0, .finish 0,
          .remember 0 0]).map
        (fun world => (world.samples.map fun row => (row.worker, row.stage),
          world.workers.map fun worker => worker.entered 0)) =
      some ([(0, .committed 1)], [2, 0]) ∧
    (sampleMachine.run start
        [.measure 0 (measured 120) 1 1, .insert 0, .measure 0 (measured 80) 2 2, .insert 1,
          .commit 1, .read 1, .finish 1, .commit 0, .read 1, .finish 1]).map
        (fun world => (world.samples.map fun row => (row.worker, row.stage),
          world.workers.map fun worker => (worker.watermark, worker.entered 0))) =
      some ([(0, .committed 1), (0, .committed 2)], [(0, 1), (2, 0)]) := by
  decide +kernel

end HybridInference.RouteWise
