import HybridInference.Library.Dict
import HybridInference.Library.Machine

/-!
# Attribution of feedback by the hybrid router

`_remember_backend_decision`, `_resolve_feedback_backend` and
`_release_decision` of `HybridRouter`. The record map is a list in order of
insertion, since a full map drops its oldest record. An event is one call: what
`canonical_id` gave at that moment, and which backends claim an observation by
their current scopes, come with it.

Which record this is, the reports a record was written from and the deliveries
made only say what happened.
-/

namespace HybridInference.Routing

open Library

/-- `max_recorded_decisions`, which the constructor of the router checks, and the
names of its backends. -/
structure HybridSettings where
  maxRecordedDecisions : ℕ := 4096
  backends : List String
  positive : 0 < maxRecordedDecisions := by decide

inductive NamedEndpoint where
  | absent
  | named (endpoint : String)
  | malformed
  deriving DecidableEq

namespace NamedEndpoint

def text : NamedEndpoint → Option String
  | named endpoint => if endpoint = "" then none else some endpoint
  | absent | malformed => none

end NamedEndpoint

/-- What `_routing` holds of a dispatch. -/
structure RoutingMetadata where
  endpointId : NamedEndpoint := .absent
  failedAttempts : List NamedEndpoint := []
  deriving DecidableEq

/-- The endpoints a dispatch names: `routing.get("endpoint_id") or endpoint_id`,
then its failed attempts. -/
def RoutingMetadata.endpoints (routing : RoutingMetadata) (endpointId : NamedEndpoint) :
    List String :=
  (match routing.endpointId with
    | .malformed => none
    | .named endpoint => if endpoint = "" then endpointId.text else some endpoint
    | .absent => endpointId.text).toList ++
  routing.failedAttempts.filterMap NamedEndpoint.text

structure DispatchReport where
  endpoints : List String
  backend : String
  deriving DecidableEq

structure FeedbackDispatch where
  modelId : String
  backend : String
  endpoints : Dict String String := ∅
  serial : ℕ
  reports : List DispatchReport := []

structure Observation where
  requestId : Option String
  /-- `canonical_id` of the model of the observation. -/
  modelId : String
  endpointId : String
  terminal : Bool := true
  deriving DecidableEq

structure Delivery where
  backend : String
  observation : Observation
  serial : Option ℕ
  deriving DecidableEq

structure FeedbackWorld where
  decisions : List (String × FeedbackDispatch) := []
  issued : ℕ := 0
  deliveries : List Delivery := []

inductive FeedbackEvent where
  | decide (requestId : Option String) (backend modelId : String)
  | dispatched (requestId : Option String) (backend modelId : String)
      (routing : RoutingMetadata) (endpointId : NamedEndpoint)
  | observe (observation : Observation) (claimants : List String)

namespace FeedbackDispatch

def report (record : FeedbackDispatch) (report : DispatchReport) : FeedbackDispatch :=
  { record with
    backend := report.backend
    endpoints := report.endpoints.foldl
      (fun endpoints endpoint => endpoints.insert endpoint report.backend) record.endpoints
    reports := record.reports ++ [report] }

def backendFor (record : FeedbackDispatch) (endpointId : String) : Option String :=
  match record.endpoints.find endpointId with
  | some backend => some backend
  | none => if record.endpoints.keys.isEmpty then some record.backend else none

end FeedbackDispatch

namespace FeedbackWorld

def lookup (world : FeedbackWorld) (requestId : String) : Option FeedbackDispatch :=
  world.decisions.lookup requestId

/-- `_remember_backend_decision`. -/
def remember (settings : HybridSettings) (world : FeedbackWorld) (requestId : Option String)
    (modelId : String) (report : DispatchReport) : FeedbackWorld :=
  match requestId with
  | none => world
  | some id =>
    if id = "" then world
    else
      match world.lookup id with
      | some record =>
        { world with
          decisions := world.decisions.map fun entry =>
            if entry.1 = id then (id, record.report report) else entry }
      | none =>
        let kept := if settings.maxRecordedDecisions ≤ world.decisions.length then
            world.decisions.tail else world.decisions
        let record : FeedbackDispatch :=
          { modelId, backend := report.backend, serial := world.issued }
        { world with
          decisions := kept ++ [(id, record.report report)]
          issued := world.issued + 1 }

def recordFor (world : FeedbackWorld) (observation : Observation) : Option FeedbackDispatch :=
  observation.requestId.bind world.lookup

def release (world : FeedbackWorld) (observation : Observation) : FeedbackWorld :=
  match observation.terminal, observation.requestId with
  | true, some id => { world with decisions := world.decisions.filter fun entry => entry.1 ≠ id }
  | _, _ => world

/-- `_resolve_feedback_backend`: what it leaves of the records, and the delivery
that `record_observation` makes. -/
def resolve (settings : HybridSettings) (world : FeedbackWorld) (observation : Observation)
    (claimants : List String) : FeedbackWorld × Option Delivery :=
  match world.recordFor observation with
  | some record =>
    if observation.modelId ≠ record.modelId then (world, none)
    else
      (world.release observation, (record.backendFor observation.endpointId).map fun backend =>
          { backend, observation, serial := some record.serial })
  | none =>
    match settings.backends.filter (· ∈ claimants) with
    | [owner] => (world.release observation, some { backend := owner, observation, serial := none })
    | _ => (world, none)

def step (settings : HybridSettings) (world : FeedbackWorld) : FeedbackEvent → Option FeedbackWorld
  | .decide requestId backend modelId =>
    some (world.remember settings requestId modelId ⟨[], backend⟩)
  | .dispatched requestId backend modelId routing endpointId =>
    some (world.remember settings requestId modelId ⟨routing.endpoints endpointId, backend⟩)
  | .observe observation claimants =>
    let resolved := world.resolve settings observation claimants
    some { resolved.1 with deliveries := resolved.1.deliveries ++ resolved.2.toList }

end FeedbackWorld

def feedbackMachine (settings : HybridSettings) : Machine FeedbackWorld FeedbackEvent where
  step := FeedbackWorld.step settings

def FeedbackEvent.reportOf (id : String) : FeedbackEvent → Option DispatchReport
  | .decide requestId backend _ => if requestId = some id then some ⟨[], backend⟩ else none
  | .dispatched requestId backend _ routing endpointId =>
    if requestId = some id then some ⟨routing.endpoints endpointId, backend⟩ else none
  | .observe _ _ => none

def latestFor (endpointId : String) (reports : List DispatchReport) : Option String :=
  (reports.reverse.find? fun report => endpointId ∈ report.endpoints).map DispatchReport.backend

theorem latestFor_append (endpointId : String) (reports : List DispatchReport)
    (report : DispatchReport) :
    latestFor endpointId (reports ++ [report]) =
      if endpointId ∈ report.endpoints then some report.backend
      else latestFor endpointId reports := by
  unfold latestFor
  rw [List.reverse_concat, List.find?_cons]
  split_ifs with named <;> simp [named]

variable {endpointId backend : String}

theorem latestFor_of_suffix {reports whole : List DispatchReport}
    (suffix : reports <:+ whole) (latest : latestFor endpointId reports = some backend) :
    latestFor endpointId whole = some backend := by
  rcases suffix with ⟨front, rfl⟩
  rcases Option.map_eq_some_iff.mp latest with ⟨report, found, rfl⟩
  unfold latestFor
  rw [List.reverse_append, List.find?_append, found]
  rfl

theorem getLast?_of_suffix {α : Type*} {list whole : List α} {last : α} (suffix : list <:+ whole)
    (ends : list.getLast? = some last) : whole.getLast? = some last := by
  rcases suffix with ⟨front, rfl⟩
  rw [List.getLast?_append, ends]
  rfl

theorem find_foldl_insert (endpoints : Dict String String) (names : List String)
    (backend endpointId : String) :
    Dict.find (names.foldl (fun endpoints endpoint => endpoints.insert endpoint backend) endpoints)
        endpointId =
      if endpointId ∈ names then some backend else endpoints.find endpointId := by
  induction names generalizing endpoints with
  | nil => simp
  | cons name rest ih =>
    rw [List.foldl_cons, ih, Dict.find_insert]
    by_cases inRest : endpointId ∈ rest
    · simp [inRest]
    · by_cases same : endpointId = name
      · simp [same]
      · simp [inRest, same]

structure FeedbackDispatch.Written (record : FeedbackDispatch) : Prop where
  backend : record.reports.getLast?.map DispatchReport.backend = some record.backend
  endpoints : ∀ endpointId, record.endpoints.find endpointId = latestFor endpointId record.reports

variable {record : FeedbackDispatch}

theorem FeedbackDispatch.written_report (report : DispatchReport) (endpoints : ∀ endpointId,
      record.endpoints.find endpointId = latestFor endpointId record.reports) :
    (record.report report).Written where
  backend := by
    simp [FeedbackDispatch.report]
  endpoints := by
    intro endpointId
    simp only [FeedbackDispatch.report]
    rw [find_foldl_insert, latestFor_append, endpoints]

section Lookups

variable {Value : Type*} {entries : List (String × Value)} {key : String} {value : Value}

theorem mem_of_lookup (found : entries.lookup key = some value) : (key, value) ∈ entries := by
  induction entries with
  | nil => simp at found
  | cons entry rest ih =>
    rw [List.lookup_cons] at found
    by_cases same : key = entry.1
    · simp only [same, beq_self_eq_true, Option.some.injEq] at found
      simp [same, ← found]
    · have different : (key == entry.1) = false := by
        simpa using same
      rw [different] at found
      exact List.mem_cons_of_mem _ (ih found)

theorem key_ne_of_lookup_none (absent : entries.lookup key = none) :
    ∀ entry ∈ entries, entry.1 ≠ key := by
  intro entry member same
  have differs := List.lookup_eq_none_iff.mp absent entry member
  simp [same] at differs

end Lookups

namespace FeedbackWorld

variable {settings : HybridSettings} {world next : FeedbackWorld}

/-- What `_remember_backend_decision` may do to the records. -/
theorem remember_cases (settings : HybridSettings) (world : FeedbackWorld)
    (requestId : Option String) (modelId : String) (report : DispatchReport) :
    (world.remember settings requestId modelId report = world ∧
      ∀ id, requestId = some id → id = "") ∨
    ∃ id, requestId = some id ∧ id ≠ "" ∧
      (world.remember settings requestId modelId report).deliveries = world.deliveries ∧
      ((∃ record, (id, record) ∈ world.decisions ∧
          (world.remember settings requestId modelId report).issued = world.issued ∧
          (world.remember settings requestId modelId report).decisions.length =
            world.decisions.length ∧
          ∀ entry ∈ (world.remember settings requestId modelId report).decisions,
            entry = (id, record.report report) ∨ entry ∈ world.decisions ∧ entry.1 ≠ id) ∨
        ((world.remember settings requestId modelId report).issued = world.issued + 1 ∧
          (world.decisions.length ≤ settings.maxRecordedDecisions →
            (world.remember settings requestId modelId report).decisions.length ≤
              settings.maxRecordedDecisions) ∧
          ∀ entry ∈ (world.remember settings requestId modelId report).decisions,
            entry = (id, FeedbackDispatch.report
              { modelId, backend := report.backend, serial := world.issued } report) ∨
            entry ∈ world.decisions ∧ entry.1 ≠ id)) := by
  cases requestId with
  | none => exact Or.inl ⟨rfl, by simp⟩
  | some id =>
    unfold remember
    by_cases blank : id = ""
    · exact Or.inl ⟨by simp [blank], fun other same => (Option.some.inj same).symm.trans blank⟩
    · right
      refine ⟨id, rfl, blank, ?_⟩
      simp only [if_neg blank]
      cases found : world.lookup id with
      | some record =>
        refine ⟨rfl, Or.inl ⟨record, mem_of_lookup found, rfl, by simp, ?_⟩⟩
        intro entry member
        rcases List.mem_map.mp member with ⟨earlier, there, rfl⟩
        by_cases same : earlier.1 = id
        · exact Or.inl (if_pos same)
        · rw [if_neg same]
          exact Or.inr ⟨there, same⟩
      | none =>
        refine ⟨rfl, Or.inr ⟨rfl, ?_, ?_⟩⟩
        · intro within
          have positive := settings.positive
          split_ifs
          · simp only [List.length_append, List.length_tail, List.length_singleton]
            omega
          · simp only [List.length_append, List.length_singleton]
            omega
        · intro entry member
          rcases List.mem_append.mp member with earlier | new
          · right
            have there : entry ∈ world.decisions := by
              split_ifs at earlier
              · exact List.mem_of_mem_tail earlier
              · exact earlier
            exact ⟨there, key_ne_of_lookup_none found entry there⟩
          · exact Or.inl (List.mem_singleton.mp new)

theorem deliveries_remember {requestId : Option String} {modelId : String}
    {report : DispatchReport} :
    (world.remember settings requestId modelId report).deliveries = world.deliveries := by
  rcases remember_cases settings world requestId modelId report with
    ⟨same, -⟩ | ⟨id, -, -, deliveries, -⟩
  · rw [same]
  · exact deliveries

/-- What the records tell about the reports so far, and the deliveries about the records. -/
structure Recorded (settings : HybridSettings) (past : List FeedbackEvent)
    (world : FeedbackWorld) : Prop where
  bounded : world.decisions.length ≤ settings.maxRecordedDecisions
  named : ∀ entry ∈ world.decisions, entry.1 ≠ ""
  written : ∀ entry ∈ world.decisions, entry.2.Written
  reported : ∀ entry ∈ world.decisions,
    entry.2.reports <:+ past.filterMap (FeedbackEvent.reportOf entry.1)
  issued : ∀ entry ∈ world.decisions, entry.2.serial < world.issued
  own : ∀ first ∈ world.decisions, ∀ second ∈ world.decisions,
    first.2.serial = second.2.serial → first.1 = second.1
  released : ∀ delivery ∈ world.deliveries, delivery.observation.terminal = true →
    ∀ serial, delivery.serial = some serial → serial < world.issued ∧
      ∀ entry ∈ world.decisions, entry.2.serial ≠ serial
  once : world.deliveries.Pairwise fun first second =>
    first.observation.terminal = true → second.observation.terminal = true →
      first.serial ≠ none → first.serial ≠ second.serial

theorem recorded_initial (settings : HybridSettings) : Recorded settings [] {} where
  bounded := Nat.zero_le _
  named := by simp
  written := by simp
  reported := by simp
  issued := by simp
  own := by simp
  released := by simp
  once := List.Pairwise.nil

variable {past : List FeedbackEvent}

/-- A record written under `id` keeps the records' laws when its serial belongs to no other
request's record and to no released one. -/
theorem Recorded.write (recorded : Recorded settings past world) {after : FeedbackWorld}
    {later : List FeedbackEvent} {id : String} {record : FeedbackDispatch}
    (bounded : after.decisions.length ≤ settings.maxRecordedDecisions)
    (entries : ∀ entry ∈ after.decisions,
      entry = (id, record) ∨ entry ∈ world.decisions ∧ entry.1 ≠ id)
    (deliveries : after.deliveries = world.deliveries) (issued : world.issued ≤ after.issued)
    (told : ∀ other, other ≠ id → later.filterMap (FeedbackEvent.reportOf other) =
      past.filterMap (FeedbackEvent.reportOf other))
    (named : id ≠ "") (written : record.Written)
    (reported : record.reports <:+ later.filterMap (FeedbackEvent.reportOf id))
    (serial : record.serial < after.issued)
    (own : ∀ entry ∈ world.decisions, entry.2.serial = record.serial → entry.1 = id)
    (unreleased : ∀ delivery ∈ world.deliveries, delivery.observation.terminal = true →
      delivery.serial ≠ some record.serial) : Recorded settings later after := by
  refine ⟨bounded, ?_, ?_, ?_, ?_, ?_, ?_, deliveries ▸ recorded.once⟩
  · intro entry member
    rcases entries entry member with rfl | ⟨earlier, -⟩
    · exact named
    · exact recorded.named entry earlier
  · intro entry member
    rcases entries entry member with rfl | ⟨earlier, -⟩
    · exact written
    · exact recorded.written entry earlier
  · intro entry member
    rcases entries entry member with rfl | ⟨earlier, differs⟩
    · exact reported
    · rw [told entry.1 differs]
      exact recorded.reported entry earlier
  · intro entry member
    rcases entries entry member with rfl | ⟨earlier, -⟩
    · exact serial
    · exact (recorded.issued entry earlier).trans_le issued
  · intro first firstMember second secondMember equal
    rcases entries first firstMember with rfl | ⟨firstEarlier, -⟩
    · rcases entries second secondMember with rfl | ⟨secondEarlier, -⟩
      · rfl
      · exact (own second secondEarlier equal.symm).symm
    · rcases entries second secondMember with rfl | ⟨secondEarlier, -⟩
      · exact own first firstEarlier equal
      · exact recorded.own first firstEarlier second secondEarlier equal
  · rw [deliveries]
    intro delivery member terminal serial from_record
    rcases recorded.released delivery member terminal serial from_record with ⟨older, gone⟩
    refine ⟨older.trans_le issued, ?_⟩
    intro entry entryMember
    rcases entries entry entryMember with rfl | ⟨earlier, -⟩
    · rintro rfl
      exact unreleased delivery member terminal from_record
    · exact gone entry earlier

theorem Recorded.remember (recorded : Recorded settings past world)
    {event : FeedbackEvent} {requestId : Option String} (modelId : String) {report : DispatchReport}
    (told : ∀ id, event.reportOf id = if requestId = some id then some report else none) :
    Recorded settings (past ++ [event]) (world.remember settings requestId modelId report) := by
  have longer (id : String) : (past ++ [event]).filterMap (FeedbackEvent.reportOf id) =
      past.filterMap (FeedbackEvent.reportOf id) ++
        (if requestId = some id then [report] else []) := by
    rw [List.filterMap_append]
    congr 1
    simp only [List.filterMap_cons, List.filterMap_nil, told]
    split_ifs <;> rfl
  have others (id : String) (other : requestId ≠ some id) :
      (past ++ [event]).filterMap (FeedbackEvent.reportOf id) =
        past.filterMap (FeedbackEvent.reportOf id) := by
    rw [longer, if_neg other, List.append_nil]
  rcases remember_cases settings world requestId modelId report with
    ⟨same, blank⟩ | ⟨id, rfl, named, deliveries, ⟨record, there, issued, length, entries⟩ |
      ⟨issued, length, entries⟩⟩
  · rw [same]
    refine { recorded with reported := ?_ }
    intro entry member
    rw [others entry.1 fun equal => recorded.named entry member (blank entry.1 equal)]
    exact recorded.reported entry member
  · apply recorded.write (length.trans_le recorded.bounded) entries deliveries issued.ge
      (fun other differs => others other (by simpa using differs.symm)) named
      (FeedbackDispatch.written_report report (recorded.written _ there).endpoints)
    · rw [longer, if_pos rfl]
      rcases recorded.reported _ there with ⟨front, whole⟩
      exact ⟨front, by rw [FeedbackDispatch.report, ← List.append_assoc, whole]⟩
    · exact issued ▸ recorded.issued _ there
    · intro entry member equal
      exact recorded.own entry member _ there equal
    · intro delivery member terminal from_record
      exact (recorded.released delivery member terminal _ from_record).2 _ there rfl
  · apply recorded.write (length recorded.bounded) entries deliveries (by omega)
      (fun other differs => others other (by simpa using differs.symm)) named
      (FeedbackDispatch.written_report report fun _ => rfl)
    · rw [longer, if_pos rfl]
      exact List.suffix_append _ _
    · exact issued ▸ Nat.lt_succ_self _
    · intro entry member equal
      exact absurd equal (Nat.ne_of_lt (recorded.issued entry member))
    · intro delivery member terminal from_record
      exact Nat.lt_irrefl _ (recorded.released delivery member terminal _ from_record).1

theorem resolve_cases (settings : HybridSettings) (world : FeedbackWorld)
    (observation : Observation) (claimants : List String) :
    (world.resolve settings observation claimants).1.issued = world.issued ∧
    (world.resolve settings observation claimants).1.deliveries = world.deliveries ∧
    (∀ entry ∈ (world.resolve settings observation claimants).1.decisions,
      entry ∈ world.decisions) ∧
    (world.resolve settings observation claimants).1.decisions.length ≤ world.decisions.length ∧
    ∀ delivery, (world.resolve settings observation claimants).2 = some delivery →
      delivery.observation = observation ∧
      ∀ serial, delivery.serial = some serial →
        ∃ id record, (id, record) ∈ world.decisions ∧ record.serial = serial ∧
          (observation.terminal = true →
            ∀ entry ∈ (world.resolve settings observation claimants).1.decisions,
              entry.1 ≠ id) := by
  have releases (entry : String × FeedbackDispatch)
      (member : entry ∈ (world.release observation).decisions) : entry ∈ world.decisions := by
    unfold release at member
    split at member
    · exact List.mem_of_mem_filter member
    · exact member
  have shorter : (world.release observation).decisions.length ≤ world.decisions.length := by
    unfold release
    split
    · exact List.length_filter_le _ _
    · exact le_rfl
  have issued : (world.release observation).issued = world.issued ∧
      (world.release observation).deliveries = world.deliveries := by
    unfold release
    split <;> exact ⟨rfl, rfl⟩
  unfold resolve
  cases found : world.recordFor observation with
  | some record =>
    dsimp only
    rcases Option.bind_eq_some_iff.mp found with ⟨id, request, there⟩
    by_cases differs : observation.modelId ≠ record.modelId
    · rw [if_pos differs]
      exact ⟨rfl, rfl, fun _ member => member, le_rfl, by simp⟩
    · rw [if_neg differs]
      refine ⟨issued.1, issued.2, releases, shorter, ?_⟩
      intro delivery delivered
      rcases Option.map_eq_some_iff.mp delivered with ⟨backend, -, rfl⟩
      refine ⟨rfl, ?_⟩
      intro serial same
      cases same
      refine ⟨id, record, mem_of_lookup there, rfl, ?_⟩
      intro terminal entry member
      simp only [release, terminal, request, List.mem_filter, decide_eq_true_eq] at member
      exact member.2
  | none =>
    dsimp only
    split
    · refine ⟨issued.1, issued.2, releases, shorter, ?_⟩
      intro delivery delivered
      cases delivered
      exact ⟨rfl, by simp⟩
    · exact ⟨rfl, rfl, fun _ member => member, le_rfl, by simp⟩

theorem Recorded.observe (recorded : Recorded settings past world)
    (observation : Observation) (claimants : List String) :
    Recorded settings (past ++ [.observe observation claimants])
      { (world.resolve settings observation claimants).1 with
        deliveries := (world.resolve settings observation claimants).1.deliveries ++
          (world.resolve settings observation claimants).2.toList } := by
  rcases resolve_cases settings world observation claimants with
    ⟨issued, deliveries, kept, length, delivers⟩
  refine ⟨length.trans recorded.bounded, ?_, ?_, ?_, ?_, ?_, ?_, ?_⟩
  · intro entry member
    exact recorded.named entry (kept entry member)
  · intro entry member
    exact recorded.written entry (kept entry member)
  · intro entry member
    simpa [List.filterMap_cons, FeedbackEvent.reportOf] using
      recorded.reported entry (kept entry member)
  · intro entry member
    rw [issued]
    exact recorded.issued entry (kept entry member)
  · intro first firstMember second secondMember equal
    exact recorded.own first (kept first firstMember) second (kept second secondMember) equal
  · dsimp only
    rw [deliveries, issued]
    intro delivery member terminal serial from_record
    rcases List.mem_append.mp member with earlier | new
    · rcases recorded.released delivery earlier terminal serial from_record with ⟨older, gone⟩
      exact ⟨older, fun entry there => gone entry (kept entry there)⟩
    · rcases delivers delivery (Option.mem_toList.mp new) with ⟨same, named⟩
      rcases named serial from_record with ⟨id, record, there, rfl, removed⟩
      refine ⟨recorded.issued _ there, ?_⟩
      intro entry entryMember equal
      have ids := recorded.own entry (kept entry entryMember) _ there equal
      exact removed (same ▸ terminal) entry entryMember ids
  · dsimp only
    rw [deliveries, List.pairwise_append]
    refine ⟨recorded.once, ?_, ?_⟩
    · cases (world.resolve settings observation claimants).2 <;> simp
    · intro first firstMember second secondMember firstTerminal secondTerminal some_record equal
      rcases Option.ne_none_iff_exists'.mp some_record with ⟨serial, from_record⟩
      rcases delivers second (Option.mem_toList.mp secondMember) with ⟨-, named⟩
      rcases named serial (equal.symm.trans from_record) with ⟨id, record, there, same, -⟩
      exact (recorded.released first firstMember firstTerminal serial from_record).2 _ there same

/-- One event keeps the records true. -/
theorem Recorded.step (recorded : Recorded settings past world)
    {event : FeedbackEvent} (stepped : (feedbackMachine settings).step world event = some next) :
    Recorded settings (past ++ [event]) next := by
  cases event with
  | decide requestId backend modelId | dispatched requestId backend modelId routing endpointId =>
    cases stepped
    exact recorded.remember modelId (fun id => rfl)
  | observe observation claimants =>
    cases stepped
    exact recorded.observe observation claimants

theorem recorded_of_run (ran : (feedbackMachine settings).run {} past = some world) :
    Recorded settings past world := by
  apply Machine.run_history (recorded_initial settings) _ ran
  intro past state event next _ recorded stepped
  exact recorded.step stepped

end FeedbackWorld

def sole : List String → Option String
  | [only] => some only
  | _ => none

section Runs

variable {settings : HybridSettings} {world : FeedbackWorld}

variable {observation : Observation}

theorem resolve_claimed (claimants : List String)
    (unrecorded : world.recordFor observation = none) :
    (world.resolve settings observation claimants).2.map Delivery.backend =
      sole (settings.backends.filter (· ∈ claimants)) := by
  unfold FeedbackWorld.resolve sole
  rw [unrecorded]
  dsimp only
  split <;> rfl

/-- Where an observation goes while the record of its request is kept: to the backend of the latest
dispatch that named the endpoint, to the latest backend while no endpoint is named, and nowhere
when the record has another model or names other endpoints only. -/
structure Attributed (settings : HybridSettings) (past : List FeedbackEvent)
    (world : FeedbackWorld) (observation : Observation) (claimants : List String) (id : String)
    (record : FeedbackDispatch) : Prop where
  named : observation.modelId = record.modelId →
    record.endpoints.find observation.endpointId ≠ none →
    ∃ backend, latestFor observation.endpointId (past.filterMap (FeedbackEvent.reportOf id)) =
        some backend ∧
      (world.resolve settings observation claimants).2 =
        some ⟨backend, observation, some record.serial⟩
  unnamed : observation.modelId = record.modelId →
    (∀ endpoint, record.endpoints.find endpoint = none) →
    ∃ report, (past.filterMap (FeedbackEvent.reportOf id)).getLast? = some report ∧
      (world.resolve settings observation claimants).2 =
        some ⟨report.backend, observation, some record.serial⟩
  others : record.endpoints.find observation.endpointId = none →
    (∃ endpoint, record.endpoints.find endpoint ≠ none) →
    (world.resolve settings observation claimants).2 = none
  foreign : observation.modelId ≠ record.modelId →
    (world.resolve settings observation claimants).2 = none

/-- The delivery a kept record decides on. -/
theorem resolve_recorded_eq (claimants : List String) {id : String} {record : FeedbackDispatch}
    (request : observation.requestId = some id) (found : world.lookup id = some record) :
    (world.resolve settings observation claimants).2 = if observation.modelId = record.modelId then
        (record.backendFor observation.endpointId).map fun backend =>
          ⟨backend, observation, some record.serial⟩
      else none := by
  have kept : world.recordFor observation = some record := by
    simp [FeedbackWorld.recordFor, request, found]
  unfold FeedbackWorld.resolve
  rw [kept]
  dsimp only
  split_ifs <;> first | rfl | contradiction

theorem resolve_recorded {past : List FeedbackEvent}
    (recorded : FeedbackWorld.Recorded settings past world)
    (claimants : List String) {id : String} {record : FeedbackDispatch}
    (request : observation.requestId = some id) (found : world.lookup id = some record) :
    Attributed settings past world observation claimants id record := by
  have there := mem_of_lookup found
  have written := recorded.written _ there
  have resolved := @resolve_recorded_eq settings _ _ claimants _ _ request found
  constructor
  · intro model named
    rcases Option.ne_none_iff_exists'.mp named with ⟨backend, isNamed⟩
    refine ⟨backend, latestFor_of_suffix (recorded.reported _ there)
      ((written.endpoints _).symm.trans isNamed), ?_⟩
    rw [resolved, if_pos model, FeedbackDispatch.backendFor, isNamed]
    rfl
  · intro model unnamed
    rcases Option.map_eq_some_iff.mp written.backend with ⟨report, last, isBackend⟩
    refine ⟨report, getLast?_of_suffix (recorded.reported _ there) last, ?_⟩
    have empty : record.endpoints.keys.isEmpty = true := Dict.keys_isEmpty_of_find unnamed
    rw [resolved, if_pos model, FeedbackDispatch.backendFor, unnamed, if_pos empty, isBackend]
    rfl
  · rintro unnamed ⟨endpoint, named⟩
    have filled : ¬record.endpoints.keys.isEmpty = true := by
      intro empty
      exact named (by rw [Dict.eq_empty_of_keys_isEmpty empty]; rfl)
    rw [resolved, FeedbackDispatch.backendFor, unnamed, if_neg filled]
    split_ifs <;> rfl
  · intro foreign
    rw [resolved, if_neg foreign]

theorem resolve_releases (claimants : List String) {id : String}
    {record : FeedbackDispatch} (request : observation.requestId = some id)
    (found : world.lookup id = some record) (model : observation.modelId = record.modelId)
    (terminal : observation.terminal = true) :
    (world.resolve settings observation claimants).1.lookup id = none := by
  have kept : world.recordFor observation = some record := by
    simp [FeedbackWorld.recordFor, request, found]
  unfold FeedbackWorld.resolve
  rw [kept]
  dsimp only
  rw [if_neg (not_not.mpr model)]
  apply List.lookup_eq_none_iff.mpr
  intro entry member
  simp only [FeedbackWorld.release, terminal, request, List.mem_filter, decide_eq_true_eq] at member
  simpa using fun equal : id = entry.1 => member.2 equal.symm

/-- Every observation reaches at most one backend, the one its request's record attributes it to,
and without a record the only claimant; no record passes on two terminal observations. -/
theorem feedback_reaches_one_backend {past : List FeedbackEvent}
    (ran : (feedbackMachine settings).run {} past = some world) :
    world.decisions.length ≤ settings.maxRecordedDecisions ∧
    (∀ event next, (feedbackMachine settings).step world event = some next →
      next.deliveries = world.deliveries ∨
      ∃ observation claimants delivery, event = .observe observation claimants ∧
        (world.resolve settings observation claimants).2 = some delivery ∧
        next.deliveries = world.deliveries ++ [delivery]) ∧
    (∀ observation claimants id record, observation.requestId = some id →
      world.lookup id = some record →
      Attributed settings past world observation claimants id record) ∧
    (∀ observation claimants, world.recordFor observation = none →
      (world.resolve settings observation claimants).2.map Delivery.backend =
        sole (settings.backends.filter (· ∈ claimants))) ∧
    (∀ observation claimants id record, observation.requestId = some id →
      world.lookup id = some record → observation.modelId = record.modelId →
      observation.terminal = true →
      (world.resolve settings observation claimants).1.lookup id = none) ∧
    world.deliveries.Pairwise fun first second =>
      first.observation.terminal = true → second.observation.terminal = true →
        first.serial ≠ none → first.serial ≠ second.serial := by
  have recorded := FeedbackWorld.recorded_of_run ran
  refine ⟨recorded.bounded, ?_, ?_, ?_, ?_, recorded.once⟩
  · intro event next stepped
    cases event with
    | decide requestId backend modelId | dispatched requestId backend modelId routing endpointId =>
      cases stepped
      exact Or.inl FeedbackWorld.deliveries_remember
    | observe observation claimants =>
      cases stepped
      have kept := (FeedbackWorld.resolve_cases settings world observation claimants).2.1
      cases delivered : (world.resolve settings observation claimants).2 with
      | none =>
        left
        simpa using kept
      | some delivery =>
        right
        exact ⟨observation, claimants, delivery, rfl, delivered, by simp [kept]⟩
  · intro observation claimants id record request found
    exact resolve_recorded recorded claimants request found
  · intro observation claimants unrecorded
    exact resolve_claimed claimants unrecorded
  · intro observation claimants id record request found model terminal
    exact resolve_releases claimants request found model terminal

def twoBackends : HybridSettings where
  backends := ["local", "cloud"]

/-- A request that failed on the local side and was answered by the cloud: the two
reports of its attempts. -/
theorem feedback_reaches_one_backend_fallback :
    let events : List FeedbackEvent :=
      [.decide (some "r") "local" "m",
        .dispatched (some "r") "local" "m" {} (.named "gpu-1"),
        .dispatched (some "r") "cloud" "m" { endpointId := .named "api-1" } .absent,
        .observe ⟨some "r", "m", "gpu-1", false⟩ [],
        .observe ⟨some "r", "m", "api-1", true⟩ []]
    ∃ world, (feedbackMachine twoBackends).run {} events = some world ∧
      world.deliveries.map (fun delivery => (delivery.backend, delivery.observation.endpointId)) =
        [("local", "gpu-1"), ("cloud", "api-1")] ∧
      world.decisions.length ≤ 4096 := by
  intro events
  have ends : ((feedbackMachine twoBackends).run {} events).map (fun world =>
        world.deliveries.map fun delivery =>
          (delivery.backend, delivery.observation.endpointId)) =
      some [("local", "gpu-1"), ("cloud", "api-1")] := by
    decide +kernel
  rcases Option.map_eq_some_iff.mp ends with ⟨world, ran, shown⟩
  exact ⟨world, ran, shown, (feedback_reaches_one_backend ran).1⟩

/-- An observation of a request that has no record goes to the only backend that
claims it, and so does a second terminal observation of one decision. -/
theorem feedback_without_a_record : ((feedbackMachine twoBackends).run {}
        [.observe ⟨some "unknown", "m", "gpu-1", false⟩ ["local"], .decide (some "r") "local" "m",
          .dispatched (some "r") "local" "m" {} (.named "gpu-1"),
          .observe ⟨some "r", "m", "gpu-1", true⟩ ["local"],
          .observe ⟨some "r", "m", "gpu-1", true⟩ ["local"]]).map (fun world =>
        world.deliveries.map fun delivery => (delivery.backend, delivery.observation)) =
      some [("local", ⟨some "unknown", "m", "gpu-1", false⟩),
        ("local", ⟨some "r", "m", "gpu-1", true⟩), ("local", ⟨some "r", "m", "gpu-1", true⟩)] := by
  decide +kernel

end Runs

end HybridInference.Routing
