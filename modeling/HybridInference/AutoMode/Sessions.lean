import HybridInference.AutoMode.Selection
import HybridInference.Library.RecentStore
import Mathlib.Data.Finset.Order

/-!
# The sessions that auto mode keeps

`AutoMode.select` of `serving.auto_mode` over its session store. The caller's access and the routes
that are up are part of the request: they are the models it can reach.
-/

namespace HybridInference.AutoMode

open Library

structure SessionLimits where
  idleTimeoutSeconds : ℚ
  maxSessions : ℕ
  timeout_pos : 0 < idleTimeoutSeconds
  sessions_pos : 0 < maxSessions

/-- `AutoMode`: the tier that a model name resolves to, and the session settings. -/
structure Mode where
  resolve : String → Option AutoProfile
  limits : SessionLimits

structure Reachable where
  canonical : String
  info : CandidateInfo
  up : Bool

structure AutoModelUnavailable where
  statusCode : ℕ
  detail : Option String
  deriving DecidableEq

structure AutoSelection where
  requested : String
  decision : Decision
  candidate : Candidate
  modelId : String
  turn : TurnKind
  promptTokens : ℤ
  sessionSource : Option String
  switches : ℕ

structure Request (Key : Type*) where
  requested : String
  features : RequestFeatures
  reachable : String → Option Reachable
  session : Option (Key × String)
  getAt : ℚ
  putAt : ℚ

abbrev SessionStore (Key : Type*) := RecentStore Key SessionState ℚ

variable {Key : Type*} [DecidableEq Key]

def Request.catalog (request : Request Key) (modelId : String) : Option CandidateInfo :=
  ((request.reachable modelId).filter Reachable.up).map Reachable.info

/-- Why the candidates whose models the caller can reach cannot serve; `none` for one that could. -/
def reachableReasons (candidates : List Candidate) (request : Request Key) :
    List (Option DropReason) :=
  candidates.filterMap fun candidate =>
    (request.reachable candidate.modelId).map fun entry =>
      dropReason candidate (some entry.info) request.features

def unavailableFor (request : Request Key) : DropReason → Option AutoModelUnavailable
  | .context =>
    some ⟨400, some ("The request is too long for every model '" ++ request.requested ++
      "' can use")⟩
  | .modality =>
    let kinds := ", ".intercalate
      ((request.features.inputModalities.filter (· ≠ "text")).mergeSort fun first second =>
        first ≤ second)
    some ⟨400, some ("No model '" ++ request.requested ++ "' can use accepts " ++
      (if kinds = "" then "this" else kinds) ++ " input")⟩
  | .tools => some ⟨400, some ("No model '" ++ request.requested ++ "' can use supports tools")⟩
  | .unavailable | .effort => none

def unavailable (candidates : List Candidate) (request : Request Key) : AutoModelUnavailable :=
  let reasons := reachableReasons candidates request
  if reasons.contains none then
    ⟨503, some ("No provider is currently available for model '" ++ request.requested ++ "'")⟩
  else ((reasons.filterMap id).findSome? (unavailableFor request)).getD ⟨404, none⟩

namespace Mode

variable (mode : Mode)

def sessionOf (sessions : SessionStore Key) (request : Request Key) :
    Option SessionState × SessionStore Key :=
  match request.session with
  | none => (none, sessions)
  | some (key, _) => RecentStore.get mode.limits.idleTimeoutSeconds sessions key request.getAt

def storeFor (sessions : SessionStore Key) (request : Request Key) (next : Option SessionState) :
    SessionStore Key :=
  match request.session, next with
  | some (key, _), some state =>
    RecentStore.put mode.limits.idleTimeoutSeconds mode.limits.maxSessions sessions key state
      request.putAt
  | _, _ => sessions

def select (sessions : SessionStore Key) (request : Request Key) :
    Except AutoModelUnavailable AutoSelection × SessionStore Key :=
  match mode.resolve request.requested with
  | none => (.error ⟨404, none⟩, sessions)
  | some profile =>
    let (state, sessions) := mode.sessionOf sessions request
    let decision := AutoMode.select profile request.features request.catalog state
    match decision.chosen with
    | none => (.error (unavailable profile.candidates request), sessions)
    | some chosen =>
      (.ok
        { requested := request.requested
          decision := decision
          candidate := chosen
          modelId := ((request.reachable chosen.modelId).map Reachable.canonical).getD
            chosen.modelId
          turn := request.features.turn
          promptTokens := request.features.promptTokens
          sessionSource := request.session.map Prod.snd
          switches :=
            match decision.nextState with
            | some next => next.switches
            | none => (state.map SessionState.switches).getD 0 },
        mode.storeFor sessions request decision.nextState)

end Mode

structure Run (Key : Type*) where
  answers : List (Request Key × Except AutoModelUnavailable AutoSelection) := []
  sessions : SessionStore Key := []

def Mode.serve (mode : Mode) (run : Run Key) (request : Request Key) : Run Key :=
  let selected := mode.select run.sessions request
  { answers := (request, selected.1) :: run.answers, sessions := selected.2 }

def Mode.run (mode : Mode) (requests : List (Request Key)) : Run Key :=
  requests.foldl mode.serve {}

structure Choice (Key : Type*) where
  key : Key
  candidate : Candidate
  turn : TurnKind
  getAt : ℚ
  putAt : ℚ

def choiceOf (answered : Request Key × Except AutoModelUnavailable AutoSelection) :
    Option (Choice Key) :=
  match answered.1.session, answered.2 with
  | some (key, _), .ok selection =>
    if answered.1.features.turn = .sideCall then none
    else some
      { key := key
        candidate := selection.candidate
        turn := answered.1.features.turn
        getAt := answered.1.getAt
        putAt := answered.1.putAt }
  | _, _ => none

def Run.history (run : Run Key) : List (Choice Key) := run.answers.filterMap choiceOf

section History

variable (limits : SessionLimits)

def heldChoice (history : List (Choice Key)) (key : Key) (now : ℚ) : Option Candidate :=
  RecentStore.remembered limits.idleTimeoutSeconds limits.maxSessions
    (history.map fun choice => (choice.key, choice.candidate, choice.putAt)) key now

def sessionChoices : List (Choice Key) → Key → List (Choice Key)
  | [], _ => []
  | choice :: earlier, key =>
    if choice.key = key then
      choice ::
        if (heldChoice limits earlier key choice.getAt).isSome then sessionChoices earlier key
        else []
    else sessionChoices earlier key

def changes : List Candidate → ℕ
  | last :: before :: rest => (if last = before then 0 else 1) + changes (before :: rest)
  | _ => 0

def stateFrom (version : String) (candidate : Candidate) (choices : List (Choice Key)) :
    SessionState :=
  { candidate := candidate
    profileVersion := version
    turns := choices.countP fun choice => choice.turn = .newTurn
    switches := changes (choices.map Choice.candidate) }

def stateOf (version : String) (history : List (Choice Key)) (key : Key) (now : ℚ) :
    Option SessionState :=
  (heldChoice limits history key now).map fun candidate =>
    stateFrom version candidate (sessionChoices limits history key)

def states (version : String) : List (Choice Key) → List (Key × SessionState × ℚ)
  | [] => []
  | choice :: earlier =>
    (choice.key, stateFrom version choice.candidate
        (sessionChoices limits (choice :: earlier) choice.key), choice.putAt) ::
      states version earlier

variable {limits} {version : String} {history : List (Choice Key)} {key : Key} {now : ℚ}

theorem storedAfter_states : RecentStore.storedAfter (states limits version history) key =
      RecentStore.storedAfter
        (history.map fun choice => (choice.key, choice.candidate, choice.putAt)) key := by
  unfold RecentStore.storedAfter
  congr 1
  induction history with
  | nil => rfl
  | cons choice earlier ih =>
    rw [states, List.map_cons]
    by_cases same : choice.key = key
    · rw [List.takeWhile_cons_of_neg (by simpa using same),
        List.takeWhile_cons_of_neg (by simpa using same)]
      rfl
    · rw [List.takeWhile_cons_of_pos (by simpa using same),
        List.takeWhile_cons_of_pos (by simpa using same), List.map_cons, List.map_cons, ih]

theorem lookup_states : (states limits version history).lookup key =
      ((history.map fun choice => (choice.key, choice.candidate, choice.putAt)).lookup key).map
        fun held => (stateFrom version held.1 (sessionChoices limits history key), held.2) := by
  induction history with
  | nil => rfl
  | cons choice earlier ih =>
    rw [states, List.map_cons, OrderedDict.lookup_eq_ite, OrderedDict.lookup_eq_ite]
    by_cases same : key = choice.key
    · rw [if_pos same, if_pos same, same]
      rfl
    · rw [if_neg same, if_neg same, ih, sessionChoices, if_neg (Ne.symm same)]

theorem remembered_states : RecentStore.remembered limits.idleTimeoutSeconds limits.maxSessions
      (states limits version history) key now = stateOf limits version history key now := by
  unfold stateOf heldChoice RecentStore.remembered
  rw [lookup_states, storedAfter_states]
  cases (history.map fun choice => (choice.key, choice.candidate, choice.putAt)).lookup key with
  | none => rfl
  | some held =>
    dsimp only [Option.map_some]
    split_ifs <;> rfl

theorem sessionChoices_of_held {candidate : Candidate}
    (held : heldChoice limits history key now = some candidate) :
    ∃ choice rest, sessionChoices limits history key = choice :: rest ∧
      choice.candidate = candidate := by
  have looked : ∃ putAt, (history.map fun choice =>
      (choice.key, choice.candidate, choice.putAt)).lookup key = some (candidate, putAt) := by
    unfold heldChoice RecentStore.remembered at held
    split at held
    · cases held
    · rename_i value storedAt found
      split_ifs at held with within
      rw [Option.some.injEq] at held
      exact ⟨storedAt, held ▸ found⟩
  clear held
  rcases looked with ⟨putAt, found⟩
  induction history with
  | nil => cases found
  | cons choice earlier ih =>
    rw [List.map_cons, OrderedDict.lookup_eq_ite] at found
    unfold sessionChoices
    split_ifs at found with same
    · rw [Option.some.injEq, Prod.mk.injEq] at found
      rw [if_pos same.symm]
      exact ⟨choice, _, rfl, found.1⟩
    · rw [if_neg (Ne.symm same)]
      exact ih found

end History

section Serving

variable {profile : AutoProfile} {features : RequestFeatures}
  {catalog : String → Option CandidateInfo} {state : Option SessionState} {chosen : Candidate}

def ableFor (profile : AutoProfile) (request : Request Key) : List Candidate :=
  able request.catalog request.features profile.candidates

theorem select_ranked_perm (profile : AutoProfile) (features : RequestFeatures)
    (catalog : String → Option CandidateInfo) (state : Option SessionState) :
    (select profile features catalog state).ranked.Perm
      (able catalog features profile.candidates) := by
  unfold select
  rw [rank_able]
  exact continueSession_perm (nodup_able catalog features) state features.turn profile.version

theorem select_chosen_isSome : (select profile features catalog state).chosen.isSome =
      !(able catalog features profile.candidates).isEmpty := by
  have perm := select_ranked_perm profile features catalog state
  unfold Decision.chosen
  cases ranked : (select profile features catalog state).ranked with
  | nil =>
    rw [ranked] at perm
    rw [List.nil_perm.mp perm]
    rfl
  | cons first rest =>
    rw [ranked] at perm
    cases list : able catalog features profile.candidates with
    | nil =>
      rw [list] at perm
      cases List.perm_nil.mp perm
    | cons => rfl

theorem select_chosen_mem (picked : (select profile features catalog state).chosen = some chosen) :
    chosen ∈ able catalog features profile.candidates :=
  (select_ranked_perm profile features catalog state).subset (List.mem_of_mem_head? picked)

theorem nextState_of_sideCall (side : features.turn = .sideCall) :
    (select profile features catalog state).nextState = none := by
  unfold select continueSession
  rw [if_pos side]

def usableState (profile : AutoProfile) (state : Option SessionState) : Option SessionState :=
  state.filter fun state => state.profileVersion = profile.version

theorem nextState_of_new (side : features.turn ≠ .sideCall)
    (lost : usableState profile state = none)
    (picked : (select profile features catalog state).chosen = some chosen) :
    (able catalog features profile.candidates).head? = some chosen ∧
      (select profile features catalog state).nextState =
        some ⟨chosen, profile.version, newTurns features.turn, 0⟩ := by
  unfold usableState at lost
  unfold Decision.chosen select continueSession at picked
  unfold select continueSession
  rw [if_neg side, rank_able, lost] at picked ⊢
  cases listed : able catalog features profile.candidates with
  | nil =>
    rw [listed] at picked
    cases picked
  | cons first rest =>
    rw [listed] at picked
    cases picked
    exact ⟨rfl, rfl⟩

theorem continueOn_next {held : SessionState} {first : Candidate} {rest : List Candidate}
    {turn : TurnKind} {version : String}
    (picked : (continueOn held first rest turn version).1.head? = some chosen) :
    (continueOn held first rest turn version).2.2 = ⟨chosen, version, held.turns + newTurns turn,
          (if chosen = held.candidate then 0 else 1) + held.switches⟩ ∧
      (turn = .toolContinuation → held.candidate ∈ first :: rest → chosen = held.candidate) ∧
      (turn = .newTurn → first = chosen) ∧
      ((continueOn held first rest turn version).2.1 = .keep →
        chosen = held.candidate ∧ held.candidate ∈ first :: rest) := by
  unfold continueOn at *
  dsimp only at *
  by_cases inside : held.candidate ∈ first :: rest
  · rw [if_neg (not_not.mpr inside)] at *
    by_cases stays : turn = .toolContinuation ∨ first = held.candidate
    · rw [if_pos stays] at *
      cases picked
      refine ⟨by simp, fun _ _ => rfl, ?_, fun _ => ⟨rfl, inside⟩⟩
      intro newTurn
      rcases stays with continuing | same
      · rw [newTurn] at continuing
        cases continuing
      · exact same
    · rw [if_neg stays] at *
      cases picked
      rw [not_or] at stays
      refine ⟨?_, fun continuing _ => absurd continuing stays.1, fun _ => rfl, by simp⟩
      rw [if_neg stays.2, Nat.add_comm 1]
  · rw [if_pos inside] at *
    cases picked
    have other : chosen ≠ held.candidate := by
      intro same
      exact inside (same ▸ List.mem_cons_self)
    refine ⟨?_, fun _ able => absurd able inside, fun _ => rfl, by simp⟩
    rw [if_neg other, Nat.add_comm 1]

theorem nextState_of_held {held : SessionState} (side : features.turn ≠ .sideCall)
    (isHeld : usableState profile state = some held)
    (picked : (select profile features catalog state).chosen = some chosen) :
    (select profile features catalog state).nextState =
        some ⟨chosen, profile.version, held.turns + newTurns features.turn,
          (if chosen = held.candidate then 0 else 1) + held.switches⟩ ∧
      (features.turn = .toolContinuation →
        held.candidate ∈ able catalog features profile.candidates → chosen = held.candidate) ∧
      (features.turn = .newTurn → (able catalog features profile.candidates).head? = some chosen) ∧
      ((select profile features catalog state).sessionAction = .keep →
        chosen = held.candidate ∧ held.candidate ∈ able catalog features profile.candidates) := by
  unfold usableState at isHeld
  unfold Decision.chosen select continueSession at picked
  unfold select continueSession
  rw [if_neg side, rank_able, isHeld] at picked ⊢
  cases listed : able catalog features profile.candidates with
  | nil =>
    rw [listed] at picked
    cases picked
  | cons first rest =>
    rw [listed] at picked
    rcases continueOn_next picked with ⟨next, continuing, best, kept⟩
    refine ⟨congrArg some next, continuing, ?_, kept⟩
    intro newTurn
    exact congrArg some (best newTurn)

theorem chosen_of_sideCall (side : features.turn = .sideCall)
    (picked : (select profile features catalog state).chosen = some chosen) :
    (select profile features catalog state).sessionAction = .sideCall ∧
      ((∃ held, usableState profile state = some held ∧ chosen = held.candidate) ∨
        (∀ held, usableState profile state = some held →
            held.candidate ∉ able catalog features profile.candidates) ∧
          (able catalog features profile.candidates).head? = some chosen) := by
  unfold Decision.chosen select continueSession at picked
  unfold select continueSession
  dsimp only at picked ⊢
  rw [if_pos side, rank_able] at picked ⊢
  refine ⟨rfl, ?_⟩
  have usable : state.filter (fun state => state.profileVersion = profile.version) =
      usableState profile state := rfl
  rw [usable] at picked
  unfold sideCallOrder at picked
  cases isUsable : usableState profile state with
  | none =>
    rw [isUsable] at picked
    exact Or.inr ⟨by simp, picked⟩
  | some held =>
    rw [isUsable] at picked
    dsimp only at picked
    split_ifs at picked with inside
    · cases picked
      exact Or.inl ⟨held, rfl, rfl⟩
    · right
      refine ⟨?_, picked⟩
      rintro _ ⟨⟩
      exact inside

end Serving

section Runs

variable {mode : Mode} {profile : AutoProfile} {run : Run Key} {clock : ℚ} {request : Request Key}

def Tracks (mode : Mode) (profile : AutoProfile) (run : Run Key) (clock : ℚ) : Prop :=
  RecentStore.Follows mode.limits.idleTimeoutSeconds mode.limits.maxSessions run.sessions
    (states mode.limits profile.version run.history) clock

theorem Tracks.get (tracks : Tracks mode profile run clock) {key : Key} {now : ℚ}
    (le : clock ≤ now) :
    (RecentStore.get mode.limits.idleTimeoutSeconds run.sessions key now).1 =
      stateOf mode.limits profile.version run.history key now := by
  rw [(RecentStore.Follows.get tracks le).1]
  exact remembered_states

theorem Tracks.sessionOf (tracks : Tracks mode profile run clock) (le : clock ≤ request.getAt) :
    (mode.sessionOf run.sessions request).1 = request.session.bind (fun session =>
        stateOf mode.limits profile.version run.history session.1 request.getAt) ∧
      Tracks mode profile { run with sessions := (mode.sessionOf run.sessions request).2 }
        request.getAt := by
  unfold Mode.sessionOf
  cases request.session with
  | none => exact ⟨rfl, RecentStore.Follows.mono tracks le⟩
  | some session => exact ⟨tracks.get le, (RecentStore.Follows.get tracks le).2⟩

theorem stateOf_eq_some {limits : SessionLimits} {version : String} {history : List (Choice Key)}
    {key : Key} {now : ℚ} {state : SessionState}
    (held : stateOf limits version history key now = some state) :
    heldChoice limits history key now = some state.candidate ∧
      state = stateFrom version state.candidate (sessionChoices limits history key) := by
  unfold stateOf at held
  rw [Option.map_eq_some_iff] at held
  rcases held with ⟨candidate, isHeld, rfl⟩
  exact ⟨isHeld, rfl⟩

def afterChoice (version : String) (choice : Choice Key) : Option SessionState → SessionState
  | none => ⟨choice.candidate, version, newTurns choice.turn, 0⟩
  | some held => ⟨choice.candidate, version, held.turns + newTurns choice.turn,
      (if choice.candidate = held.candidate then 0 else 1) + held.switches⟩

theorem stateFrom_cons (limits : SessionLimits) (version : String) (history : List (Choice Key))
    (choice : Choice Key) :
    stateFrom version choice.candidate (sessionChoices limits (choice :: history) choice.key) =
      afterChoice version choice (stateOf limits version history choice.key choice.getAt) := by
  have counted : ∀ choices : List (Choice Key),
      (choice :: choices).countP (fun choice => choice.turn = .newTurn) =
        (choices.countP fun choice => choice.turn = .newTurn) + newTurns choice.turn := by
    intro choices
    rw [List.countP_cons]
    unfold newTurns
    simp only [decide_eq_true_eq]
  rw [sessionChoices, if_pos rfl]
  cases isState : stateOf limits version history choice.key choice.getAt with
  | none =>
    have lost : heldChoice limits history choice.key choice.getAt = none :=
      Option.map_eq_none_iff.mp isState
    rw [lost]
    unfold stateFrom
    rw [counted]
    simp [changes, afterChoice]
  | some held =>
    rcases stateOf_eq_some isState with ⟨isHeld, read⟩
    rcases sessionChoices_of_held isHeld with ⟨last, rest, listed, same⟩
    rw [isHeld, Option.isSome_some, if_pos rfl]
    have turns := congrArg SessionState.turns read
    have switches := congrArg SessionState.switches read
    unfold stateFrom at turns switches ⊢
    unfold afterChoice
    dsimp only at turns switches ⊢
    rw [counted, turns, switches, listed, List.map_cons, List.map_cons, changes, same]

structure KeepsModel (mode : Mode) (profile : AutoProfile) (history : List (Choice Key))
    (request : Request Key) (answer : Except AutoModelUnavailable AutoSelection) : Prop where
  served : (mode.resolve request.requested).isSome → (answer.isOk ↔ ableFor profile request ≠ [])
  able : ∀ selection, answer = .ok selection → selection.candidate ∈ ableFor profile request ∧
      selection.decision.ranked.Perm (ableFor profile request)
  continues : ∀ selection key source candidate, answer = .ok selection →
    request.session = some (key, source) →
    heldChoice mode.limits history key request.getAt = some candidate →
    request.features.turn = .toolContinuation → candidate ∈ ableFor profile request →
    selection.candidate = candidate
  newTurn : ∀ selection, answer = .ok selection → request.features.turn = .newTurn →
    (rank profile (ableFor profile request)).head? = some selection.candidate

theorem Mode.select_cases (sessions : SessionStore Key)
    (resolved : mode.resolve request.requested = some profile) :
    ((AutoMode.select profile request.features request.catalog
          (mode.sessionOf sessions request).1).chosen = none ∧
        ∃ refusal, mode.select sessions request =
          (.error refusal, (mode.sessionOf sessions request).2)) ∨
      ∃ selection, (AutoMode.select profile request.features request.catalog
            (mode.sessionOf sessions request).1).chosen = some selection.candidate ∧
        selection.decision = AutoMode.select profile request.features request.catalog
          (mode.sessionOf sessions request).1 ∧
        selection.turn = request.features.turn ∧
        selection.switches = (selection.decision.nextState.map SessionState.switches).getD
          (((mode.sessionOf sessions request).1.map SessionState.switches).getD 0) ∧
        mode.select sessions request = (.ok selection, mode.storeFor
          (mode.sessionOf sessions request).2 request selection.decision.nextState) := by
  unfold Mode.select
  rw [resolved]
  dsimp only
  cases picked : (AutoMode.select profile request.features request.catalog
      (mode.sessionOf sessions request).1).chosen with
  | none => exact Or.inl ⟨rfl, _, rfl⟩
  | some chosen =>
    right
    refine ⟨_, rfl, rfl, rfl, ?_, rfl⟩
    cases (AutoMode.select profile request.features request.catalog
      (mode.sessionOf sessions request).1).nextState <;> rfl

theorem Mode.select_of_unresolved (sessions : SessionStore Key)
    (unresolved : mode.resolve request.requested = none) :
    mode.select sessions request = (.error ⟨404, none⟩, sessions) := by
  unfold Mode.select
  rw [unresolved]

theorem Tracks.keepsModel (tracks : Tracks mode profile run clock)
    (only : ∀ name other, mode.resolve name = some other → other = profile)
    (late : clock ≤ request.getAt) :
    KeepsModel mode profile run.history request (mode.select run.sessions request).1 := by
  cases resolved : mode.resolve request.requested with
  | none =>
    rw [mode.select_of_unresolved run.sessions resolved]
    exact ⟨by simp [resolved], by simp, by simp, by simp⟩
  | some other =>
    cases only _ _ resolved
    rcases mode.select_cases run.sessions resolved with
      ⟨nobody, refusal, answer⟩ | ⟨selection, picked, decided, _, _, answer⟩
    · have empty : ableFor profile request = [] := by
        have isSome := @select_chosen_isSome profile request.features request.catalog
          (mode.sessionOf run.sessions request).1
        rw [nobody] at isSome
        simpa [ableFor] using isSome
      rw [answer]
      exact ⟨by simp [Except.isOk, Except.toBool, empty], by simp, by simp, by simp⟩
    · have able : selection.candidate ∈ ableFor profile request := select_chosen_mem picked
      have ranked : rank profile (ableFor profile request) = ableFor profile request :=
        rank_able request.catalog request.features
      have isState := (tracks.sessionOf late).1
      rw [answer]
      refine ⟨?_, ?_, ?_, ?_⟩
      · intro _
        simp only [Except.isOk, Except.toBool, true_iff]
        exact List.ne_nil_of_mem able
      · rintro _ ⟨⟩
        rw [decided]
        exact ⟨able, select_ranked_perm profile request.features request.catalog _⟩
      · rintro _ key source candidate ⟨⟩ isSession held continuing stillAble
        have side : request.features.turn ≠ .sideCall := by
          rw [continuing]
          decide
        rw [isSession, Option.bind_some, stateOf, held] at isState
        have usable : usableState profile (mode.sessionOf run.sessions request).1 =
            some (stateFrom profile.version candidate
              (sessionChoices mode.limits run.history key)) := by
          rw [isState]
          simp [usableState, Option.filter, stateFrom]
        exact (nextState_of_held side usable picked).2.1 continuing stillAble
      · rintro _ ⟨⟩ newTurn
        have side : request.features.turn ≠ .sideCall := by
          rw [newTurn]
          decide
        rw [ranked]
        cases usable : usableState profile (mode.sessionOf run.sessions request).1 with
        | none => exact (nextState_of_new side usable picked).1
        | some state => exact (nextState_of_held side usable picked).2.2.1 newTurn

theorem Tracks.unchanged (followed : Tracks mode profile
      { run with sessions := (mode.select run.sessions request).2 } clock)
    (late : clock ≤ request.putAt)
    (nothing : choiceOf (request, (mode.select run.sessions request).1) = none) :
    Tracks mode profile (mode.serve run request) request.putAt := by
  have same : (mode.serve run request).history = run.history := by
    unfold Mode.serve Run.history
    rw [List.filterMap_cons_none nothing]
  unfold Tracks
  rw [same]
  exact RecentStore.Follows.mono followed late

theorem nextState_eq {selection : AutoSelection} {session : Key × String}
    (side : request.features.turn ≠ .sideCall)
    (picked : (AutoMode.select profile request.features request.catalog
      (stateOf mode.limits profile.version run.history session.1 request.getAt)).chosen =
        some selection.candidate) :
    (AutoMode.select profile request.features request.catalog
        (stateOf mode.limits profile.version run.history session.1 request.getAt)).nextState =
      some (stateFrom profile.version selection.candidate (sessionChoices mode.limits
        (⟨session.1, selection.candidate, request.features.turn, request.getAt, request.putAt⟩ ::
          run.history) session.1)) := by
  have read := stateFrom_cons mode.limits profile.version run.history
    ⟨session.1, selection.candidate, request.features.turn, request.getAt, request.putAt⟩
  dsimp only at read
  rw [read]
  cases isState : stateOf mode.limits profile.version run.history session.1 request.getAt with
  | none =>
    rw [isState] at picked
    exact (nextState_of_new side rfl picked).2
  | some state =>
    have version : state.profileVersion = profile.version := by
      rw [(stateOf_eq_some isState).2]
      rfl
    have usable : usableState profile (some state) = some state := by
      simp [usableState, Option.filter, version]
    rw [isState] at picked
    exact (nextState_of_held side usable picked).1

theorem Tracks.serve (tracks : Tracks mode profile run clock)
    (only : ∀ name other, mode.resolve name = some other → other = profile)
    (late : clock ≤ request.getAt) (ordered : request.getAt ≤ request.putAt) :
    Tracks mode profile (mode.serve run request) request.putAt := by
  rcases tracks.sessionOf late with ⟨isState, followed⟩
  cases resolved : mode.resolve request.requested with
  | none =>
    have answer := mode.select_of_unresolved run.sessions resolved
    have kept : Tracks mode profile { run with sessions := (mode.select run.sessions request).2 }
        request.getAt := by
      rw [answer]
      exact RecentStore.Follows.mono tracks late
    exact kept.unchanged ordered (by simp [answer, choiceOf])
  | some other =>
    cases only _ _ resolved
    rcases mode.select_cases run.sessions resolved with
      ⟨nobody, refusal, answer⟩ | ⟨selection, picked, decided, _, _, answer⟩
    · have kept : Tracks mode profile
          { run with sessions := (mode.select run.sessions request).2 } request.getAt := by
        rw [answer]
        exact followed
      exact kept.unchanged ordered (by simp [answer, choiceOf])
    · cases isSession : request.session with
      | none =>
        have kept : Tracks mode profile
            { run with sessions := (mode.select run.sessions request).2 } request.getAt := by
          rw [answer]
          unfold Mode.storeFor
          rw [isSession]
          exact followed
        exact kept.unchanged ordered (by simp [answer, choiceOf, isSession])
      | some session =>
        by_cases side : request.features.turn = .sideCall
        · have kept : Tracks mode profile
              { run with sessions := (mode.select run.sessions request).2 } request.getAt := by
            rw [answer, decided, nextState_of_sideCall side]
            unfold Mode.storeFor
            rw [isSession]
            exact followed
          exact kept.unchanged ordered (by simp [answer, choiceOf, isSession, side])
        · rw [isSession, Option.bind_some] at isState
          rw [isState] at picked decided
          have next := nextState_eq side picked
          have grown : (mode.serve run request).history =
              ⟨session.1, selection.candidate, request.features.turn, request.getAt,
                request.putAt⟩ :: run.history := by
            unfold Mode.serve Run.history
            rw [answer]
            simp [choiceOf, isSession, side]
          have store : (mode.serve run request).sessions =
              RecentStore.put mode.limits.idleTimeoutSeconds mode.limits.maxSessions
                (mode.sessionOf run.sessions request).2 session.1
                (stateFrom profile.version selection.candidate (sessionChoices mode.limits
                  (mode.serve run request).history session.1)) request.putAt := by
            have stored := (congrArg Decision.nextState decided).trans next
            rw [grown]
            unfold Mode.serve
            rw [answer, stored]
            unfold Mode.storeFor
            rw [isSession]
          unfold Tracks
          rw [store, grown, states]
          exact RecentStore.Follows.put followed ordered mode.limits.timeout_pos.le
            mode.limits.sessions_pos

def Ordered (requests : List (Request Key)) : Prop :=
  (requests.flatMap fun request => [request.getAt, request.putAt]).Pairwise (· ≤ ·)

variable {requests : List (Request Key)}

omit [DecidableEq Key] in
theorem ordered_append_singleton (ordered : Ordered (requests ++ [request])) :
    Ordered requests ∧ (∀ earlier ∈ requests, earlier.putAt ≤ request.getAt) ∧
      request.getAt ≤ request.putAt := by
  unfold Ordered at *
  rw [List.flatMap_append, List.pairwise_append] at ordered
  rcases ordered with ⟨before, last, across⟩
  refine ⟨before, ?_, by simpa using last⟩
  intro earlier inside
  apply across earlier.putAt (List.mem_flatMap.mpr ⟨earlier, inside, by simp⟩)
  simp

theorem tracks_run {now : ℚ} (only : ∀ name other, mode.resolve name = some other → other = profile)
    (ordered : Ordered requests) (past : ∀ request ∈ requests, request.putAt ≤ now) :
    Tracks mode profile (mode.run requests) now := by
  induction requests using List.reverseRecOn generalizing now with
  | nil => exact RecentStore.follows_nil now
  | append_singleton requests request ih =>
    rcases ordered_append_singleton ordered with ⟨before, earlier, times⟩
    have served := (ih before earlier).serve only le_rfl times
    unfold Mode.run at *
    rw [List.foldl_append, List.foldl_cons, List.foldl_nil]
    exact RecentStore.Follows.mono served (past request (by simp))

theorem Tracks.sideCall (tracks : Tracks mode profile run clock)
    (only : ∀ name other, mode.resolve name = some other → other = profile)
    (late : clock ≤ request.getAt) (side : request.features.turn = .sideCall) :
    (mode.select run.sessions request).2.Sublist run.sessions ∧ ∀ key now, request.getAt ≤ now →
        (RecentStore.get mode.limits.idleTimeoutSeconds (mode.select run.sessions request).2 key
            now).1 =
          (RecentStore.get mode.limits.idleTimeoutSeconds run.sessions key now).1 := by
  rcases tracks.sessionOf late with ⟨_, followed⟩
  have part : (mode.sessionOf run.sessions request).2.Sublist run.sessions := by
    unfold Mode.sessionOf
    cases request.session with
    | none => exact List.Sublist.refl _
    | some session => exact RecentStore.get_sublist
  have store : (mode.select run.sessions request).2 = run.sessions ∨
      (mode.select run.sessions request).2 = (mode.sessionOf run.sessions request).2 := by
    cases resolved : mode.resolve request.requested with
    | none => exact Or.inl (congrArg Prod.snd (mode.select_of_unresolved run.sessions resolved))
    | some other =>
      cases only _ _ resolved
      rcases mode.select_cases run.sessions resolved with
        ⟨_, refusal, answer⟩ | ⟨selection, _, decided, _, _, answer⟩
      · exact Or.inr (congrArg Prod.snd answer)
      · right
        rw [answer, decided, nextState_of_sideCall side]
        unfold Mode.storeFor
        cases request.session <;> rfl
  rcases store with same | same
  · rw [same]
    exact ⟨List.Sublist.refl _, fun _ _ _ => rfl⟩
  · rw [same]
    refine ⟨part, ?_⟩
    intro key now later
    rw [tracks.get (late.trans later)]
    exact followed.get later

/-- Auto mode keeps a session on its model, and its store tells what was chosen for each session. -/
theorem session_keeps_its_model {requests : List (Request Key)}
    (only : ∀ name other, mode.resolve name = some other → other = profile)
    (ordered : Ordered requests) :
    (mode.run requests).sessions.length ≤ mode.limits.maxSessions ∧
      (∀ key now, (∀ request ∈ requests, request.putAt ≤ now) →
        (RecentStore.get mode.limits.idleTimeoutSeconds (mode.run requests).sessions key now).1 =
          stateOf mode.limits profile.version (mode.run requests).history key now) ∧
      ∀ request, Ordered (requests ++ [request]) →
        KeepsModel mode profile (mode.run requests).history request
            (mode.select (mode.run requests).sessions request).1 ∧
          (request.features.turn = .sideCall →
            (mode.select (mode.run requests).sessions request).2.Sublist
                (mode.run requests).sessions ∧
              ∀ key now, request.getAt ≤ now → (RecentStore.get mode.limits.idleTimeoutSeconds
                    (mode.select (mode.run requests).sessions request).2 key now).1 =
                  (RecentStore.get mode.limits.idleTimeoutSeconds (mode.run requests).sessions key
                    now).1) := by
  have bounded : (mode.run requests).sessions.length ≤ mode.limits.maxSessions := by
    rcases Finset.exists_le (requests.map Request.putAt).toFinset with ⟨now, late⟩
    have past : ∀ request ∈ requests, request.putAt ≤ now := by
      intro request inside
      exact late _ (List.mem_toFinset.mpr (List.mem_map_of_mem inside))
    exact (tracks_run only ordered past).bounded
  refine ⟨bounded, ?_, ?_⟩
  · intro key now past
    exact (tracks_run only ordered past).get le_rfl
  · intro request extended
    have tracks := tracks_run only ordered (ordered_append_singleton extended).2.1
    exact ⟨tracks.keepsModel only le_rfl, tracks.sideCall only le_rfl⟩

def opusThenGlm : AutoProfile where
  name := "high"
  candidates := [⟨"opus", none⟩, ⟨"glm", some "high"⟩]
  version := "1"
  nodup := by decide

def opusThenGlmMode : Mode where
  resolve := fun name => if name = "auto" then some opusThenGlm else none
  limits :=
    { idleTimeoutSeconds := 3600
      maxSessions := 2
      timeout_pos := by decide +kernel
      sessions_pos := by decide }

def sampleInfo : CandidateInfo := ⟨200000, 8192, ["text"], true, ["high"]⟩

/-- A request of the session `1`; `opusUp` tells whether the first model is up. -/
def sampleRequest (turn : TurnKind) (opusUp : Bool) (moment : ℚ) : Request ℕ where
  requested := "auto"
  features := ⟨100, turn, none, ["text"], true⟩
  reachable := fun modelId => some ⟨modelId, sampleInfo, modelId = "glm" || opusUp⟩
  session := some (1, "declared")
  getAt := moment
  putAt := moment

theorem session_keeps_its_model_glm :
    (opusThenGlmMode.run [sampleRequest .newTurn false 1]).sessions.length ≤ 2 ∧
      ∀ selection, (opusThenGlmMode.select
          (opusThenGlmMode.run [sampleRequest .newTurn false 1]).sessions
          (sampleRequest .toolContinuation true 2)).1 = .ok selection →
        selection.candidate = ⟨"glm", some "high"⟩ := by
  have only : ∀ name other, opusThenGlmMode.resolve name = some other → other = opusThenGlm := by
    intro name other resolved
    have cases_ : (if name = "auto" then some opusThenGlm else none) = some other := resolved
    split_ifs at cases_
    exact (Option.some.inj cases_).symm
  have kept := @session_keeps_its_model ℕ _ opusThenGlmMode opusThenGlm
    [sampleRequest .newTurn false 1] only (by unfold Ordered; decide +kernel)
  have keeps := (kept.2.2 (sampleRequest .toolContinuation true 2)
    (by unfold Ordered; decide +kernel)).1
  refine ⟨kept.1, ?_⟩
  intro selection answer
  exact keeps.continues selection 1 "declared" ⟨"glm", some "high"⟩ answer rfl
    (by decide +kernel) rfl (by decide +kernel)

end Runs

end HybridInference.AutoMode
