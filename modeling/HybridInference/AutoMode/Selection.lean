import Mathlib.Data.List.Nodup
import Mathlib.Data.Rat.Floor

/-!
# Choosing the model for one request to a tier

`routing.model_selection`: the constraints, the static scores, the ranking by quality, and the rules
that keep a session on its model.
-/

namespace HybridInference.AutoMode

structure Candidate where
  modelId : String
  reasoningEffort : Option String
  deriving DecidableEq

structure CandidateInfo where
  contextLength : ℤ
  maxOutputLength : ℤ
  inputModalities : List String
  supportsTools : Bool
  reasoningEfforts : List String

inductive TurnKind where
  | newTurn
  | toolContinuation
  | sideCall
  deriving DecidableEq

structure RequestFeatures where
  promptTokens : ℤ
  turn : TurnKind
  maxTokens : Option ℤ
  inputModalities : List String
  usesTools : Bool

inductive DropReason where
  | unavailable
  | effort
  | tools
  | modality
  | context
  deriving DecidableEq

inductive SessionAction where
  | new
  | keep
  | turnSwitch
  | forcedSwitch
  | sideCall
  deriving DecidableEq

structure SessionState where
  candidate : Candidate
  profileVersion : String
  turns : ℕ
  switches : ℕ
  deriving DecidableEq

/-- A tier. No candidate is listed twice: `parse_auto_config` refuses such a tier. -/
structure AutoProfile where
  name : String
  candidates : List Candidate
  version : String
  nodup : candidates.Nodup

structure Decision where
  profile : String
  ranked : List Candidate
  dropped : List (Candidate × DropReason)
  sessionAction : SessionAction
  nextState : Option SessionState
  profileVersion : String
  scorerVersion : String

def Decision.chosen (decision : Decision) : Option Candidate := decision.ranked.head?

def promptEstimateHeadroom : ℚ := 5 / 4

def dropReason (candidate : Candidate) (info : Option CandidateInfo) (features : RequestFeatures) :
    Option DropReason :=
  match info with
  | none => some .unavailable
  | some info =>
    if candidate.reasoningEffort.any fun effort => !info.reasoningEfforts.contains effort then
      some .effort
    else if features.usesTools && !info.supportsTools then some .tools
    else if !features.inputModalities.all info.inputModalities.contains then some .modality
    else
      let reservedOutput :=
        match features.maxTokens with
        | none => 0
        | some maxTokens => if maxTokens = 0 then 0 else min maxTokens info.maxOutputLength
      let prompt := ⌈(features.promptTokens : ℚ) * promptEstimateHeadroom⌉
      if info.contextLength < prompt + reservedOutput then some .context else none

section Split

variable (catalog : String → Option CandidateInfo) (features : RequestFeatures)

def reasonOf (candidate : Candidate) : Option DropReason :=
  dropReason candidate (catalog candidate.modelId) features

/-- The first list of `split_by_constraints`. -/
def able (candidates : List Candidate) : List Candidate :=
  candidates.filter fun candidate => (reasonOf catalog features candidate).isNone

/-- The second list of `split_by_constraints`. -/
def dropped (candidates : List Candidate) : List (Candidate × DropReason) :=
  candidates.filterMap fun candidate =>
    (reasonOf catalog features candidate).map fun reason => (candidate, reason)

end Split

/-- The estimate of `StaticScorer`. -/
def quality (candidates : List Candidate) (candidate : Candidate) : ℚ :=
  ((candidates.length : ℚ) - candidates.idxOf candidate) / candidates.length

/-- `MaxQuality.rank`, by the estimates of a tier's own scorer. -/
def rank (profile : AutoProfile) (candidates : List Candidate) : List Candidate :=
  candidates.mergeSort fun first second =>
    -quality profile.candidates first ≤ -quality profile.candidates second

def moveFirst (current : Candidate) (order : List Candidate) : List Candidate :=
  current :: order.filter fun candidate => candidate ≠ current

/-- `new_turn`. -/
def newTurns (turn : TurnKind) : ℕ := if turn = .newTurn then 1 else 0

/-- The last part of `continue_session`, for a session with state and some candidate able. -/
def continueOn (state : SessionState) (first : Candidate) (rest : List Candidate) (turn : TurnKind)
    (profileVersion : String) : List Candidate × SessionAction × SessionState :=
  let turns := state.turns + newTurns turn
  if state.candidate ∉ first :: rest then
    (first :: rest, .forcedSwitch, ⟨first, profileVersion, turns, state.switches + 1⟩)
  else if turn = .toolContinuation ∨ first = state.candidate then
    (moveFirst state.candidate (first :: rest), .keep,
      ⟨state.candidate, profileVersion, turns, state.switches⟩)
  else (first :: rest, .turnSwitch, ⟨first, profileVersion, turns, state.switches + 1⟩)

def sideCallOrder (usable : Option SessionState) (ranked : List Candidate) : List Candidate :=
  match usable with
  | none => ranked
  | some state => if state.candidate ∈ ranked then moveFirst state.candidate ranked else ranked

/-- `continue_session`: the order, what happened to the session's model, and the state to store. -/
def continueSession (ranked : List Candidate) (state : Option SessionState) (turn : TurnKind)
    (profileVersion : String) : List Candidate × SessionAction × Option SessionState :=
  let usable := state.filter fun state => state.profileVersion = profileVersion
  if turn = .sideCall then (sideCallOrder usable ranked, .sideCall, none)
  else
    match ranked, usable with
    | [], none => ([], .new, none)
    | [], some _ => ([], .forcedSwitch, none)
    | first :: rest, none =>
      (first :: rest, .new, some ⟨first, profileVersion, newTurns turn, 0⟩)
    | first :: rest, some state =>
      let continued := continueOn state first rest turn profileVersion
      (continued.1, continued.2.1, some continued.2.2)

def staticScorerVersion : String := "static-1"

def select (profile : AutoProfile) (features : RequestFeatures)
    (catalog : String → Option CandidateInfo) (state : Option SessionState) : Decision :=
  let continued := continueSession (rank profile (able catalog features profile.candidates)) state
    features.turn profile.version
  { profile := profile.name
    ranked := continued.1
    dropped := dropped catalog features profile.candidates
    sessionAction := continued.2.1
    nextState := continued.2.2
    profileVersion := profile.version
    scorerVersion := staticScorerVersion }

section Ranking

variable {profile : AutoProfile} {candidates : List Candidate}

theorem quality_le_of_idxOf_le {first second : Candidate}
    (le : candidates.idxOf first ≤ candidates.idxOf second) :
    -quality candidates first ≤ -quality candidates second := by
  apply neg_le_neg
  apply div_le_div_of_nonneg_right _ (Nat.cast_nonneg _)
  apply sub_le_sub_left
  exact_mod_cast le

theorem pairwise_idxOf (nodup : candidates.Nodup) :
    candidates.Pairwise fun first second => candidates.idxOf first ≤ candidates.idxOf second := by
  rw [List.pairwise_iff_getElem]
  intro i j iBound jBound less
  rw [nodup.idxOf_getElem, nodup.idxOf_getElem]
  exact less.le

theorem rank_eq
    (part : candidates.Sublist profile.candidates) : rank profile candidates = candidates := by
  apply List.mergeSort_of_pairwise
  apply ((pairwise_idxOf profile.nodup).sublist part).imp
  intro first second le
  rw [decide_eq_true_eq]
  exact quality_le_of_idxOf_le le

theorem rank_able (catalog : String → Option CandidateInfo) (features : RequestFeatures) :
    rank profile (able catalog features profile.candidates) =
      able catalog features profile.candidates :=
  rank_eq List.filter_sublist

theorem nodup_able (catalog : String → Option CandidateInfo) (features : RequestFeatures) :
    (able catalog features profile.candidates).Nodup :=
  profile.nodup.filter _

theorem moveFirst_perm {order : List Candidate} {current : Candidate} (nodup : order.Nodup)
    (inside : current ∈ order) : (moveFirst current order).Perm order := by
  unfold moveFirst
  have erased : (order.filter fun candidate => candidate ≠ current) = order.erase current := by
    rw [nodup.erase_eq_filter]
    apply List.filter_congr
    intro candidate _
    by_cases same : candidate = current <;> simp [same]
  rw [erased]
  exact (List.perm_cons_erase inside).symm

theorem continueOn_perm {state : SessionState} {first : Candidate} {rest : List Candidate}
    (nodup : (first :: rest).Nodup) (turn : TurnKind) (version : String) :
    (continueOn state first rest turn version).1.Perm (first :: rest) := by
  unfold continueOn
  by_cases inside : state.candidate ∈ first :: rest
  · split_ifs
    · exact moveFirst_perm nodup inside
    · exact List.Perm.refl _
  · rw [if_pos inside]

theorem continueSession_perm {ranked : List Candidate} (nodup : ranked.Nodup)
    (state : Option SessionState) (turn : TurnKind) (version : String) :
    (continueSession ranked state turn version).1.Perm ranked := by
  unfold continueSession
  dsimp only
  split_ifs with side
  · unfold sideCallOrder
    split
    · exact List.Perm.refl _
    · split_ifs with inside
      · exact moveFirst_perm nodup inside
      · exact List.Perm.refl _
  · split
    · exact List.Perm.refl _
    · exact List.Perm.refl _
    · exact List.Perm.refl _
    · exact continueOn_perm nodup turn version

end Ranking

end HybridInference.AutoMode
