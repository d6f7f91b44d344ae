import HybridInference.Library.Dict
import HybridInference.Library.Numerals
import HybridInference.Routing.AttemptLoop
import HybridInference.Routing.RouteTable

/-!
# The error of a request that every route failed

`_reported_attempts` and `_raise_surfaced_error` of `routing.routers`. The loop pops the retry of an
attempt that was cut short out of the attempts still to come. `reportedFrom` says which attempts are
left without the loop: an attempt is a retry when the last one of its route before it was cut short
and was not a retry itself.
-/

namespace HybridInference.Routing

open Library

variable {Telemetry : Type*}

/-- What a `_routing` block holds. -/
inductive RoutingValue (Telemetry : Type*) where
  | text (value : String)
  | flag (value : Bool)
  | reason (value : OffloadReason)
  | attempts (value : List Telemetry)
  | json (value : Value)

abbrev RoutingBlock (Telemetry : Type*) := Dict String (RoutingValue Telemetry)

/-- An exception with its `_routing`, where that is a dictionary. -/
structure RoutedError (Telemetry : Type*) extends AttemptError where
  routing : Option (RoutingBlock Telemetry)

structure FailedRouteAttempt (Telemetry : Type*) where
  adapter : RouteAdapter
  error : RoutedError Telemetry
  offload : Option OffloadReason
  route : Option RouteAdapter

namespace FailedRouteAttempt

/-- `abandoned_for_offload`, of the attempt's error. -/
def abandoned (attempt : FailedRouteAttempt Telemetry) : Bool :=
  abandonedForOffload attempt.error.toUpstreamException

/-- `_describes_request`, of the attempt's error. -/
def describes (attempt : FailedRouteAttempt Telemetry) : Bool :=
  describesRequest attempt.error.toAttemptError

def wentTo (route : RouteAdapter) (attempt : FailedRouteAttempt Telemetry) : Bool :=
  attempt.route = some route

end FailedRouteAttempt

/-- `select_surfaced_error`, of the primary's attempt and the later ones. -/
def selectSurfacedIndex (primary : FailedRouteAttempt Telemetry)
    (later : List (FailedRouteAttempt Telemetry)) : ℕ :=
  if primary.describes then 0
  else
    match later.findIdx? FailedRouteAttempt.describes with
    | some index => index + 1
    | none => 0

def retryPosition (attempt : FailedRouteAttempt Telemetry)
    (later : List (FailedRouteAttempt Telemetry)) : Option ℕ :=
  if attempt.abandoned then
    attempt.route.bind fun route => later.findIdx? (FailedRouteAttempt.wentTo route)
  else none

/-- The loop of `_reported_attempts`, with at most `count` attempts left. -/
def reportLoop : ℕ → List (FailedRouteAttempt Telemetry) → List (FailedRouteAttempt Telemetry)
  | 0, _ => []
  | _, [] => []
  | count + 1, attempt :: later =>
    match retryPosition attempt later with
    | some position => later.getD position attempt :: reportLoop count (later.eraseIdx position)
    | none => attempt :: reportLoop count later

def reported (attempts : List (FailedRouteAttempt Telemetry)) :
    List (FailedRouteAttempt Telemetry) :=
  reportLoop attempts.length attempts

def offloadMarker (attempts : List (FailedRouteAttempt Telemetry)) :
    Option (OffloadReason × String) :=
  attempts.findSome? fun attempt =>
    attempt.offload.map fun reason => (reason, endpointIdForAdapter attempt.adapter)

namespace RoutingBlock

def setDefault (routing : RoutingBlock Telemetry) (key : String) (value : RoutingValue Telemetry) :
    RoutingBlock Telemetry :=
  if (Dict.find routing key).isSome then routing else routing.insert key value

def markOffload (routing : RoutingBlock Telemetry)
    (attempts : List (FailedRouteAttempt Telemetry)) : RoutingBlock Telemetry :=
  match offloadMarker attempts with
  | none => routing
  | some (reason, endpointId) =>
    (routing.setDefault "offload" (.reason reason)).setDefault "offload_endpoint_id"
      (.text endpointId)

/-- The block `_raise_surfaced_error` starts from. -/
def ofSelected (selected : FailedRouteAttempt Telemetry) (failedAttempts : List Telemetry) :
    RoutingBlock Telemetry :=
  match selected.error.routing with
  | some routing => routing.setDefault "failed_attempts" (.attempts failedAttempts)
  | none =>
    AList.insert "failed_attempts" (.attempts failedAttempts)
      (AList.insert "endpoint_id" (.text (endpointIdForAdapter selected.adapter))
        (AList.insert "base_url" (.text selected.adapter.baseUrl)
          (AList.insert "provider" (.text selected.adapter.provider) ∅)))

end RoutingBlock

/-- `_raise_surfaced_error`: the exception raised, with its block. There is none to raise for no
attempts. -/
def raiseSurfacedError (attempts : List (FailedRouteAttempt Telemetry))
    (failedAttempts : List Telemetry) : Option (RoutedError Telemetry) :=
  match reported attempts with
  | [] => none
  | primary :: later =>
    let index := selectSurfacedIndex primary later
    let selected := (primary :: later).getD index primary
    let routing := RoutingBlock.ofSelected selected failedAttempts
    let routing := if index = 0 then routing else routing.setDefault "fallback" (.flag true)
    some { selected.error with routing := some (routing.markOffload attempts) }

section Reported

def awaitsRetry (route : RouteAdapter) : List (FailedRouteAttempt Telemetry) → Bool
  | [] => false
  | attempt :: earlier =>
    if attempt.wentTo route then attempt.abandoned && !awaitsRetry route earlier
    else awaitsRetry route earlier

def isRetry (earlier : List (FailedRouteAttempt Telemetry))
    (attempt : FailedRouteAttempt Telemetry) : Bool :=
  attempt.route.any fun route => awaitsRetry route earlier

def inItsPlace (attempt : FailedRouteAttempt Telemetry)
    (later : List (FailedRouteAttempt Telemetry)) : FailedRouteAttempt Telemetry :=
  if attempt.abandoned then
    (attempt.route.bind fun route => later.find? (FailedRouteAttempt.wentTo route)).getD attempt
  else attempt

def reportedFrom (earlier : List (FailedRouteAttempt Telemetry)) :
    List (FailedRouteAttempt Telemetry) → List (FailedRouteAttempt Telemetry)
  | [] => []
  | attempt :: later =>
    if isRetry earlier attempt then reportedFrom (attempt :: earlier) later
    else inItsPlace attempt later :: reportedFrom (attempt :: earlier) later

def withoutRetries (awaited : RouteAdapter → Bool) :
    List (FailedRouteAttempt Telemetry) → List (FailedRouteAttempt Telemetry)
  | [] => []
  | attempt :: later =>
    match attempt.route with
    | none => attempt :: withoutRetries awaited later
    | some route =>
      if awaited route then withoutRetries (Function.update awaited route false) later
      else attempt :: withoutRetries awaited later

variable {awaited : RouteAdapter → Bool} {route : RouteAdapter}
  {attempt : FailedRouteAttempt Telemetry} {later : List (FailedRouteAttempt Telemetry)}

theorem withoutRetries_update_of_none
    (none_ : later.find? (FailedRouteAttempt.wentTo route) = none) :
    withoutRetries (Function.update awaited route true) later = withoutRetries awaited later := by
  induction later generalizing awaited with
  | nil => rfl
  | cons attempt later ih =>
    rw [List.find?_cons] at none_
    split at none_
    · cases none_
    · rename_i away
      have other : attempt.route ≠ some route := by
        simpa [FailedRouteAttempt.wentTo] using away
      cases same : attempt.route with
      | none => simp [withoutRetries, same, ih none_]
      | some first =>
        have distinct : first ≠ route := fun equal => other (equal ▸ same)
        by_cases awaits : awaited first = true
        · simp [withoutRetries, same, distinct, awaits,
            Function.update_comm distinct.symm, ih none_]
        · simp [withoutRetries, same, distinct, awaits, ih none_]

theorem findIdx_withoutRetries_of_none
    (none_ : later.find? (FailedRouteAttempt.wentTo route) = none) :
    (withoutRetries awaited later).findIdx? (FailedRouteAttempt.wentTo route) = none := by
  rw [List.findIdx?_eq_none_iff]
  rw [List.find?_eq_none] at none_
  intro attempt inside
  have kept : ∀ {awaited : RouteAdapter → Bool} {later : List (FailedRouteAttempt Telemetry)},
      attempt ∈ withoutRetries awaited later → attempt ∈ later := by
    intro awaited later
    induction later generalizing awaited with
    | nil => simp [withoutRetries]
    | cons first later ih =>
      intro there
      unfold withoutRetries at there
      split at there
      · rcases List.mem_cons.mp there with rfl | rest
        · exact List.mem_cons_self
        · exact List.mem_cons_of_mem _ (ih rest)
      · split_ifs at there
        · exact List.mem_cons_of_mem _ (ih there)
        · rcases List.mem_cons.mp there with rfl | rest
          · exact List.mem_cons_self
          · exact List.mem_cons_of_mem _ (ih rest)
  simpa using none_ attempt (kept inside)

theorem findIdx_withoutRetries_of_some {retry : FailedRouteAttempt Telemetry}
    (free : awaited route = false)
    (some_ : later.find? (FailedRouteAttempt.wentTo route) = some retry) :
    ∃ position,
      (withoutRetries awaited later).findIdx? (FailedRouteAttempt.wentTo route) = some position ∧
      (withoutRetries awaited later)[position]? = some retry ∧
      (withoutRetries awaited later).eraseIdx position =
        withoutRetries (Function.update awaited route true) later := by
  induction later generalizing awaited with
  | nil => cases some_
  | cons first later ih =>
    rw [List.find?_cons] at some_
    split at some_
    · rename_i goes
      rw [Option.some.injEq] at some_
      subst some_
      have same : first.route = some route := by
        simpa [FailedRouteAttempt.wentTo] using goes
      have list : withoutRetries awaited (first :: later) =
          first :: withoutRetries awaited later := by
        simp [withoutRetries, same, free]
      refine ⟨0, ?_, ?_, ?_⟩
      · rw [list, List.findIdx?_cons, goes]
        rfl
      · rw [list]
        rfl
      · rw [list]
        have settled : Function.update awaited route false = awaited := by
          rw [← free, Function.update_eq_self]
        simp [withoutRetries, same, settled]
    · rename_i away
      have other : first.route ≠ some route := by
        simpa [FailedRouteAttempt.wentTo] using away
      cases same : first.route with
      | none =>
        have list : ∀ awaited : RouteAdapter → Bool, withoutRetries awaited (first :: later) =
            first :: withoutRetries awaited later := by
          simp [withoutRetries, same]
        rcases ih free some_ with ⟨position, found, there, erased⟩
        refine ⟨position + 1, ?_, ?_, ?_⟩
        · rw [list, List.findIdx?_cons, away, found]
          rfl
        · rw [list, List.getElem?_cons_succ, there]
        · rw [list, list, List.eraseIdx_cons_succ, erased]
      | some other' =>
        have distinct : other' ≠ route := fun equal => other (equal ▸ same)
        by_cases awaits : awaited other' = true
        · have stillFree : Function.update awaited other' false route = false := by
            rw [Function.update_of_ne distinct.symm, free]
          rcases ih stillFree some_ with ⟨position, found, there, erased⟩
          refine ⟨position, ?_, ?_, ?_⟩
          · simpa [withoutRetries, same, awaits] using found
          · simpa [withoutRetries, same, awaits] using there
          · rw [Function.update_comm distinct] at erased
            simpa [withoutRetries, same, awaits, distinct] using erased
        · rcases ih free some_ with ⟨position, found, there, erased⟩
          have list : withoutRetries awaited (first :: later) =
              first :: withoutRetries awaited later := by
            simp [withoutRetries, same, awaits]
          refine ⟨position + 1, ?_, ?_, ?_⟩
          · rw [list, List.findIdx?_cons, away, found]
            rfl
          · rw [list, List.getElem?_cons_succ, there]
          · rw [list, List.eraseIdx_cons_succ, erased]
            simp [withoutRetries, same, awaits, distinct]

theorem awaitsRetry_cons_of_route (earlier : List (FailedRouteAttempt Telemetry))
    (same : attempt.route = some route) :
    (fun other => awaitsRetry other (attempt :: earlier)) =
      Function.update (fun other => awaitsRetry other earlier) route
        (attempt.abandoned && !awaitsRetry route earlier) := by
  funext other
  by_cases equal : other = route
  · subst equal
    simp [awaitsRetry, FailedRouteAttempt.wentTo, same]
  · simp [awaitsRetry, FailedRouteAttempt.wentTo, same, equal, Ne.symm equal]

theorem awaitsRetry_cons_of_none (earlier : List (FailedRouteAttempt Telemetry))
    (none_ : attempt.route = none) :
    (fun other => awaitsRetry other (attempt :: earlier)) =
      fun other => awaitsRetry other earlier := by
  funext other
  simp [awaitsRetry, FailedRouteAttempt.wentTo, none_]

theorem reportLoop_cons_of_free (count : ℕ) (free : awaited route = false)
    (same : attempt.route = some route) :
    reportLoop (count + 1) (attempt :: withoutRetries awaited later) = inItsPlace attempt later ::
        reportLoop count
          (withoutRetries (Function.update awaited route attempt.abandoned) later) := by
  have settled : Function.update awaited route false = awaited := by
    rw [← free, Function.update_eq_self]
  by_cases abandoned : attempt.abandoned = true
  · cases found : later.find? (FailedRouteAttempt.wentTo route) with
    | none =>
      have none_ := @findIdx_withoutRetries_of_none Telemetry awaited route later found
      simp [reportLoop, retryPosition, inItsPlace, same, abandoned, none_, found,
        withoutRetries_update_of_none found]
    | some retry =>
      rcases findIdx_withoutRetries_of_some free found with ⟨position, there, retries, erased⟩
      simp [reportLoop, retryPosition, inItsPlace, same, abandoned, there, retries, erased, found]
  · simp [reportLoop, retryPosition, inItsPlace, abandoned, settled]

theorem reportLoop_eq (earlier : List (FailedRouteAttempt Telemetry)) (count : ℕ)
    (enough : later.length ≤ count) :
    reportLoop count (withoutRetries (fun route => awaitsRetry route earlier) later) =
      reportedFrom earlier later := by
  induction later generalizing earlier count with
  | nil => cases count <;> rfl
  | cons attempt later ih =>
    rw [List.length_cons] at enough
    cases same : attempt.route with
    | none =>
      cases count with
      | zero => omega
      | succ count =>
        have list := ih (attempt :: earlier) count (by omega)
        rw [awaitsRetry_cons_of_none earlier same] at list
        simp [withoutRetries, reportLoop, reportedFrom, retryPosition, inItsPlace, isRetry,
          same, list]
    | some route =>
      have updated := awaitsRetry_cons_of_route earlier same
      by_cases awaits : awaitsRetry route earlier = true
      · have list := ih (attempt :: earlier) count (by omega)
        rw [updated, awaits, Bool.not_true, Bool.and_false] at list
        simp [withoutRetries, reportedFrom, isRetry, same, awaits, list]
      · rw [Bool.not_eq_true] at awaits
        rw [awaits, Bool.not_false, Bool.and_true] at updated
        cases count with
        | zero => omega
        | succ count =>
          have list := ih (attempt :: earlier) count (by omega)
          rw [updated] at list
          have reports := @reportLoop_cons_of_free Telemetry
            (fun other => awaitsRetry other earlier) route attempt later
            count awaits same
          simp only [withoutRetries, reportedFrom, isRetry, same, awaits, Option.any_some,
            Bool.false_eq_true, if_false, reports, list]

theorem reported_eq (attempts : List (FailedRouteAttempt Telemetry)) :
    reported attempts = reportedFrom [] attempts := by
  have all : withoutRetries (fun _ => false) attempts = attempts := by
    induction attempts with
    | nil => rfl
    | cons attempt later ih =>
      cases same : attempt.route with
      | none | some route =>
        simpa [withoutRetries, same] using ih
  have loop := reportLoop_eq [] attempts.length attempts.length.le_refl
  unfold awaitsRetry at loop
  rwa [all] at loop

end Reported

section Raised

def IsSurfaced (attempts : List (FailedRouteAttempt Telemetry)) (index : ℕ) : Prop :=
  (∀ before < index, ∀ attempt, attempts[before]? = some attempt → attempt.describes = false) ∧
    ((∃ attempt, attempts[index]? = some attempt ∧ attempt.describes = true) ∨
      index = 0 ∧ ∀ attempt ∈ attempts, attempt.describes = false)

structure NamesAttempt (attempts : List (FailedRouteAttempt Telemetry))
    (failedAttempts : List Telemetry) (index : ℕ) (selected : FailedRouteAttempt Telemetry)
    (block : RoutingBlock Telemetry) : Prop where
  provider : Dict.find block "provider" = some (.text selected.adapter.provider)
  baseUrl : Dict.find block "base_url" = some (.text selected.adapter.baseUrl)
  endpointId : Dict.find block "endpoint_id" = some (.text (endpointIdForAdapter selected.adapter))
  failed : Dict.find block "failed_attempts" = some (.attempts failedAttempts)
  fallback : Dict.find block "fallback" = if index = 0 then none else some (.flag true)
  offloaded : ∀ attempt ∈ attempts, attempt.offload ≠ none →
    ∃ offload ∈ attempts, ∃ reason, offload.offload = some reason ∧
      Dict.find block "offload" = some (.reason reason) ∧
      Dict.find block "offload_endpoint_id" = some (.text (endpointIdForAdapter offload.adapter))
  notOffloaded : (∀ attempt ∈ attempts, attempt.offload = none) →
    Dict.find block "offload" = none ∧ Dict.find block "offload_endpoint_id" = none

variable {primary selected : FailedRouteAttempt Telemetry}
  {attempts later : List (FailedRouteAttempt Telemetry)} {failedAttempts : List Telemetry}
  {block : RoutingBlock Telemetry}

namespace RoutingBlock

theorem find_setDefault (key other : String) (value : RoutingValue Telemetry) :
    Dict.find (block.setDefault key value) other =
      if other = key then some ((Dict.find block key).getD value) else Dict.find block other := by
  unfold setDefault
  split_ifs with there same same
  · rcases Option.isSome_iff_exists.mp there with ⟨found, found_⟩
    rw [same, found_]
    rfl
  · rfl
  · rw [Dict.find_insert, if_pos same, Option.not_isSome_iff_eq_none.mp there]
    rfl
  · rw [Dict.find_insert, if_neg same]

theorem find_markOffload (key : String) : Dict.find (block.markOffload attempts) key =
      match offloadMarker attempts with
      | none => Dict.find block key
      | some (reason, endpointId) =>
        if key = "offload_endpoint_id" then
          some ((Dict.find block key).getD (.text endpointId))
        else if key = "offload" then some ((Dict.find block key).getD (.reason reason))
        else Dict.find block key := by
  unfold markOffload
  cases offloadMarker attempts with
  | none => rfl
  | some marker =>
    dsimp only
    rw [find_setDefault, find_setDefault, find_setDefault]
    by_cases endpoint : key = "offload_endpoint_id"
    · subst endpoint
      rw [if_pos rfl, if_pos rfl, if_neg (by decide)]
    · split_ifs with offload
      · rw [offload]
      · rfl

end RoutingBlock

theorem offloadMarker_eq_none_iff :
    offloadMarker attempts = none ↔ ∀ attempt ∈ attempts, attempt.offload = none := by
  unfold offloadMarker
  simp

theorem offloadMarker_eq_some {marker : OffloadReason × String}
    (found : offloadMarker attempts = some marker) :
    ∃ attempt ∈ attempts, attempt.offload = some marker.1 ∧
      endpointIdForAdapter attempt.adapter = marker.2 := by
  rcases List.exists_of_findSome?_eq_some found with ⟨attempt, inside, marked⟩
  rw [Option.map_eq_some_iff] at marked
  rcases marked with ⟨reason, went, rfl⟩
  exact ⟨attempt, inside, went, rfl⟩

theorem isSurfaced_selectSurfacedIndex :
    IsSurfaced (primary :: later) (selectSurfacedIndex primary later) := by
  unfold selectSurfacedIndex
  split_ifs with describes
  · refine ⟨fun before below => absurd below (Nat.not_lt_zero _), Or.inl ⟨primary, rfl, describes⟩⟩
  · rw [Bool.not_eq_true] at describes
    cases found : later.findIdx? FailedRouteAttempt.describes with
    | none =>
      refine ⟨fun before below => absurd below (Nat.not_lt_zero _), Or.inr ⟨rfl, ?_⟩⟩
      rw [List.findIdx?_eq_none_iff] at found
      intro attempt inside
      rcases List.mem_cons.mp inside with rfl | inside
      · exact describes
      · exact found attempt inside
    | some index =>
      rcases List.findIdx?_eq_some_iff_getElem.mp found with ⟨bound, here, before⟩
      refine ⟨?_, Or.inl ⟨later[index], List.getElem?_eq_getElem bound, here⟩⟩
      intro place below attempt there
      change place < index + 1 at below
      cases place with
      | zero =>
        rw [List.getElem?_cons_zero, Option.some.injEq] at there
        rw [← there]
        exact describes
      | succ place =>
        rcases List.getElem?_eq_some_iff.mp there with ⟨inside, rfl⟩
        simpa using before place (by omega)

theorem selectSurfacedIndex_lt : selectSurfacedIndex primary later < (primary :: later).length := by
  rcases @isSurfaced_selectSurfacedIndex Telemetry primary later with ⟨-, found | zero⟩
  · rcases found with ⟨attempt, there, -⟩
    exact (List.getElem?_eq_some_iff.mp there).1
  · rw [zero.1]
    exact Nat.succ_pos _

theorem namesAttempt (index : ℕ) (none_ : selected.error.routing = none) :
    NamesAttempt attempts failedAttempts index selected
      ((if index = 0 then RoutingBlock.ofSelected selected failedAttempts
        else (RoutingBlock.ofSelected selected failedAttempts).setDefault "fallback"
          (.flag true)).markOffload attempts) := by
  have start : ∀ key, Dict.find (RoutingBlock.ofSelected selected failedAttempts) key =
      if key = "failed_attempts" then some (.attempts failedAttempts)
      else if key = "endpoint_id" then some (.text (endpointIdForAdapter selected.adapter))
      else if key = "base_url" then some (.text selected.adapter.baseUrl)
      else if key = "provider" then some (.text selected.adapter.provider)
      else none := by
    intro key
    unfold RoutingBlock.ofSelected
    rw [none_]
    dsimp only
    rw [Dict.find_insert, Dict.find_insert, Dict.find_insert, Dict.find_insert, Dict.find_empty]
  have marked : ∀ key, Dict.find (if index = 0 then RoutingBlock.ofSelected selected failedAttempts
      else (RoutingBlock.ofSelected selected failedAttempts).setDefault "fallback"
        (.flag true)) key =
      if key = "fallback" then if index = 0 then none else some (.flag true)
      else Dict.find (RoutingBlock.ofSelected selected failedAttempts) key := by
    intro key
    split_ifs with primary isFallback isFallback
    · rw [start, isFallback]
      rfl
    · rfl
    · rw [RoutingBlock.find_setDefault, if_pos isFallback, start]
      rfl
    · rw [RoutingBlock.find_setDefault, if_neg isFallback]
  generalize (if index = 0 then RoutingBlock.ofSelected selected failedAttempts
    else (RoutingBlock.ofSelected selected failedAttempts).setDefault "fallback"
      (.flag true)) = block at marked
  have other : ∀ key, key ≠ "offload" → key ≠ "offload_endpoint_id" →
      Dict.find (block.markOffload attempts) key = Dict.find block key := by
    intro key notOffload notEndpoint
    rw [RoutingBlock.find_markOffload]
    split
    · rfl
    · rw [if_neg notEndpoint, if_neg notOffload]
  refine ⟨?_, ?_, ?_, ?_, ?_, ?_, ?_⟩
  · rw [other _ (by decide) (by decide), marked, start]
    rfl
  · rw [other _ (by decide) (by decide), marked, start]
    rfl
  · rw [other _ (by decide) (by decide), marked, start]
    rfl
  · rw [other _ (by decide) (by decide), marked, start]
    rfl
  · rw [other _ (by decide) (by decide), marked, if_pos rfl]
  · intro attempt inside went
    cases found : offloadMarker attempts with
    | none => exact absurd (offloadMarker_eq_none_iff.mp found attempt inside) went
    | some marker =>
      rcases offloadMarker_eq_some found with ⟨offload, there, reason, endpoint⟩
      refine ⟨offload, there, marker.1, reason, ?_, ?_⟩
      · rw [RoutingBlock.find_markOffload, found, marked, start]
        rfl
      · rw [RoutingBlock.find_markOffload, found, marked, start, endpoint]
        rfl
  · intro none_
    have noMarker := offloadMarker_eq_none_iff.mpr none_
    constructor
    · rw [RoutingBlock.find_markOffload, noMarker, marked, start]
      rfl
    · rw [RoutingBlock.find_markOffload, noMarker, marked, start]
      rfl

theorem keeps_block {existing : RoutingBlock Telemetry} {key : String}
    {value : RoutingValue Telemetry} (index : ℕ) (had : selected.error.routing = some existing)
    (found : Dict.find existing key = some value) :
    Dict.find ((if index = 0 then RoutingBlock.ofSelected selected failedAttempts
        else (RoutingBlock.ofSelected selected failedAttempts).setDefault "fallback"
          (.flag true)).markOffload attempts) key = some value := by
  have keeps : ∀ (block : RoutingBlock Telemetry) (other : String)
      (default : RoutingValue Telemetry), Dict.find block key = some value →
        Dict.find (block.setDefault other default) key = some value := by
    intro block other default there
    rw [RoutingBlock.find_setDefault]
    split_ifs with same
    · rw [← same, there]
      rfl
    · exact there
  have start : Dict.find (RoutingBlock.ofSelected selected failedAttempts) key = some value := by
    unfold RoutingBlock.ofSelected
    rw [had]
    exact keeps _ _ _ found
  have marked : Dict.find (if index = 0 then RoutingBlock.ofSelected selected failedAttempts
      else (RoutingBlock.ofSelected selected failedAttempts).setDefault "fallback"
        (.flag true)) key = some value := by
    split_ifs with primary
    · exact start
    · exact keeps _ _ _ start
  unfold RoutingBlock.markOffload
  split
  · exact marked
  · exact keeps _ _ _ (keeps _ _ _ marked)

/-- The error raised is the first one's, or that of the first whose status describes the request;
its block names the attempt unless it had one. -/
theorem raises_surfaced_error (primary : FailedRouteAttempt Telemetry)
    (later : List (FailedRouteAttempt Telemetry)) (failedAttempts : List Telemetry) :
    ∃ (index : ℕ) (selected : FailedRouteAttempt Telemetry) (block : RoutingBlock Telemetry),
      (reportedFrom [] (primary :: later))[index]? = some selected ∧
      IsSurfaced (reportedFrom [] (primary :: later)) index ∧
      raiseSurfacedError (primary :: later) failedAttempts =
        some { selected.error with routing := some block } ∧
      (selected.error.routing = none →
        NamesAttempt (primary :: later) failedAttempts index selected block) ∧
      ∀ existing, selected.error.routing = some existing → ∀ key value,
        Dict.find existing key = some value → Dict.find block key = some value := by
  have report : ∃ first rest, reportedFrom [] (primary :: later) = first :: rest := by
    refine ⟨inItsPlace primary later, reportedFrom [primary] later, ?_⟩
    have noRetry : isRetry [] primary = false := by
      cases same : primary.route with
      | none => simp [isRetry, same]
      | some route => simp [isRetry, same, awaitsRetry]
    rw [reportedFrom, noRetry]
    rfl
  rcases report with ⟨first, rest, report⟩
  have bound : selectSurfacedIndex first rest < (first :: rest).length := selectSurfacedIndex_lt
  have there : (first :: rest)[selectSurfacedIndex first rest]? =
      some ((first :: rest).getD (selectSurfacedIndex first rest) first) := by
    rw [List.getD_eq_getElem?_getD, List.getElem?_eq_getElem bound]
    rfl
  refine ⟨selectSurfacedIndex first rest,
    (first :: rest).getD (selectSurfacedIndex first rest) first,
    _, ?_, ?_, ?_, fun none_ => namesAttempt (selectSurfacedIndex first rest) none_, ?_⟩
  · rw [report]
    exact there
  · rw [report]
    exact isSurfaced_selectSurfacedIndex
  · unfold raiseSurfacedError
    rw [reported_eq, report]
  · intro existing had key value found
    exact keeps_block _ had found

end Raised

def primaryRoute : RouteAdapter := { identity := 0, provider := "primary" }

def attemptOf (error : AttemptError) : FailedRouteAttempt String :=
  { adapter := primaryRoute
    error := { error with routing := none }
    offload := none
    route := some primaryRoute }

/-- Of four attempts of one route the first three are cut short. The second one is reported in the
place of the first, and its own retry is in no place. -/
theorem abandoned_retry_is_reported : ¬ ∀ (attempts : List (FailedRouteAttempt String)) (index : ℕ)
        (attempt retry : FailedRouteAttempt String) (route : RouteAdapter),
      attempts[index]? = some attempt → attempt.abandoned = true → attempt.route = some route →
        (attempts.drop (index + 1)).find? (FailedRouteAttempt.wentTo route) = some retry →
          attempt ∉ reported attempts ∨ retry ∈ reported attempts := by
  intro claim
  rcases claim [attemptOf WaitDeadline.engineWait.error, attemptOf WaitDeadline.queueWait.error,
    attemptOf { WaitDeadline.queueWait.error with status := some 503 },
    attemptOf { WaitDeadline.queueWait.error with kind := .other, status := some 500 }] 1
    (attemptOf WaitDeadline.queueWait.error)
    (attemptOf { WaitDeadline.queueWait.error with status := some 503 }) primaryRoute
    rfl rfl rfl rfl with absent | present
  · exact absent List.mem_cons_self
  · rcases List.mem_cons.mp present with same | later
    · cases congrArg (fun attempt => attempt.error.status) same
    · cases congrArg (fun attempt => attempt.error.status) (List.mem_singleton.mp later)

end HybridInference.Routing
