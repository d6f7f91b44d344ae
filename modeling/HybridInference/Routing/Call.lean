import HybridInference.Routing.AttemptLoop
import HybridInference.Prefill.Tracker

/-!
# One call of the router and what it borrows

`FixedRouter.chat_completion` and `stream_chat_completion` take a dispatch claim
from the health registry and a prefill lease from the load tracker for each
attempt, and hand them back on the way out. A call is a state machine here: it
stands at an `await`, at a `yield` or between two attempts, and each event says
how the environment resumes it. Other requests act on the registry and on the
tracker between any two events of the call.

An exception that no handler of the call catches (a cancellation, or the
consumer closing the generator) may leave it at any of these points; only the
`finally` blocks run then.
-/

namespace HybridInference.Routing

open Library Health Prefill

structure HealthSettings where
  alpha : ℚ
  config : BreakerConfig
  policy : CircuitOpenPolicy
  scan : ResetScan

structure Reading where
  clocks : Clocks
  reportedAt : ℚ
  settings : PrefillSettings
  userId : Option String
  userName : Option String
  scheduled : Bool

/-- A `DispatchClaim`, and how often it was handed back. -/
structure DispatchClaim where
  endpointId : String
  probeToken : Option ℕ
  ended : ℕ
  deriving DecidableEq

structure Resources where
  registry : String → Endpoint
  prefill : PrefillWorld
  claims : List DispatchClaim
  leases : List ℕ

def failureMayLosePrefixCache : Option UpstreamException → Bool
  | none => true
  | some exc =>
    if exc.kind.isInstance .upstreamModelQueued then true
    else if (unchargedFailureEvent exc).isSome then false
    else (httpStatusOf exc).all fun status => 500 ≤ status

namespace Resources

section Operations

variable (health : HealthSettings)

def stepEndpoint (resources : Resources) (endpointId : String) (event : EndpointEvent) :
    Option Resources :=
  ((endpointMachine health.alpha health.config health.policy health.scan).step
    (resources.registry endpointId) event).map fun endpoint =>
      { resources with registry := Function.update resources.registry endpointId endpoint }

def stepPrefill (resources : Resources) (event : PrefillEvent) : Option Resources :=
  (prefillMachine.step resources.prefill event).map fun prefill =>
    { resources with prefill := prefill }

/-- `begin_dispatch`, with the position of the claim if the circuit admitted. -/
def beginDispatch (resources : Resources) (endpointId : String) (reading : Reading) :
    Option (Resources × Option ℕ) :=
  let decision :=
    ((resources.registry endpointId).breaker.beginDispatch health.config reading.clocks.perf).2
  (resources.stepEndpoint health endpointId (.beginDispatch reading.clocks.perf)).map fun next =>
    if decision.1 then
      ({ next with
          claims := next.claims ++
            [{ endpointId := endpointId, probeToken := decision.2, ended := 0 }] },
        some next.claims.length)
    else (next, none)

/-- `end_dispatch` of a claim of the call, or of none. -/
def endDispatch (resources : Resources) : Option ℕ → Option Resources
  | none => some resources
  | some index =>
    resources.claims[index]?.bind fun claim =>
      { resources with
        claims := resources.claims.set index { claim with ended := claim.ended + 1 }
        }.stepEndpoint health claim.endpointId (.endDispatch (some claim.probeToken))

def onSuccess (resources : Resources) (endpointId : String) : Option Resources :=
  resources.stepEndpoint health endpointId .recordSuccess

def onFailure (resources : Resources) (mode : Mode) (endpointId : String) (error : AttemptError)
    (reading : Reading) : Option Resources :=
  let exc := error.toUpstreamException
  (if failureMayLosePrefixCache (some exc) then
    resources.stepPrefill (.forgetEndpoint endpointId)
  else some resources).bind fun forgotten =>
    forgotten.stepEndpoint health endpointId
      (.recordFailure
        { reason := match mode with
            | .chat => "chat_exception"
            | .stream => "stream_exception"
          detail := exc.operatorSafeError
          exc := some exc
          userId := reading.userId
          userName := reading.userName
          clocks := reading.clocks
          reportedAt := reading.reportedAt
          scheduled := reading.scheduled })

/-- `acquire`, with the position of the lease. Nothing awaits inside it. -/
def acquire (resources : Resources) (request : AcquireRequest) (reading : Reading) :
    Option (Resources × ℕ) :=
  let call := resources.prefill.calls.length
  (prefillMachine.run resources.prefill
    [.acquire request reading.clocks.mono, .gate call reading.settings reading.clocks.mono,
      .charge call]).map fun prefill =>
        ({ resources with
            prefill := prefill
            leases := resources.leases ++ [resources.prefill.leases.length] },
          resources.prefill.leases.length)

/-- `release` of a lease, or of none. -/
def release (resources : Resources) (lease : Option ℕ) (prefillConfirmed : Bool)
    (reading : Reading) : Option Resources :=
  match lease with
  | none => some resources
  | some index =>
    resources.stepPrefill (.release index reading.settings prefillConfirmed reading.clocks.mono)

end Operations

end Resources

structure Fallback where
  primary : Adapter
  claim : ℕ
  walk : Walk

/-- An attempt on the wire. `first` is set until its first token. -/
structure Attempt where
  adapter : Adapter
  offload : Option OffloadReason
  watched : Bool
  first : Bool
  fallback : Option Fallback

/-- The `await` or `yield` an attempt stands at. -/
inductive Position where
  | awaitingResponse
  | yieldedRouting
  | awaitingFirstToken (held : ℕ)
  | yieldedHeld (left : ℕ)
  | awaitingChunk
  | yieldedChunk
  deriving DecidableEq

def Position.awaits : Position → Bool
  | .awaitingResponse | .awaitingFirstToken _ | .awaitingChunk => true
  | .yieldedRouting | .yieldedHeld _ | .yieldedChunk => false

inductive Stage where
  | selecting
  | attempting (attempt : Attempt) (position : Position)
  | seeking (primary : Adapter) (walk : Walk)
  | ended

instance decidableEnded (stage : Stage) : Decidable (stage = .ended) :=
  match stage with
  | .ended => isTrue rfl
  | .selecting | .attempting _ _ | .seeking _ _ => isFalse (by simp)

/-- What an `acquire` takes from the request's prompt. -/
structure Prompt where
  affinityKey : Option String
  fingerprint : Option String
  anchorFor : Adapter → Option Anchor

structure Call where
  mode : Mode
  request : RouterRequest
  prompt : Prompt
  primaryClaim : Option ℕ
  lease : Option ℕ
  chunksYielded : Bool
  yielded : List Adapter
  stage : Stage

structure RouterSession where
  resources : Resources
  call : Call

/-- How the environment resumes a call: an adapter handed out, its binding, a response (with the
exception of one that cannot be annotated), a chunk, or an end. -/
inductive CallAction where
  | pick (adapter : Adapter) (bound : Bool) (watched : Bool)
  | unplaced
  | responded (spoiled : Option AttemptError)
  | raised (error : AttemptError)
  | abandoned
  | resumed
  | chunk (content : Bool) (full : Bool)
  | streamEnded
  | seek (bound : Bool) (watched : Bool)

inductive SessionEvent where
  | call (action : CallAction) (reading : Reading)
  | registry (endpointId : String) (event : EndpointEvent)
  | prefill (event : PrefillEvent)

def Call.acquireRequest (call : Call) (adapter : Adapter) : AcquireRequest :=
  { endpointId := adapter.endpointId
    tokens := call.request.prefillTokens
    affinityKey := call.prompt.affinityKey
    fingerprint := call.prompt.fingerprint
    anchor := call.prompt.anchorFor adapter }

def primaryOffloadReason (request : RouterRequest) (primary : Adapter) : Option OffloadReason :=
  match requestOffloadTarget request with
  | none => none
  | some (offload, _) => if offload = primary then some .lastResort else none

def Mode.opening : Mode → Position
  | .chat => .awaitingResponse
  | .stream => .yieldedRouting

namespace RouterSession

def start (registry : String → Endpoint) (fixedElephantTokens : Option ℤ) (mode : Mode)
    (request : RouterRequest) (prompt : Prompt) : RouterSession :=
  { resources :=
      { registry := registry
        prefill := .fresh fixedElephantTokens
        claims := []
        leases := [] }
    call :=
      { mode := mode
        request := request
        prompt := prompt
        primaryClaim := none
        lease := none
        chunksYielded := false
        yielded := []
        stage := .selecting } }

section Steps

variable (health : HealthSettings)

/-- The outer `finally`. -/
def finish (session : RouterSession) (reading : Reading) : Option RouterSession :=
  (if session.call.mode = .stream then
    session.resources.release session.call.lease false reading
  else some session.resources).bind fun resources =>
    (resources.endDispatch health session.call.primaryClaim).map fun resources =>
      { resources := resources, call := { session.call with stage := .ended } }

/-- The `finally` of a fallback attempt. The primary has none. -/
def endFallback (session : RouterSession) (attempt : Attempt) (reading : Reading) :
    Option RouterSession :=
  match attempt.fallback with
  | none => some session
  | some fallback =>
    (if session.call.mode = .stream then
      session.resources.release session.call.lease false reading
    else some session.resources).bind fun resources =>
      (resources.endDispatch health (some fallback.claim)).map fun resources =>
        { session with resources := resources }

/-- The `finally` around the `await` of a response. -/
def endAwait (session : RouterSession) (position : Position) (reading : Reading) :
    Option RouterSession :=
  match position with
  | .awaitingResponse =>
    (session.resources.release session.call.lease false reading).map fun resources =>
      { session with resources := resources }
  | _ => some session

def leave (session : RouterSession) (attempt : Attempt) (reading : Reading) :
    Option RouterSession :=
  (session.endFallback health attempt reading).bind fun session => session.finish health reading

def seekOn (session : RouterSession) (primary : Adapter) (walk : Walk) : RouterSession :=
  { session with call := { session.call with stage := .seeking primary walk } }

def failAttempt (session : RouterSession) (attempt : Attempt) (error : AttemptError)
    (reading : Reading) : Option RouterSession :=
  match attempt.fallback with
  | none =>
    (if session.call.mode = .stream then
      session.resources.release session.call.lease false reading
    else some session.resources).bind fun resources =>
      (resources.onFailure health session.call.mode attempt.adapter.endpointId error
        reading).bind fun resources =>
          let session : RouterSession := { session with resources := resources }
          let request := session.call.request
          if request.pinProvider.isSome || !request.allowFallback ||
              session.call.chunksYielded then
            session.finish health reading
          else
            some (session.seekOn attempt.adapter
              (Walk.afterPrimary (fallbackOrder request attempt.adapter).1 attempt.adapter
                attempt.offload error))
  | some fallback =>
    (session.resources.onFailure health session.call.mode attempt.adapter.endpointId error
      reading).bind fun resources =>
        let session : RouterSession := { session with resources := resources }
        let walk := fallback.walk.fail attempt.adapter attempt.offload error
        if session.call.chunksYielded || stopsAfterRequestRefusals walk.attempts then
          session.leave health attempt reading
        else
          (session.endFallback health attempt reading).map fun session =>
            session.seekOn fallback.primary walk

/-- Stand at a `yield` of a chunk of the attempt. -/
def yieldChunk (session : RouterSession) (attempt : Attempt) (position : Position) :
    RouterSession :=
  { session with
    call := { session.call with
      yielded := session.call.yielded ++ [attempt.adapter]
      stage := .attempting attempt position } }

def stand (session : RouterSession) (attempt : Attempt) (position : Position) : RouterSession :=
  { session with call := { session.call with stage := .attempting attempt position } }

def yieldHeld (session : RouterSession) (attempt : Attempt) : ℕ → RouterSession
  | 0 => session.stand attempt .awaitingChunk
  | left + 1 => session.yieldChunk attempt (.yieldedHeld left)

def firstToken (session : RouterSession) (attempt : Attempt) (reading : Reading) :
    Option RouterSession :=
  (session.resources.onSuccess health attempt.adapter.endpointId).bind fun resources =>
    (resources.release session.call.lease true reading).map fun resources =>
      { session with resources := resources }

def takeLease (session : RouterSession) (adapter : Adapter) (reading : Reading) :
    Option RouterSession :=
  (session.resources.acquire (session.call.acquireRequest adapter) reading).map fun acquired =>
    { resources := acquired.1, call := { session.call with lease := some acquired.2 } }

def pick (session : RouterSession) (adapter : Adapter) (bound watched : Bool)
    (reading : Reading) : Option RouterSession :=
  (if session.call.request.pinProvider.isSome then some (session.resources, some none)
  else
    (session.resources.beginDispatch health adapter.endpointId reading).map fun dispatched =>
      (dispatched.1, dispatched.2.map some)).bind fun dispatched =>
  let session : RouterSession := { session with resources := dispatched.1 }
  match dispatched.2 with
  | none => some session
  | some claim =>
    (session.takeLease adapter reading).bind fun session =>
      if bound then
        some ({ session with call := { session.call with primaryClaim := claim } }.stand
          { adapter := adapter
            offload := primaryOffloadReason session.call.request adapter
            watched := watched
            first := true
            fallback := none } session.call.mode.opening)
      else
        -- `bind_execution` hands the claim back, its caller the lease.
        (session.resources.endDispatch health claim).bind fun resources =>
          (resources.release session.call.lease false reading).map fun resources =>
            { resources := resources, call := { session.call with stage := .ended } }

def endRetriedClaim (session : RouterSession) (primary adapter : Adapter) :
    Option RouterSession :=
  if adapter = primary then
    (session.resources.endDispatch health session.call.primaryClaim).map fun resources =>
      { resources := resources, call := { session.call with primaryClaim := none } }
  else some session

def tryFallback (session : RouterSession) (primary : Adapter) (walk : Walk) (adapter : Adapter)
    (offload : Option OffloadReason) (watched : Bool) (reading : Reading) :
    Option RouterSession :=
  (session.resources.beginDispatch health adapter.endpointId reading).bind fun dispatched =>
    let session : RouterSession := { session with resources := dispatched.1 }
    match dispatched.2 with
    | none => some (session.seekOn primary walk)
    | some claim =>
      let attempt : Attempt :=
        { adapter := adapter
          offload := offload
          watched := watched
          first := true
          fallback := some { primary := primary, claim := claim, walk := walk } }
      match session.call.mode with
      | .chat =>
        (session.takeLease adapter reading).map fun session =>
          session.stand attempt .awaitingResponse
      | .stream => some (session.stand attempt .yieldedRouting)

def seek (session : RouterSession) (primary : Adapter) (walk : Walk) (bound watched : Bool)
    (reading : Reading) : Option RouterSession :=
  match walk.order.next with
  | (none, _) => session.finish health reading
  | (some (adapter, offload), order) =>
    let walk := { walk with order := order }
    if windowCannotFit adapter walk.refusedWindow then some (session.seekOn primary walk)
    else if !bound then session.finish health reading
    else
      (session.endRetriedClaim health primary adapter).bind fun session =>
        session.tryFallback health primary walk adapter offload watched reading

def resume (session : RouterSession) (attempt : Attempt) (reading : Reading) :
    Position → Option RouterSession
  | .yieldedRouting =>
    (if attempt.fallback.isSome then session.takeLease attempt.adapter reading
    else some session).map fun session =>
      session.stand attempt (if attempt.watched then .awaitingFirstToken 0 else .awaitingChunk)
  | .yieldedHeld left =>
    some ({ session with call := { session.call with chunksYielded := true } }.yieldHeld
      attempt left)
  | .yieldedChunk =>
    some ({ session with call := { session.call with chunksYielded := true } }.stand attempt
      .awaitingChunk)
  | .awaitingResponse | .awaitingFirstToken _ | .awaitingChunk => none

def receive (session : RouterSession) (attempt : Attempt) (content full : Bool)
    (reading : Reading) : Position → Option RouterSession
  | .awaitingFirstToken held =>
    if content then
      (session.firstToken health attempt reading).map fun session =>
        session.yieldHeld { attempt with first := false } (held + 1)
    else if full then some (session.yieldHeld attempt (held + 1))
    else some (session.stand attempt (.awaitingFirstToken (held + 1)))
  | .awaitingChunk =>
    if attempt.first && content then
      (session.firstToken health attempt reading).map fun session =>
        session.yieldChunk { attempt with first := false } .yieldedChunk
    else some (session.yieldChunk attempt .yieldedChunk)
  | .awaitingResponse | .yieldedRouting | .yieldedHeld _ | .yieldedChunk => none

def respond (session : RouterSession) (attempt : Attempt) (spoiled : Option AttemptError)
    (reading : Reading) : Option RouterSession :=
  (session.resources.release session.call.lease true reading).bind fun resources =>
    (resources.release session.call.lease false reading).bind fun resources =>
      (resources.onSuccess health attempt.adapter.endpointId).bind fun resources =>
        let session : RouterSession := { session with resources := resources }
        match spoiled with
        | none => session.leave health attempt reading
        | some error => session.failAttempt health attempt error reading

def endStream (session : RouterSession) (attempt : Attempt) (reading : Reading) :
    Position → Option RouterSession
  | .awaitingFirstToken held => some (session.yieldHeld attempt held)
  | .awaitingChunk => session.leave health attempt reading
  | .awaitingResponse | .yieldedRouting | .yieldedHeld _ | .yieldedChunk => none

def stepAttempt (session : RouterSession) (attempt : Attempt) (position : Position)
    (reading : Reading) : CallAction → Option RouterSession
  | .responded spoiled =>
    if position = .awaitingResponse then session.respond health attempt spoiled reading
    else none
  | .raised error =>
    if position.awaits then
      (session.endAwait position reading).bind fun session =>
        session.failAttempt health attempt error reading
    else none
  | .abandoned =>
    (session.endAwait position reading).bind fun session => session.leave health attempt reading
  | .resumed => session.resume attempt reading position
  | .chunk content full => session.receive health attempt content full reading position
  | .streamEnded => session.endStream health attempt reading position
  | .pick _ _ _ | .unplaced | .seek _ _ => none

def stepCall (session : RouterSession) (action : CallAction) (reading : Reading) :
    Option RouterSession :=
  match session.call.stage with
  | .selecting =>
    match action with
    | .pick adapter bound watched => session.pick health adapter bound watched reading
    | .unplaced => some { session with call := { session.call with stage := .ended } }
    | _ => none
  | .attempting attempt position => session.stepAttempt health attempt position reading action
  | .seeking primary walk =>
    match action with
    | .seek bound watched => session.seek health primary walk bound watched reading
    | .abandoned => session.finish health reading
    | _ => none
  | .ended => none

def step (session : RouterSession) : SessionEvent → Option RouterSession
  | .call action reading => session.stepCall health action reading
  | .registry endpointId event =>
    (session.resources.stepEndpoint health endpointId event).map fun resources =>
      { session with resources := resources }
  | .prefill event =>
    (session.resources.stepPrefill event).map fun resources =>
      { session with resources := resources }

end Steps

end RouterSession

def routerMachine (health : HealthSettings) : Machine RouterSession SessionEvent where
  step := RouterSession.step health

end HybridInference.Routing
