import HybridInference.Library.Dict
import HybridInference.Library.Machine
import Mathlib.Algebra.Order.Field.Rat

/-!
# Prefill load of the endpoints

`PrefillLoadTracker` of `routing.prefill_load`. Each block that the source runs
under its lock is one step, so an `acquire` is three: the caller-wide estimate
that is charged, the estimate for the conversation that decides whether the
request is an elephant, and the charge itself. Other calls may come between
them, and the settings the tracker reads may change at any time.
-/

namespace HybridInference.Prefill

open Library

/-- A prompt's length and tail digest, as `prompt_anchor` makes it. -/
abbrev Anchor := ℤ × String

structure PrefixHint where
  tokens : ℤ
  expiresAt : ℚ
  fingerprint : Option String
  anchor : Option Anchor
  deriving DecidableEq

structure PrefillLease where
  endpointId : String
  tokens : ℤ
  elephant : Bool
  affinityKey : Option String
  released : Bool
  promptTokens : ℤ
  fingerprint : Option String
  anchor : Option Anchor
  deriving DecidableEq

structure PrefillSettings where
  prefillAwareEnabled : Bool := true
  elephantTokens : ℤ := 200000
  prefixHintTtl : ℚ := 1200

def prefixHintMaxEntries : ℕ := 50000

/-- `PrefillLoadTracker`. The hints are ordered from the oldest to the newest;
their keys are (affinity key, endpoint). -/
structure PrefillLoadTracker where
  backlog : Dict String ℤ := ∅
  elephants : Dict String ℤ := ∅
  byCaller : Dict (String × String) ℤ := ∅
  prefixHints : List ((String × String) × PrefixHint) := []
  hintCallers : Dict String (List String) := ∅
  fixedElephantTokens : Option ℤ := none
  deriving DecidableEq

namespace PrefillLoadTracker

def hint (tracker : PrefillLoadTracker) (affinityKey endpointId : String) : Option PrefixHint :=
  tracker.prefixHints.lookup (affinityKey, endpointId)

/-- `uncached_estimate`. `messages` is what `_anchor_holds` answers about the
messages given, if any were. -/
def uncachedEstimate (tracker : PrefillLoadTracker) (endpointId : String) (tokens : ℤ)
    (affinityKey fingerprint : Option String) (messages : Option (Anchor → Bool)) (now : ℚ) : ℤ :=
  let total := max tokens 0
  match affinityKey with
  | none => total
  | some key =>
    match tracker.hint key endpointId with
    | none => total
    | some hint =>
      if hint.expiresAt ≤ now then total
      else if fingerprint.isSome && fingerprint ≠ hint.fingerprint then total
      else if messages.any fun holds => !hint.anchor.any holds then total
      else max (total - hint.tokens) 0

def elephantTokens (tracker : PrefillLoadTracker) (settings : PrefillSettings) : ℤ :=
  max (tracker.fixedElephantTokens.getD settings.elephantTokens) 1

def isElephant (tracker : PrefillLoadTracker) (settings : PrefillSettings) (tokens : ℤ) : Bool :=
  tracker.elephantTokens settings ≤ tokens

/-- The last block of `acquire`. -/
def charge (tracker : PrefillLoadTracker) (endpointId : String) (affinityKey : Option String)
    (charged : ℤ) (elephant : Bool) : PrefillLoadTracker :=
  { tracker with
    backlog := tracker.backlog.insert endpointId (tracker.backlog.read endpointId + charged)
    elephants :=
      if elephant then
        tracker.elephants.insert endpointId (tracker.elephants.read endpointId + 1)
      else tracker.elephants
    byCaller :=
      match affinityKey with
      | none => tracker.byCaller
      | some key =>
        tracker.byCaller.insert (endpointId, key)
          (tracker.byCaller.read (endpointId, key) + charged) }

def discardCaller (hintCallers : Dict String (List String)) (key : String × String) :
    Dict String (List String) :=
  match hintCallers.lookup key.2 with
  | none => hintCallers
  | some callers =>
    if (callers.erase key.1).isEmpty then hintCallers.erase key.2
    else hintCallers.insert key.2 (callers.erase key.1)

/-- The eviction loop of `_remember_prompt_locked`. -/
def evict : List ((String × String) × PrefixHint) → Dict String (List String) →
    List ((String × String) × PrefixHint) × Dict String (List String)
  | [], hintCallers => ([], hintCallers)
  | entry :: rest, hintCallers =>
    if prefixHintMaxEntries < (entry :: rest).length then
      evict rest (discardCaller hintCallers entry.1)
    else (entry :: rest, hintCallers)

def rememberPrompt (tracker : PrefillLoadTracker) (settings : PrefillSettings)
    (affinityKey : String) (lease : PrefillLease) (now : ℚ) : PrefillLoadTracker :=
  let key := (affinityKey, lease.endpointId)
  let hint : PrefixHint :=
    { tokens := lease.promptTokens
      expiresAt := now + settings.prefixHintTtl
      fingerprint := lease.fingerprint
      anchor := lease.anchor }
  let callers := (tracker.hintCallers.lookup lease.endpointId).getD []
  let kept := evict (tracker.prefixHints.filter (fun entry => entry.1 ≠ key) ++ [(key, hint)])
    (tracker.hintCallers.insert lease.endpointId (callers.insert affinityKey))
  { tracker with prefixHints := kept.1, hintCallers := kept.2 }

def forgetEndpoint (tracker : PrefillLoadTracker) (endpointId : String) : PrefillLoadTracker :=
  let callers := (tracker.hintCallers.lookup endpointId).getD []
  { tracker with
    prefixHints := tracker.prefixHints.filter fun entry =>
      !(entry.1.2 = endpointId && callers.contains entry.1.1)
    hintCallers := tracker.hintCallers.erase endpointId }

/-- What `release` takes off the three maps. -/
def discharge (tracker : PrefillLoadTracker) (lease : PrefillLease) : PrefillLoadTracker :=
  { tracker with
    backlog :=
      tracker.backlog.settle lease.endpointId (tracker.backlog.read lease.endpointId - lease.tokens)
    elephants :=
      if lease.elephant then
        tracker.elephants.settle lease.endpointId (tracker.elephants.read lease.endpointId - 1)
      else tracker.elephants
    byCaller :=
      match lease.affinityKey with
      | none => tracker.byCaller
      | some key =>
        tracker.byCaller.settle (lease.endpointId, key)
          (tracker.byCaller.read (lease.endpointId, key) - lease.tokens) }

/-- `release` of a lease that was not released before. -/
def release (tracker : PrefillLoadTracker) (settings : PrefillSettings) (lease : PrefillLease)
    (prefillConfirmed : Bool) (now : ℚ) : PrefillLoadTracker :=
  let remembered :=
    match lease.affinityKey with
    | some key =>
      if prefillConfirmed then tracker.rememberPrompt settings key lease now else tracker
    | none => tracker
  remembered.discharge lease

def foreignLoad (tracker : PrefillLoadTracker) (endpointId : String)
    (affinityKey : Option String) : ℤ :=
  tracker.backlog.read endpointId - (match affinityKey with
    | none => 0
    | some key => tracker.byCaller.read (endpointId, key))

end PrefillLoadTracker

/-- The arguments of one `acquire`. -/
structure AcquireRequest where
  endpointId : String
  tokens : ℤ
  affinityKey : Option String
  fingerprint : Option String
  anchor : Option Anchor
  deriving DecidableEq

/-- How far an `acquire` has come: what it will charge, and whether as an
elephant. -/
inductive AcquireCall where
  | estimated (request : AcquireRequest) (charged : ℤ)
  | gated (request : AcquireRequest) (charged : ℤ) (elephant : Bool)
  | returned
  deriving DecidableEq

/-- The tracker, the `acquire` calls made on it and the leases they returned. -/
structure PrefillWorld where
  tracker : PrefillLoadTracker
  calls : List AcquireCall
  leases : List PrefillLease
  deriving DecidableEq

inductive PrefillEvent where
  | acquire (request : AcquireRequest) (now : ℚ)
  | gate (call : ℕ) (settings : PrefillSettings) (now : ℚ)
  | charge (call : ℕ)
  | release (lease : ℕ) (settings : PrefillSettings) (prefillConfirmed : Bool) (now : ℚ)
  | forgetEndpoint (endpointId : String)

namespace PrefillWorld

def fresh (fixedElephantTokens : Option ℤ) : PrefillWorld :=
  { tracker := { fixedElephantTokens := fixedElephantTokens }, calls := [], leases := [] }

def step (world : PrefillWorld) : PrefillEvent → Option PrefillWorld
  | .acquire request now =>
    some { world with
      calls := world.calls ++ [.estimated request (world.tracker.uncachedEstimate request.endpointId
          (max request.tokens 0) request.affinityKey none none now)] }
  | .gate call settings now =>
    match world.calls[call]? with
    | some (.estimated request charged) =>
      let gated := world.tracker.uncachedEstimate request.endpointId (max request.tokens 0)
        request.affinityKey request.fingerprint none now
      some { world with
        calls := world.calls.set call
          (.gated request charged (world.tracker.isElephant settings gated)) }
    | _ => none
  | .charge call =>
    match world.calls[call]? with
    | some (.gated request charged elephant) =>
      some
        { tracker :=
            world.tracker.charge request.endpointId request.affinityKey charged elephant
          calls := world.calls.set call .returned
          leases := world.leases ++
            [{ endpointId := request.endpointId
               tokens := charged
               elephant := elephant
               affinityKey := request.affinityKey
               released := false
               promptTokens := max request.tokens 0
               fingerprint := request.fingerprint
               anchor := request.anchor }] }
    | _ => none
  | .release index settings prefillConfirmed now =>
    match world.leases[index]? with
    | none => none
    | some lease =>
      if lease.released then some world
      else
        some { world with
          tracker := world.tracker.release settings lease prefillConfirmed now
          leases := world.leases.set index { lease with released := true } }
  | .forgetEndpoint endpointId =>
    some { world with tracker := world.tracker.forgetEndpoint endpointId }

end PrefillWorld

def prefillMachine : Machine PrefillWorld PrefillEvent where
  step := PrefillWorld.step

end HybridInference.Prefill
