import HybridInference.ClientIp.Resolution
import HybridInference.Login.Throttle
import Mathlib.Data.Char
import Mathlib.Data.List.Lex
import Mathlib.Data.Rat.Floor

/-!
# The block list of authentication failures

`serving.utils.auth_failure_blocklist`. The failures of an address bucket and the deadline of its
block are in two maps, and failures without a resolved client have a budget of their own. The clock
is read when a call begins, and a call changes the state without a pause. The exemptions are the
networks that the setting was parsed to.
-/

namespace HybridInference.AuthFailures

open Library
open ClientIp (ClientIpInfo)
open Login (Text normalizeIpBucket)

structure Policy where
  threshold : ℤ
  windowSec : ℤ
  durationSec : ℤ

structure Settings where
  authFailureBlockEnabled : Bool
  resolved : Policy
  unresolved : Policy
  exemptNetworks : List Network

inductive Provenance where
  | address (ip : Text)
  | client (info : ClientIpInfo)

structure Blocklist where
  failures : Dict Text (List ℚ) := ∅
  blockedUntil : Dict Text ℚ := ∅
  unresolvedFailures : List ℚ := []
  unresolvedBlockedUntil : Option ℚ := none
  sweepCounter : ℕ := 0

structure ActiveBlock where
  ipBucket : Text
  blockedUntil : ℚ
  retryAfterSec : ℤ
  deriving DecidableEq

def sweepEvery : ℕ := 1024

def unresolvedGlobal : Text := "unresolved-global".toList

def clientIp : Provenance → Option Text
  | .address ip => some ip
  | .client info => if info.resolved then some info.clientIp else none

def isExempt (settings : Settings) (ip : Text) : Bool :=
  if settings.exemptNetworks.isEmpty then false
  else
    match Address.parse ip with
    | none => false
    | some (.v4 bits) => settings.exemptNetworks.any fun network => network.contains (.v4 bits)
    | some (.v6 bits scope) =>
      match Address.v4Mapped bits with
      | some mapped => settings.exemptNetworks.any fun network => network.contains (.v4 mapped)
      | none => settings.exemptNetworks.any fun network => network.contains (.v6 bits scope)

/-- `max(1, int(until - now + 0.999))`. -/
def retryAfterSec (until_ now : ℚ) : ℤ := max 1 ⌊until_ - now + 999 / 1000⌋

namespace Blocklist

variable (settings : Settings) (list : Blocklist) (now : ℚ)

def lapsedKeys : List Text := Dict.keysWhere list.blockedUntil fun until_ => until_ ≤ now

def sweepInactive : Blocklist :=
  { list with
    failures := SlidingWindow.sweep list.failures (now - settings.resolved.windowSec)
    blockedUntil := list.blockedUntil.eraseAll (list.lapsedKeys now)
    unresolvedFailures :=
      SlidingWindow.since list.unresolvedFailures (now - settings.unresolved.windowSec)
    unresolvedBlockedUntil := list.unresolvedBlockedUntil.filter fun until_ => now < until_ }

def isIpBlocked (provenance : Provenance) : (Bool × ℤ) × Blocklist :=
  if !settings.authFailureBlockEnabled then ((false, 0), list)
  else
    match clientIp provenance with
    | none =>
      match list.unresolvedBlockedUntil with
      | none => ((false, 0), list)
      | some until_ =>
        if until_ ≤ now then ((false, 0), { list with unresolvedBlockedUntil := none })
        else ((true, retryAfterSec until_ now), list)
    | some ip =>
      if isExempt settings ip then ((false, 0), list)
      else
        match list.blockedUntil.find (normalizeIpBucket ip) with
        | none => ((false, 0), list)
        | some until_ =>
          if until_ ≤ now then
            ((false, 0),
              { list with blockedUntil := list.blockedUntil.erase (normalizeIpBucket ip) })
          else ((true, retryAfterSec until_ now), list)

/-- `record_auth_failure`, of a source without a resolved client. -/
def recordUnresolved : Bool × Blocklist :=
  let kept :=
    SlidingWindow.since list.unresolvedFailures (now - settings.unresolved.windowSec)
  if list.unresolvedBlockedUntil.any fun until_ => now < until_ then
    (false, { list with unresolvedFailures := kept })
  else if settings.unresolved.threshold ≤ (kept ++ [now]).length then
    (true, { list with
      unresolvedFailures := []
      unresolvedBlockedUntil := some (now + settings.unresolved.durationSec) })
  else (false, { list with unresolvedFailures := kept ++ [now] })

def swept : Blocklist :=
  if sweepEvery ≤ list.sweepCounter + 1 then
    { list.sweepInactive settings now with sweepCounter := 0 }
  else { list with sweepCounter := list.sweepCounter + 1 }

/-- `record_auth_failure` of a bucket, after the sweep. -/
def recordBucket (key : Text) : Bool × Blocklist :=
  if (list.blockedUntil.find key).any fun until_ => now < until_ then (false, list)
  else
    let bucket :=
      SlidingWindow.since (SlidingWindow.queue list.failures key)
        (now - settings.resolved.windowSec) ++ [now]
    if settings.resolved.threshold ≤ bucket.length then
      (true, { list with
        failures := list.failures.erase key
        blockedUntil := list.blockedUntil.insert key (now + settings.resolved.durationSec) })
    else (false, { list with failures := list.failures.insert key bucket })

def recordAuthFailure (provenance : Provenance) : Bool × Blocklist :=
  if !settings.authFailureBlockEnabled then (false, list)
  else
    match clientIp provenance with
    | none => list.recordUnresolved settings now
    | some ip =>
      if isExempt settings ip then (false, list)
      else (list.swept settings now).recordBucket settings now (normalizeIpBucket ip)

/-- `-blocked_until`, then `ip_bucket`. -/
def listedBefore (first second : ActiveBlock) : Bool :=
  second.blockedUntil < first.blockedUntil ||
    (first.blockedUntil = second.blockedUntil && first.ipBucket ≤ second.ipBucket)

def entry (ipBucket : Text) (until_ : ℚ) : ActiveBlock :=
  { ipBucket := ipBucket, blockedUntil := until_, retryAfterSec := retryAfterSec until_ now }

def listActiveBlocks : List ActiveBlock × Blocklist :=
  if !settings.authFailureBlockEnabled then ([], list)
  else
    let left := { list with
      blockedUntil := list.blockedUntil.eraseAll (list.lapsedKeys now)
      unresolvedBlockedUntil := list.unresolvedBlockedUntil.filter fun until_ => now < until_ }
    let blocks :=
      left.unresolvedBlockedUntil.toList.map (entry now unresolvedGlobal) ++
        left.blockedUntil.entries.map fun block => entry now block.1 block.2
    (blocks.mergeSort listedBefore, left)

def clearBlock (ip : Text) : Bool × Blocklist :=
  if !settings.authFailureBlockEnabled then (false, list)
  else
    let key := normalizeIpBucket ip
    if key = unresolvedGlobal then
      (list.unresolvedBlockedUntil.any fun until_ => now < until_,
        { list with unresolvedBlockedUntil := none, unresolvedFailures := [] })
    else
      ((list.blockedUntil.find key).any fun until_ => now < until_,
        { list with
          blockedUntil := list.blockedUntil.erase key
          failures := list.failures.erase key })

end Blocklist

inductive Call where
  | recordAuthFailure (provenance : Provenance)
  | isIpBlocked (provenance : Provenance)
  | listActiveBlocks
  | clearBlock (ip : Text)

inductive Answer where
  | recorded (blockedNow : Bool)
  | blocked (blocked : Bool) (retryAfterSec : ℤ)
  | active (blocks : List ActiveBlock)
  | cleared (lifted : Bool)
  deriving DecidableEq

structure TimedCall where
  call : Call
  now : ℚ

namespace Blocklist

variable (settings : Settings)

def answer (list : Blocklist) (timed : TimedCall) : Answer × Blocklist :=
  match timed.call with
  | .recordAuthFailure provenance =>
    (list.recordAuthFailure settings timed.now provenance).map .recorded id
  | .isIpBlocked provenance =>
    (list.isIpBlocked settings timed.now provenance).map (fun found => .blocked found.1 found.2) id
  | .listActiveBlocks => (list.listActiveBlocks settings timed.now).map .active id
  | .clearBlock ip => (list.clearBlock settings timed.now ip).map .cleared id

def after (calls : List TimedCall) : Blocklist :=
  calls.foldl (fun list timed => (list.answer settings timed).2) {}

end Blocklist

end HybridInference.AuthFailures
