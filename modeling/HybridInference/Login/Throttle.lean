import HybridInference.Library.IpAddress
import HybridInference.Library.SlidingWindow
import Mathlib.Algebra.Order.Ring.Rat

/-!
# Login throttling

`check_and_record_login` with its five buckets, each a queue of moments that is dropped
from its front and swept every so many calls. The clock is read when a call begins and
the buckets are changed without a pause, so the calls are in the order of their clocks.
What `email.strip().lower()` makes of an identifier is left open.
-/

namespace HybridInference.Login

open Library

abbrev Text := List Char

/-- `str` of an IPv4 address. -/
def writeV4 (bits : BitVec 32) : Text :=
  ['.'].intercalate ([24, 16, 8, 0].map fun place =>
    Nat.toDigits 10 ((bits >>> place).toNat % 256))

def ipv6BucketPrefixlen : ℕ := 64

/-- `normalize_ip_bucket`. The scope of an address is only dropped with its host bits. -/
def normalizeIpBucket (ip : Text) : Text :=
  match Address.parse ip with
  | none => ip
  | some (.v4 bits) => writeV4 bits
  | some (.v6 bits scope) =>
    match Address.v4Mapped bits with
    | some mapped => writeV4 mapped
    | none =>
      let network := bits >>> (128 - ipv6BucketPrefixlen) <<< (128 - ipv6BucketPrefixlen)
      Address.writeScoped network (if network = bits then scope else none) ++
        '/' :: Nat.toDigits 10 ipv6BucketPrefixlen

def fifteenMinutes : ℚ := 15 * 60

def hour : ℚ := 3600

structure Limits where
  per15min : ℤ
  accountPer15min : ℤ
  perHourPerIp : ℤ

/-- A call of `check_and_record_login`. -/
structure Attempt where
  email : Text
  ip : Text
  device : Option Text
  now : ℚ
  deriving DecidableEq

inductive Bucket where
  | device
  | devices
  | ip
  | email
  | account
  deriving DecidableEq

inductive Verdict where
  | allowed
  | refused (bucket : Bucket)
  deriving DecidableEq

/-- `_LoginThrottle`'s queues and the number of checks since the last sweep. -/
structure Buckets where
  deviceAttempts : Dict Text (List ℚ) := ∅
  accountDeviceAttempts : Dict Text (List ℚ) := ∅
  accountAddressAttempts : Dict (Text × Text) (List ℚ) := ∅
  accountAttempts : Dict Text (List ℚ) := ∅
  ipAttempts : Dict Text (List ℚ) := ∅
  sweepCounter : ℕ := 0

def sweepEvery : ℕ := 1024

section Calls

variable (limits : Limits) (accountKey : Text → Text) (every : ℕ)

def Buckets.swept (buckets : Buckets) (now : ℚ) : Buckets :=
  if every ≤ buckets.sweepCounter + 1 then
    { deviceAttempts := SlidingWindow.sweep buckets.deviceAttempts (now - fifteenMinutes)
      accountDeviceAttempts :=
        SlidingWindow.sweep buckets.accountDeviceAttempts (now - fifteenMinutes)
      accountAddressAttempts :=
        SlidingWindow.sweep buckets.accountAddressAttempts (now - fifteenMinutes)
      accountAttempts := SlidingWindow.sweep buckets.accountAttempts (now - fifteenMinutes)
      ipAttempts := SlidingWindow.sweep buckets.ipAttempts (now - hour)
      sweepCounter := 0 }
  else { buckets with sweepCounter := buckets.sweepCounter + 1 }

def Buckets.check (buckets : Buckets) (attempt : Attempt) : Verdict × Buckets :=
  let now := attempt.now
  let windowCutoff := now - fifteenMinutes
  let ipCutoff := now - hour
  let account := accountKey attempt.email
  let ip := normalizeIpBucket attempt.ip
  match attempt.device with
  | some device =>
    let deviceBucket := SlidingWindow.since
      (SlidingWindow.queue buckets.deviceAttempts device) windowCutoff
    let counted := { buckets with
      deviceAttempts := buckets.deviceAttempts.insert device (deviceBucket ++ [now]) }
    if limits.per15min ≤ deviceBucket.length then (.refused .device, counted)
    else
      let devicesBucket := SlidingWindow.since
        (SlidingWindow.queue buckets.accountDeviceAttempts account) windowCutoff
      if limits.accountPer15min ≤ devicesBucket.length then
        (.refused .devices, { counted with
          accountDeviceAttempts := buckets.accountDeviceAttempts.insert account devicesBucket })
      else
        (.allowed, { counted with
          accountDeviceAttempts :=
            buckets.accountDeviceAttempts.insert account (devicesBucket ++ [now]) })
  | none =>
    let addressBucket := SlidingWindow.since
      (SlidingWindow.queue buckets.accountAddressAttempts (account, ip)) windowCutoff
    let ipBucket := SlidingWindow.since (SlidingWindow.queue buckets.ipAttempts ip) ipCutoff
    let counted := { buckets with
      accountAddressAttempts :=
        buckets.accountAddressAttempts.insert (account, ip) (addressBucket ++ [now])
      ipAttempts := buckets.ipAttempts.insert ip (ipBucket ++ [now]) }
    if limits.perHourPerIp ≤ ipBucket.length then (.refused .ip, counted)
    else if limits.per15min ≤ addressBucket.length then (.refused .email, counted)
    else
      let accountBucket := SlidingWindow.since
        (SlidingWindow.queue buckets.accountAttempts account) windowCutoff
      if limits.accountPer15min ≤ accountBucket.length then
        (.refused .account, { counted with
          accountAttempts := buckets.accountAttempts.insert account accountBucket })
      else
        (.allowed, { counted with
          accountAttempts := buckets.accountAttempts.insert account (accountBucket ++ [now]) })

def Buckets.checkAndRecordLogin (buckets : Buckets) (attempt : Attempt) : Verdict × Buckets :=
  (buckets.swept every attempt.now).check limits accountKey attempt

abbrev Answer := Attempt × Verdict

def answersFrom (buckets : Buckets) : List Attempt → List Answer × Buckets
  | [] => ([], buckets)
  | attempt :: rest =>
    let (verdict, next) := buckets.checkAndRecordLogin limits accountKey every attempt
    let (answers, last) := answersFrom next rest
    ((attempt, verdict) :: answers, last)

def answers (attempts : List Attempt) : List Answer :=
  (answersFrom limits accountKey every {} attempts).1

end Calls

namespace Answer

variable (accountKey : Text → Text) (answer : Answer)

def deviceQueue : Option Text := answer.1.device

def devicesQueue : Option Text :=
  if answer.1.device.isSome && answer.2 = .allowed then some (accountKey answer.1.email) else none

def addressQueue : Option (Text × Text) :=
  if answer.1.device.isNone then some (accountKey answer.1.email, normalizeIpBucket answer.1.ip)
  else none

def accountQueue : Option Text :=
  if answer.1.device.isNone && answer.2 = .allowed then some (accountKey answer.1.email) else none

def ipQueue : Option Text :=
  if answer.1.device.isNone then some (normalizeIpBucket answer.1.ip) else none

end Answer

section Abstract

variable {Key : Type*} [DecidableEq Key] (limits : Limits) (accountKey : Text → Text)

def countSince (log : List Answer) (queueOf : Answer → Option Key) (key : Key) (cutoff : ℚ) : ℕ :=
  log.countP fun answer => queueOf answer = some key && cutoff ≤ answer.1.now

def verdict (log : List Answer) (attempt : Attempt) : Verdict :=
  let account := accountKey attempt.email
  let ip := normalizeIpBucket attempt.ip
  let windowCutoff := attempt.now - fifteenMinutes
  match attempt.device with
  | some device =>
    if limits.per15min ≤ countSince log Answer.deviceQueue device windowCutoff then
      .refused .device
    else if limits.accountPer15min ≤
        countSince log (Answer.devicesQueue accountKey) account windowCutoff then
      .refused .devices
    else .allowed
  | none =>
    if limits.perHourPerIp ≤ countSince log Answer.ipQueue ip (attempt.now - hour) then
      .refused .ip
    else if limits.per15min ≤
        countSince log (Answer.addressQueue accountKey) (account, ip) windowCutoff then
      .refused .email
    else if limits.accountPer15min ≤
        countSince log (Answer.accountQueue accountKey) account windowCutoff then
      .refused .account
    else .allowed

def Judged (judge : List Answer → Attempt → Verdict) (log : List Answer) : Prop :=
  ∀ earlier answer later, log = earlier ++ answer :: later → answer.2 = judge earlier answer.1

end Abstract

end HybridInference.Login
