import Mathlib.Data.List.Infix
import Mathlib.Tactic.Linarith

/-!
# Subscription usage-limit errors

`routing.usage_limit` decides whether an upstream error text names a spent
subscription window, and how long repeat pages for it stay quiet. Instants are
seconds since the Unix epoch.

The two text scanners, which read a declared reset timestamp or a named window out of the text, are
the fields of `ResetScan`; every result about `detectUsageLimit` holds for any scanners.
-/

namespace HybridInference.Health

/-- `MIN_ALERT_GAP`: four hours, in seconds. -/
def minAlertGap : ℚ := 4 * 3600

/-- `_MAX_SUPPRESS`: eight days, in seconds. -/
def maxSuppress : ℚ := 8 * 86400

structure UsageLimit where
  suppressUntil : ℚ
  window : String
  resetAt : Option ℚ
  deriving DecidableEq

/-- The text scanners of `detect_usage_limit`. -/
structure ResetScan where
  /-- `_estimate_window`: the length of the first named window, before `timedelta` bounds it, and
  its label. -/
  estimateWindow : String → Option (ℚ × String)
  /-- The first `_RESET_AT_RE` match, as `_parse_reset_timestamp` reads it. -/
  declaredReset : String → Option ℚ

def ResetScan.silent : ResetScan where
  estimateWindow := fun _ => none
  declaredReset := fun _ => none

/-- Python's `str.isspace`, which both `\s` and `str.split` follow. -/
def isSpace (character : Char) : Bool :=
  let code := character.toNat
  (9 ≤ code && code ≤ 13) || (28 ≤ code && code ≤ 32) || code = 0x85 || code = 0xA0 ||
    code = 0x1680 || (0x2000 ≤ code && code ≤ 0x200A) || code = 0x2028 || code = 0x2029 ||
    code = 0x202F || code = 0x205F || code = 0x3000

/-- `_SEPARATORS_RE.sub(" ", text)`: every run of spaces, `_` and `-` becomes
one space. `inRun` says that the previous character already was a separator. -/
def collapseSeparators (inRun : Bool) : List Char → List Char
  | [] => []
  | character :: rest =>
    if isSpace character || character = '_' || character = '-' then
      if inRun then collapseSeparators true rest else ' ' :: collapseSeparators true rest
    else character :: collapseSeparators false rest

def usageMarkers : List String := ["usage limit", "subscription limit", "fair usage policy"]

def resetMarkers : List String := ["limit will reset", "limit resets"]

/-- The two spellings `_RATE_LIMIT_RE` matches after the separators collapsed. -/
def rateLimitSpellings : List String := ["rate limit", "ratelimit"]

/-- One of `markers` occurs in the text. -/
def containsAny (markers : List String) (text : List Char) : Bool :=
  markers.any fun marker => decide (marker.toList <:+: text)

/-- `_is_usage_limit`, on the lower-cased text. -/
def isUsageLimit (low : List Char) : Bool :=
  let normalized := collapseSeparators false low
  if containsAny usageMarkers normalized then true
  else if containsAny resetMarkers normalized then !containsAny rateLimitSpellings normalized
  else false

/-- `_suppression_deadline`: the reset, floored to `MIN_ALERT_GAP` and capped
to `_MAX_SUPPRESS` from now. -/
def suppressionDeadline (resetAt : Option ℚ) (now : ℚ) : ℚ :=
  let floor := now + minAlertGap
  match resetAt with
  | none => floor
  | some reset =>
    if reset < floor then floor
    else if now + maxSuppress < reset then now + maxSuppress else reset

/-- `detect_usage_limit`, where it does not raise. Lower-casing is ASCII only: no other character
lower-cases into a marker. -/
def detectUsageLimit (scan : ResetScan) (detail : Option String) (now : ℚ) :
    Option UsageLimit :=
  match detail with
  | none => none
  | some text =>
    if text = "" || !isUsageLimit (text.toList.map Char.toLower) then none
    else
      let estimate := scan.estimateWindow text
      match (scan.declaredReset text).filter (fun reset => now < reset) with
      | some reset =>
        some ⟨suppressionDeadline (some reset) now,
          (estimate.map Prod.snd).getD "explicit", some reset⟩
      | none =>
        match estimate with
        | some (length, window) =>
          some ⟨suppressionDeadline (some (now + length)) now, window, some (now + length)⟩
        | none => some ⟨suppressionDeadline none now, "unspecified", none⟩

/-- No `datetime` names the instant: it lies outside the years 1 to 9999. -/
def outsideDatetime (instant : ℚ) : Bool :=
  instant < -62135596800 || 253402300800 ≤ instant

/-- `detect_usage_limit` raises `OverflowError`: the named window is longer than `timedelta.max`,
the declared reset has no UTC time, or a sum with the clock is no `datetime`. -/
def detectUsageLimitRaises (scan : ResetScan) (detail : Option String) (now : ℚ) : Bool :=
  match detail, detectUsageLimit scan detail now with
  | some text, some limit =>
    (scan.estimateWindow text).any (fun estimate => 86400 * 10 ^ 9 ≤ estimate.1) ||
      (scan.declaredReset text).any outsideDatetime || limit.resetAt.any outsideDatetime ||
      outsideDatetime (now + minAlertGap) ||
      (limit.resetAt.any (now + minAlertGap ≤ ·) && outsideDatetime (now + maxSuppress))
  | _, _ => false

end HybridInference.Health
