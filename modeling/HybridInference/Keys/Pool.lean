import HybridInference.Library.Dict
import HybridInference.Library.ListUpdate
import HybridInference.Library.Machine
import Mathlib.Algebra.Order.Field.Rat
import Mathlib.Data.List.MinMax

/-!
# The pool of provider keys

`KeyPool` of `serving.adapters.key_pool`. Slots are tombstoned and never
dropped, so an index names the same credential for the life of the pool.
Selection hands out the first usable key of the highest tier open to the
caller; an affinity binding is followed only while it is one selection could
have made for the same role.
-/

namespace HybridInference.Keys

open Library

/-- The roles of `ROLE_RANK`. -/
inductive Role where
  | free
  | pro
  | internal
  | admin
  deriving DecidableEq

def Role.rank : Role → ℕ
  | .free => 0
  | .pro => 1
  | .internal => 2
  | .admin => 3

def roleOf : String → Option Role
  | "free" => some .free
  | "pro" => some .pro
  | "internal" => some .internal
  | "admin" => some .admin
  | _ => none

/-- `has_role`, for a required role that is in the table. -/
def hasRole (userRole : String) (required : Role) : Bool :=
  required.rank ≤ ((roleOf userRole).getD .free).rank

def normalizeMinRole (minRole : Option String) : Role :=
  (minRole.bind roleOf).getD .free

structure KeyState where
  key : String
  requestCount : ℕ := 0
  cooldownUntil : ℚ := 0
  removed : Bool := false
  minRole : Role := .free
  consecutiveFailures : ℕ := 0
  deriving DecidableEq

structure Affinity where
  keyIndex : ℕ
  expiresAt : ℚ
  role : Option String
  deriving DecidableEq

structure Lease where
  keyIndex : ℕ
  affinityKey : Option String
  role : Option String
  deriving DecidableEq

/-- `_role_may_use`. A caller with no role is an unrestricted internal one. -/
def roleMayUse (role : Option String) (state : KeyState) : Bool :=
  state.minRole = .free || role.all fun role => hasRole role state.minRole

structure KeyPool where
  keys : List KeyState
  affinity : Dict String Affinity := ∅
  providerLabel : String
  deriving DecidableEq

def affinityTtlSeconds : ℚ := 300

def muteSeconds : ℚ := 20

def sweepThreshold : ℕ := 1000

def soleKeyBackoffThreshold : ℕ := 2

def soleKeyBackoffBaseSeconds : ℚ := 15

/-- What `acquire` raises: whether the pool could still serve an unrestricted
caller, and whether the request had tried every key it may use. -/
inductive KeyPoolError where
  | exhausted (alreadyTried : Bool)
  | roleRestricted
  deriving DecidableEq

inductive ReleaseOutcome where
  | propagate
  | rotated
  | muted
  deriving DecidableEq

def KeyState.usable (state : KeyState) (now : ℚ) (role : Option String) : Bool :=
  !state.removed && state.cooldownUntil ≤ now && roleMayUse role state

namespace KeyPool

/-- `__init__`, for a list of keys that is not empty. -/
def init (keys : List String) (providerLabel : String) (minRoles : List (String × String)) :
    KeyPool :=
  { keys := (keys.foldl (fun deduped key =>
        if deduped.contains key then deduped else deduped ++ [key]) []).map fun key =>
      { key := key, minRole := normalizeMinRole (minRoles.lookup key) }
    providerLabel := providerLabel }

/-- The slots `_pick_first_available_locked` chooses from, in configured order. -/
def candidates (pool : KeyPool) (now : ℚ) (role : Option String) (exclude : List ℕ) :
    List (KeyState × ℕ) :=
  pool.keys.zipIdx.filter fun slot => slot.1.usable now role && !exclude.contains slot.2

/-- `_pick_first_available_locked`: the first of the slots of the highest tier. -/
def pickFirstAvailable (pool : KeyPool) (now : ℚ) (role : Option String) (exclude : List ℕ) :
    Option ℕ :=
  ((pool.candidates now role exclude).argmax fun slot => slot.1.minRole.rank).map Prod.snd

def size (pool : KeyPool) (role : Option String) : ℕ :=
  pool.keys.countP fun state => !state.removed && roleMayUse role state

def canServeRole (pool : KeyPool) (role : Option String) (now : ℚ) : Bool :=
  (pool.pickFirstAvailable now role []).isSome

/-- Whether `_drop_repointed_affinities_locked` drops a binding. -/
def repointed (pool : KeyPool) (now : ℚ) (entry : Affinity) : Bool :=
  match pool.keys[entry.keyIndex]? with
  | none => true
  | some bound =>
    if bound.removed || !roleMayUse entry.role bound then true
    else
      match pool.pickFirstAvailable now entry.role [] with
      | none => false
      | some preferred => preferred ≠ entry.keyIndex

def dropRepointedAffinities (pool : KeyPool) (now : ℚ) : KeyPool :=
  { pool with
    affinity := pool.affinity.eraseAll
      ((pool.affinity.entries.filter fun entry => pool.repointed now entry.2).map Sigma.fst) }

def findSlot (pool : KeyPool) (condition : KeyState → Bool) : Option (KeyState × ℕ) :=
  pool.keys.zipIdx.find? fun slot => condition slot.1

/-- The tier `add_key` leaves a slot with that it found. -/
def tierOnAdd (state : KeyState) (minRole : Option String) : Role :=
  if minRole.isSome then normalizeMinRole minRole else state.minRole

def addKey (pool : KeyPool) (key : String) (minRole : Option String) (now : ℚ) : KeyPool × ℕ :=
  match pool.findSlot fun state => state.key = key with
  | some (state, index) =>
    let changed : KeyPool :=
      { pool with
        keys := pool.keys.set index
          { state with removed := false, minRole := tierOnAdd state minRole } }
    if state.removed || state.minRole ≠ tierOnAdd state minRole then
      (changed.dropRepointedAffinities now, index)
    else (changed, index)
  | none =>
    let grown : KeyPool :=
      { pool with keys := pool.keys ++ [{ key := key, minRole := normalizeMinRole minRole }] }
    (grown.dropRepointedAffinities now, pool.keys.length)

/-- Whether a slot is one that `set_key_min_role` changes. -/
def retiers (key : String) (normalized : Role) (state : KeyState) : Bool :=
  state.key = key && !state.removed && state.minRole ≠ normalized

def setKeyMinRole (pool : KeyPool) (key : String) (minRole : Option String) (now : ℚ) :
    KeyPool × Bool :=
  let normalized := normalizeMinRole minRole
  let found := pool.keys.any fun state => state.key = key && !state.removed
  if pool.keys.any (retiers key normalized) then
    let changed : KeyPool :=
      { pool with
        keys := pool.keys.map fun state =>
          if retiers key normalized state then { state with minRole := normalized } else state }
    (changed.dropRepointedAffinities now, found)
  else (pool, found)

def removeKey (pool : KeyPool) (key : String) (now : ℚ) : KeyPool × Bool :=
  match pool.findSlot fun state => state.key = key && !state.removed with
  | none => (pool, false)
  | some (state, index) =>
    let changed : KeyPool :=
      { pool with keys := pool.keys.set index { state with removed := true } }
    (changed.dropRepointedAffinities now, true)

def maybeSweep (pool : KeyPool) (now : ℚ) : KeyPool :=
  if pool.affinity.entries.length ≤ sweepThreshold then pool
  else
    { pool with
      affinity := pool.affinity.eraseAll
        ((pool.affinity.entries.filter fun entry => entry.2.expiresAt < now).map Sigma.fst) }

/-- Whether `acquire` follows a binding. -/
def honors (pool : KeyPool) (now : ℚ) (role : Option String) (exclude : List ℕ)
    (existing : Affinity) : Bool :=
  now < existing.expiresAt && existing.role = role && !exclude.contains existing.keyIndex &&
    (pool.keys[existing.keyIndex]?).any fun bound => bound.usable now role

def handOut (pool : KeyPool) (index : ℕ) (affinityKey role : Option String) :
    Option (KeyPool × String × Lease) :=
  (pool.keys[index]?).map fun state =>
    ({ pool with
        keys := pool.keys.set index { state with requestCount := state.requestCount + 1 } },
      state.key, { keyIndex := index, affinityKey := affinityKey, role := role })

def bind (pool : KeyPool) (affinityKey role : Option String) (index : ℕ) (now : ℚ) : KeyPool :=
  match affinityKey with
  | none => pool
  | some key =>
    { pool with
      affinity := pool.affinity.insert key
        { keyIndex := index, expiresAt := now + affinityTtlSeconds, role := role } }

/-- What `acquire` does once no binding was followed. -/
def acquirePicked (pool : KeyPool) (affinityKey role : Option String) (exclude : List ℕ)
    (now : ℚ) : KeyPool × Except KeyPoolError (String × Lease) :=
  match pool.pickFirstAvailable now role exclude with
  | some index =>
    match (pool.bind affinityKey role index now).handOut index affinityKey role with
    | some (pool, handed) => (pool, .ok handed)
    | none => (pool, .error (.exhausted false))
  | none =>
    if (pool.pickFirstAvailable now role []).isSome then (pool, .error (.exhausted true))
    else if (pool.pickFirstAvailable now none []).isSome then (pool, .error .roleRestricted)
    else (pool, .error (.exhausted false))

def acquire (pool : KeyPool) (affinityKey role : Option String) (exclude : List ℕ) (now : ℚ) :
    KeyPool × Except KeyPoolError (String × Lease) :=
  let pool := pool.maybeSweep now
  match affinityKey.bind fun key => (pool.affinity.find key).map fun entry => (key, entry) with
  | none => pool.acquirePicked affinityKey role exclude now
  | some (key, existing) =>
    if pool.honors now role exclude existing then
      match pool.handOut existing.keyIndex affinityKey role with
      | some (pool, handed) => (pool, .ok handed)
      | none => (pool, .error (.exhausted false))
    else
      { pool with affinity := pool.affinity.erase key }.acquirePicked affinityKey role exclude now

def mutable4xx : List ℕ := [401, 402, 403, 408, 425, 429]

def keySpecificStatuses : List ℕ := [401, 402, 403, 429]

def isSuccess (statusCode : ℕ) : Bool := 200 ≤ statusCode && statusCode < 300

def shouldMuteStatus (statusCode : ℕ) : Bool :=
  if isSuccess statusCode then false
  else if statusCode = 0 then true
  else if mutable4xx.contains statusCode then true
  else 500 ≤ statusCode && statusCode ≤ 599

def isKeySpecificStatus (statusCode : ℕ) : Bool := keySpecificStatuses.contains statusCode

/-- `_has_other_usable_key_locked`, and with `tried` the narrower question of
`_has_untried_usable_key_locked`. -/
def hasUsableKey (pool : KeyPool) (excludeIdx : ℕ) (now : ℚ) (role : Option String)
    (tried : List ℕ) : Bool :=
  pool.keys.zipIdx.any fun slot =>
    slot.2 ≠ excludeIdx && !tried.contains slot.2 && slot.1.usable now role

def soleKeyMute (consecutiveFailures : ℕ) : ℚ :=
  min (soleKeyBackoffBaseSeconds *
    2 ^ (min (consecutiveFailures - soleKeyBackoffThreshold - 1) 8)) muteSeconds

/-- The part of `release` that follows the rotation: for how long the key is
muted, if it is. -/
def muteFor (statusCode : ℕ) (isSoleKey : Bool) (consecutiveFailures : ℕ) : Option ℚ :=
  if !isKeySpecificStatus statusCode then
    if isSoleKey then none else some muteSeconds
  else if isSoleKey then
    if consecutiveFailures ≤ soleKeyBackoffThreshold then none
    else some (soleKeyMute consecutiveFailures)
  else some muteSeconds

/-- `release` of a failure that is worth moving off the key for. -/
def releaseFailure (pool : KeyPool) (state : KeyState) (lease : Lease) (statusCode : ℕ)
    (tried : List ℕ) (now : ℚ) : KeyPool × ReleaseOutcome :=
  let state := { state with consecutiveFailures := state.consecutiveFailures + 1 }
  let counted := { pool with keys := pool.keys.set lease.keyIndex state }
  if !tried.isEmpty && pool.hasUsableKey lease.keyIndex now lease.role tried then
    (counted, .rotated)
  else
    match muteFor statusCode (!pool.hasUsableKey lease.keyIndex now lease.role [])
        state.consecutiveFailures with
    | none => (counted, .propagate)
    | some duration =>
      ({ pool with
          keys := pool.keys.set lease.keyIndex { state with cooldownUntil := now + duration } },
        .muted)

/-- `release`. A lease names a slot of its pool; a status that is absent is a
neutral release. -/
def release (pool : KeyPool) (lease : Lease) (statusCode : Option ℕ) (tried : List ℕ) (now : ℚ) :
    Option (KeyPool × ReleaseOutcome) :=
  match statusCode, pool.keys[lease.keyIndex]? with
  | none, _ => some (pool, .propagate)
  | some _, none => none
  | some statusCode, some state =>
    if shouldMuteStatus statusCode then
      some (pool.releaseFailure state lease statusCode tried now)
    else if isSuccess statusCode then
      some ({ pool with
          keys := pool.keys.set lease.keyIndex { state with consecutiveFailures := 0 } },
        .propagate)
    else some (pool, .propagate)

end KeyPool

end HybridInference.Keys
