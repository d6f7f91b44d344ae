import HybridInference.Keys.Selection
import Mathlib.Tactic.Linarith

/-!
# What a failed request does to the tiers

`release` judges whether a key is the last usable one from the leaseholder's
role, but a mute takes the key away from every role. A transient failure is
meant to leave the last usable key in service.
-/

namespace HybridInference.Keys

open Library

def isTransientStatus (statusCode : ℕ) : Bool :=
  statusCode = 0 || statusCode = 408 || statusCode = 425 || (500 ≤ statusCode && statusCode ≤ 599)

/-- The failing key is the only live, unmuted one of its own tier or below,
the leaseholder could use another, and the request has tried all of those or
does not rotate. -/
structure TakesLastOfTier (pool : KeyPool) (state : KeyState) (lease : Lease) (tried : List ℕ)
    (now : ℚ) : Prop where
  live : state.removed = false
  unmuted : state.cooldownUntil ≤ now
  unrotated : tried = [] ∨ pool.hasUsableKey lease.keyIndex now lease.role tried = false
  another : pool.hasUsableKey lease.keyIndex now lease.role [] = true
  reserved : ∀ (index : ℕ) (other : KeyState), pool.keys[index]? = some other →
    index ≠ lease.keyIndex → other.removed = false → other.cooldownUntil ≤ now →
    state.minRole.rank < other.minRole.rank

section Roles

variable {role : Option String} {first second : KeyState}

def Role.name : Role → String
  | .free => "free"
  | .pro => "pro"
  | .internal => "internal"
  | .admin => "admin"

theorem roleOf_name (role : Role) : roleOf role.name = some role := by
  cases role <;> rfl

theorem roleMayUse_iff : roleMayUse role first = true ↔
    ∀ name, role = some name → first.minRole.rank ≤ ((roleOf name).getD .free).rank := by
  unfold roleMayUse hasRole
  cases role with
  | none => simp
  | some name =>
    by_cases shared : first.minRole = .free
    · simp [shared, Role.rank]
    · simp [shared]

theorem roleMayUse_mono (lower : second.minRole.rank ≤ first.minRole.rank)
    (allowed : roleMayUse role first = true) : roleMayUse role second = true := by
  rw [roleMayUse_iff] at allowed ⊢
  intro name isRole
  exact lower.trans (allowed name isRole)

theorem roleMayUse_name_iff (tier : Role) :
    roleMayUse (some tier.name) first = true ↔ first.minRole.rank ≤ tier.rank := by
  simp [roleMayUse_iff, roleOf_name]

end Roles

section Transient

variable {pool next : KeyPool} {state : KeyState} {lease : Lease} {tried : List ℕ}
  {statusCode : ℕ} {now : ℚ} {outcome : ReleaseOutcome} {role : Option String}

theorem transient_moves_on (transient : isTransientStatus statusCode = true) :
    KeyPool.shouldMuteStatus statusCode = true ∧
      KeyPool.isKeySpecificStatus statusCode = false := by
  simp only [isTransientStatus, Bool.or_eq_true, Bool.and_eq_true, decide_eq_true_eq] at transient
  rcases transient with ((rfl | rfl) | rfl) | ⟨lower, upper⟩
  · decide
  · decide
  · decide
  · have notSuccess : KeyPool.isSuccess statusCode = false := by
      simp only [KeyPool.isSuccess, Bool.and_eq_false_iff, decide_eq_false_iff_not]
      omega
    have serverError : (500 ≤ statusCode && statusCode ≤ 599) = true := by
      simp [lower, upper]
    constructor
    · unfold KeyPool.shouldMuteStatus
      rw [notSuccess, serverError]
      simp
    · simp only [KeyPool.isKeySpecificStatus, KeyPool.keySpecificStatuses, List.contains_eq_mem,
        decide_eq_false_iff_not, List.mem_cons, List.not_mem_nil, or_false]
      omega

theorem release_transient (found : pool.keys[lease.keyIndex]? = some state)
    (transient : isTransientStatus statusCode = true)
    (released : pool.release lease (some statusCode) tried now = some (next, outcome)) :
    ∃ after : KeyState, next.keys = pool.keys.set lease.keyIndex after ∧
      after.removed = state.removed ∧ after.minRole = state.minRole ∧
      ((after.cooldownUntil = now + muteSeconds ∧
          (tried = [] ∨ pool.hasUsableKey lease.keyIndex now lease.role tried = false) ∧
          pool.hasUsableKey lease.keyIndex now lease.role [] = true) ∨
        (after.cooldownUntil = state.cooldownUntil ∧
          ¬((tried = [] ∨ pool.hasUsableKey lease.keyIndex now lease.role tried = false) ∧
            pool.hasUsableKey lease.keyIndex now lease.role [] = true))) := by
  rcases transient_moves_on transient with ⟨moves, notKeySpecific⟩
  simp only [KeyPool.release, found, moves, if_true, Option.some.injEq] at released
  unfold KeyPool.releaseFailure at released
  dsimp only at released
  split_ifs at released with rotates
  · cases released
    simp only [Bool.and_eq_true, Bool.not_eq_true', List.isEmpty_eq_false_iff] at rotates
    refine ⟨_, rfl, rfl, rfl, Or.inr ⟨rfl, ?_⟩⟩
    rintro ⟨unrotated, -⟩
    rcases unrotated with none_tried | all_tried
    · exact rotates.1 none_tried
    · rw [rotates.2] at all_tried
      cases all_tried
  · have unrotated : tried = [] ∨
        pool.hasUsableKey lease.keyIndex now lease.role tried = false := by
      simp only [Bool.and_eq_true, Bool.not_eq_true', List.isEmpty_eq_false_iff, not_and,
        Bool.not_eq_true] at rotates
      by_cases none_tried : tried = []
      · exact Or.inl none_tried
      · exact Or.inr (rotates none_tried)
    simp only [KeyPool.muteFor, notKeySpecific, Bool.not_false, if_true,
      Bool.not_eq_true'] at released
    cases another : pool.hasUsableKey lease.keyIndex now lease.role [] with
    | false =>
      simp only [another, if_true] at released
      cases released
      exact ⟨_, rfl, rfl, rfl, Or.inr ⟨rfl, by simp⟩⟩
    | true =>
      simp only [another, Bool.true_eq_false, if_false] at released
      cases released
      exact ⟨_, rfl, rfl, rfl, Or.inl ⟨rfl, unrotated, rfl⟩⟩

theorem usable_iff : state.usable now role = true ↔
    state.removed = false ∧ state.cooldownUntil ≤ now ∧ roleMayUse role state = true := by
  simp [KeyState.usable, and_assoc]

theorem canServeRole_of_other {index : ℕ} {other after : KeyState}
    (found : pool.keys[lease.keyIndex]? = some state)
    (replaced : next.keys = pool.keys.set lease.keyIndex after)
    (foundOther : pool.keys[index]? = some other) (differs : index ≠ lease.keyIndex)
    (usable : other.usable now role = true) : next.canServeRole role now = true := by
  refine KeyPool.canServeRole_iff.mpr ⟨index, other, ?_, usable⟩
  rw [replaced, getElem?_set_of_some found, if_neg (Ne.symm differs)]
  exact foundOther

theorem canServeRole_muted {after : KeyState} (found : pool.keys[lease.keyIndex]? = some state)
    (replaced : next.keys = pool.keys.set lease.keyIndex after)
    (muted : after.cooldownUntil = now + muteSeconds) (serves : next.canServeRole role now = true) :
    ∃ (index : ℕ) (other : KeyState), pool.keys[index]? = some other ∧ index ≠ lease.keyIndex ∧
      other.usable now role = true := by
  rcases KeyPool.canServeRole_iff.mp serves with ⟨index, other, slot, usable⟩
  rw [replaced, getElem?_set_of_some found] at slot
  split_ifs at slot with same
  · cases slot
    have cooled := (usable_iff.mp usable).2.1
    rw [muted, muteSeconds] at cooled
    linarith
  · exact ⟨index, other, slot, Ne.symm same, usable⟩

/-- A transient failure leaves every tier that had a key one, exactly when it
does not take the last key of a tier below the leaseholder's other keys. -/
theorem transient_release_keeps_tiers_iff (found : pool.keys[lease.keyIndex]? = some state)
    (transient : isTransientStatus statusCode = true) :
    (∀ next outcome, pool.release lease (some statusCode) tried now = some (next, outcome) →
      ∀ role, pool.canServeRole role now = true → next.canServeRole role now = true) ↔
      ¬TakesLastOfTier pool state lease tried now := by
  rcases transient_moves_on transient with ⟨moves, -⟩
  have releases : ∃ next outcome,
      pool.release lease (some statusCode) tried now = some (next, outcome) := by
    refine ⟨(pool.releaseFailure state lease statusCode tried now).1,
      (pool.releaseFailure state lease statusCode tried now).2, ?_⟩
    simp [KeyPool.release, found, moves]
  constructor
  · intro keeps takes
    rcases releases with ⟨next, outcome, released⟩
    rcases release_transient found transient released with
      ⟨after, replaced, -, -, ⟨muted, -, -⟩ | ⟨-, kept⟩⟩
    · have before : pool.canServeRole (some state.minRole.name) now = true := by
        refine KeyPool.canServeRole_iff.mpr ⟨lease.keyIndex, state, found, ?_⟩
        exact usable_iff.mpr ⟨takes.live, takes.unmuted, (roleMayUse_name_iff _).mpr le_rfl⟩
      rcases canServeRole_muted found replaced muted (keeps next outcome released _ before) with
        ⟨index, other, foundOther, differs, usable⟩
      rcases usable_iff.mp usable with ⟨live, unmuted, allowed⟩
      have above := takes.reserved index other foundOther differs live unmuted
      exact absurd ((roleMayUse_name_iff _).mp allowed) (by omega)
    · exact kept ⟨takes.unrotated, takes.another⟩
  · intro spares next outcome released role serves
    rcases KeyPool.canServeRole_iff.mp serves with ⟨index, served, slot, usable⟩
    rcases release_transient found transient released with
      ⟨after, replaced, sameRemoved, sameRole, kept⟩
    by_cases differs : index = lease.keyIndex
    · subst differs
      rw [found, Option.some.injEq] at slot
      subst slot
      rcases usable_iff.mp usable with ⟨live, unmuted, allowed⟩
      rcases kept with ⟨-, unrotated, another⟩ | ⟨sameCooldown, -⟩
      · have lower : ∃ (index : ℕ) (other : KeyState), pool.keys[index]? = some other ∧
            index ≠ lease.keyIndex ∧ other.removed = false ∧ other.cooldownUntil ≤ now ∧
              other.minRole.rank ≤ state.minRole.rank := by
          by_contra none_lower
          apply spares
          refine ⟨live, unmuted, unrotated, another, ?_⟩
          intro index other foundOther differs live unmuted
          by_contra notAbove
          exact none_lower ⟨index, other, foundOther, differs, live, unmuted, not_lt.mp notAbove⟩
        rcases lower with ⟨index, other, foundOther, differs, live, unmuted, below⟩
        exact canServeRole_of_other found replaced foundOther differs
          (usable_iff.mpr ⟨live, unmuted, roleMayUse_mono below allowed⟩)
      · refine KeyPool.canServeRole_iff.mpr ⟨lease.keyIndex, after, ?_, ?_⟩
        · rw [replaced, getElem?_set_of_some found, if_pos rfl]
        · refine usable_iff.mpr ⟨sameRemoved.trans live, by rw [sameCooldown]; exact unmuted, ?_⟩
          exact roleMayUse_mono (le_of_eq (by rw [sameRole])) allowed
    · exact canServeRole_of_other found replaced slot differs usable

/-- A pro caller's failures on both of two shared keys leave the free tier one. -/
theorem transient_release_keeps_tiers_iff_two_shared :
    ∃ next outcome, (KeyPool.init ["first", "second"] "provider" []).release
        ⟨1, none, some "pro"⟩ (some 503) [0, 1] 5 = some (next, outcome) ∧ outcome = .muted ∧
      next.canServeRole (some "free") 5 = true := by
  have found : (KeyPool.init ["first", "second"] "provider" []).keys[1]? =
      some { key := "second" } := by decide +kernel
  have released : (KeyPool.init ["first", "second"] "provider" []).release ⟨1, none, some "pro"⟩
      (some 503) [0, 1] 5 = some _ := (Option.some_get (by decide +kernel)).symm
  have spares : ¬TakesLastOfTier (KeyPool.init ["first", "second"] "provider" [])
      { key := "second" } ⟨1, none, some "pro"⟩ [0, 1] 5 := by
    intro takes
    have above := takes.reserved 0 { key := "first" } (by decide +kernel) (by decide) rfl
      (by decide +kernel)
    simp at above
  exact ⟨_, _, released, by decide +kernel,
    (transient_release_keeps_tiers_iff found (by decide +kernel)).mpr spares _ _ released
      (some "free") (by decide +kernel)⟩

/-- A pro caller's transient failures on its reserved key and then on the one
shared key leave the free tier without a key. -/
theorem transient_release_starves_free_tier :
    ¬ ∀ (pool : KeyPool) (lease : Lease) (statusCode : ℕ) (tried : List ℕ) (now : ℚ),
      lease.keyIndex < pool.keys.length → isTransientStatus statusCode = true →
      ∀ next outcome, pool.release lease (some statusCode) tried now = some (next, outcome) →
      ∀ role, pool.canServeRole role now = true → next.canServeRole role now = true := by
  intro claim
  have keeps := claim (.init ["shared", "reserved"] "provider" [("reserved", "pro")])
    ⟨0, none, some "pro"⟩ 503 [1, 0] 5 (by decide +kernel) (by decide +kernel) _ _
    (Option.some_get (by decide +kernel)).symm (some "free") (by decide +kernel)
  revert keeps
  decide +kernel

end Transient

end HybridInference.Keys
