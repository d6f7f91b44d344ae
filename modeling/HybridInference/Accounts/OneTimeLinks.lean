import HybridInference.Library.ListUpdate
import HybridInference.Library.Machine
import Mathlib.Algebra.Order.Ring.Rat
import Mathlib.Data.List.Nodup

/-!
# Links that work once

`reset_password`, `verify_email` and `forgot_password` of
`serving.servers.routers.auth_routes` for one account, with the store methods
they call, each one step. A request stands before one of its store calls, and one
that never goes on has died there.

Tokens are the numbers they were issued under, and a password stands for its
hash. Tokens, sessions and password writes are stamped with the number of
password writes so far, and the world keeps the list of the writes and of the
addresses that were bound; the code reads none of these.
-/

namespace HybridInference.Accounts

open Library

structure LinkSettings where
  /-- Whether `\d` matches the character. -/
  isDecimal : Char → Bool
  /-- `str.strip`. -/
  strip : String → String
  /-- `str.lower`. -/
  lower : String → String
  resetLinkLifetime : ℚ

def validatePasswordStrength (settings : LinkSettings) (password : String) : Option String :=
  if password.length < 8 then some "Password must be at least 8 characters long"
  else if !password.toList.any (fun c => 'A' ≤ c && c ≤ 'Z') then
    some "Password must contain at least one uppercase letter"
  else if !password.toList.any (fun c => 'a' ≤ c && c ≤ 'z') then
    some "Password must contain at least one lowercase letter"
  else if !password.toList.any settings.isDecimal then
    some "Password must contain at least one number"
  else none

structure Account where
  email : Option String
  emailVerified : Bool
  active : Bool
  password : String
  deriving DecidableEq

structure ResetToken where
  token : ℕ
  expiresAt : ℚ
  used : Bool := false
  createdAt : ℕ
  deriving DecidableEq

structure VerificationToken where
  token : ℕ
  expiresAt : ℚ
  used : Bool := false
  pendingEmail : Option String
  deriving DecidableEq

inductive Link where
  | resetPassword (token : ℕ) (newPassword : String)
  | verifyEmail (token : ℕ)
  | forgotPassword (email : String)
  deriving DecidableEq

/-- The store call a request makes next; `wrote` counts the password writes
before its own. -/
inductive LinkStage where
  | checkingReset (token : ℕ) (newPassword : String)
  | writing (row : ResetToken) (newPassword : String)
  | deletingResetTokens (row : ResetToken) (wrote : ℕ)
  | deletingSessions (wrote : ℕ)
  | passwordReset (wrote : ℕ)
  | checkingLink (token : ℕ)
  | readingOwner (row : VerificationToken)
  | repairing
  | readingPrevious (row : VerificationToken) (address : String)
  | binding (row : VerificationToken) (address : String) (previous : Option String)
  | clearingResetTokens (row : VerificationToken) (notice : Option String)
  | verifying (row : VerificationToken)
  | marking (row : VerificationToken) (bound : Bool) (notice : Option String)
  | verified (message : String) (notice : Option String)
  | lookingUp (email : String)
  | findingLive
  | creatingReset
  | mailed (token : Option ℕ)
  | refused (status : ℕ) (detail : String)
  deriving DecidableEq

structure LinkWorld where
  account : Account
  resetTokens : List ResetToken := []
  verificationTokens : List VerificationToken := []
  sessions : List ℕ := []
  issued : ℕ := 0
  writes : List ResetToken := []
  binds : List ℕ := []
  requests : List LinkStage := []
  deriving DecidableEq

namespace LinkWorld

def getResetToken (world : LinkWorld) (token : ℕ) : Option ResetToken :=
  world.resetTokens.find? fun row => row.token = token

def getVerificationToken (world : LinkWorld) (token : ℕ) : Option VerificationToken :=
  world.verificationTokens.find? fun row => row.token = token

/-- `get_live_reset_token`: the unused one that lasts longest, past a time. -/
def getLiveResetToken (world : LinkWorld) (validUntil : ℚ) : Option ResetToken :=
  (world.resetTokens.filter fun row => !row.used && validUntil < row.expiresAt).foldl
    (fun best row =>
      match best with
      | some other => if other.expiresAt < row.expiresAt then some row else best
      | none => some row) none

def createResetToken (world : LinkWorld) (expiresAt : ℚ) : LinkWorld × ℕ :=
  ({ world with
      resetTokens := world.resetTokens ++
        [{ token := world.issued, expiresAt, createdAt := world.writes.length }]
      issued := world.issued + 1 },
    world.issued)

def createVerificationToken (world : LinkWorld) (pendingEmail : Option String)
    (expiresAt : ℚ) : LinkWorld :=
  { world with
    verificationTokens := world.verificationTokens ++
      [{ token := world.issued, expiresAt, pendingEmail }]
    issued := world.issued + 1 }

def markVerificationUsed (world : LinkWorld) (token : ℕ) : LinkWorld :=
  { world with
    verificationTokens := world.verificationTokens.map fun row =>
      if row.token = token then { row with used := true } else row }

def markUserEmailVerified (world : LinkWorld) : LinkWorld :=
  { world with account := { world.account with emailVerified := true } }

/-- `bind_user_email`; another account may have the address. -/
def bindUserEmail (settings : LinkSettings) (world : LinkWorld) (row : VerificationToken)
    (address : String) (taken : Bool) : LinkWorld × Bool :=
  if world.account.active && !taken then
    ({ world with
        account :=
          { world.account with
            email := some (settings.lower (settings.strip address))
            emailVerified := true }
        binds := world.binds ++ [row.token] },
      true)
  else (world, false)

/-- `update_user_fields` with the new password. -/
def writePassword (world : LinkWorld) (row : ResetToken) (newPassword : String) : LinkWorld :=
  { world with
    account := { world.account with password := newPassword }
    writes := world.writes ++ [row] }

end LinkWorld

def alreadyVerified : LinkStage :=
  .verified "Your email has already been verified. You can log in now." none

def Link.begin (settings : LinkSettings) : Link → LinkStage
  | .resetPassword token newPassword =>
    match validatePasswordStrength settings newPassword with
    | some detail => .refused 400 detail
    | none => .checkingReset token newPassword
  | .verifyEmail token => .checkingLink token
  | .forgotPassword email => .lookingUp email

def afterResetToken (now : ℚ) (newPassword : String) : Option ResetToken → LinkStage
  | none => .refused 400 "Invalid or expired reset token."
  | some row =>
    if row.used then .refused 400 "This reset link has already been used."
    else if row.expiresAt < now then
      .refused 400 "Reset link has expired. Please request a new one."
    else .writing row newPassword

def afterVerificationToken (now : ℚ) : Option VerificationToken → LinkStage
  | none => .refused 400 "Invalid verification token."
  | some row =>
    if row.used then .readingOwner row
    else if row.expiresAt < now then
      .refused 400 "Verification token has expired. Please request a new one."
    else
      match row.pendingEmail with
      | some address => .readingPrevious row address
      | none => .verifying row

def afterOwner (now : ℚ) (row : VerificationToken) (account : Account) : LinkStage :=
  match row.pendingEmail with
  | some address =>
    if account.email = some address && account.emailVerified then alreadyVerified
    else .refused 400 "This verification link has already been used."
  | none =>
    if account.emailVerified then alreadyVerified
    else if row.expiresAt < now then
      .refused 400 "Verification token has expired. Please request a new one."
    else .repairing

def LinkStage.call (settings : LinkSettings) (world : LinkWorld) (now : ℚ) (taken : Bool) :
    LinkStage → LinkWorld × LinkStage
  | .checkingReset token newPassword =>
    (world, afterResetToken now newPassword (world.getResetToken token))
  | .writing row newPassword =>
    (world.writePassword row newPassword, .deletingResetTokens row world.writes.length)
  | .deletingResetTokens _ wrote => ({ world with resetTokens := [] }, .deletingSessions wrote)
  | .deletingSessions wrote => ({ world with sessions := [] }, .passwordReset wrote)
  | .checkingLink token =>
    (world, afterVerificationToken now (world.getVerificationToken token))
  | .readingOwner row => (world, afterOwner now row world.account)
  | .repairing => (world.markUserEmailVerified, alreadyVerified)
  | .readingPrevious row address => (world, .binding row address world.account.email)
  | .binding row address previous =>
    let bound := world.bindUserEmail settings row address taken
    (bound.1, if bound.2 then
        .clearingResetTokens row
          (previous.filter fun email => email ≠ "" && settings.lower email ≠ settings.lower address)
      else .refused 409 "Email address cannot be bound to this account.")
  | .clearingResetTokens row notice =>
    ({ world with resetTokens := [] }, .marking row true notice)
  | .verifying row => (world.markUserEmailVerified, .marking row false none)
  | .marking row _ notice =>
    (world.markVerificationUsed row.token,
      .verified "Email verified successfully. You can now generate your API key." notice)
  | .lookingUp email =>
    (world,
      if world.account.email = some (settings.lower email) then .findingLive else .mailed none)
  | .findingLive =>
    (world, match world.getLiveResetToken (now + settings.resetLinkLifetime / 2) with
      | some row => .mailed (some row.token)
      | none => .creatingReset)
  | .creatingReset =>
    let created := world.createResetToken (now + settings.resetLinkLifetime)
    (created.1, .mailed (some created.2))
  | .passwordReset wrote => (world, .passwordReset wrote)
  | .verified message notice => (world, .verified message notice)
  | .mailed token => (world, .mailed token)
  | .refused status detail => (world, .refused status detail)

/-- What can happen: a request arrives or makes a call, someone signs in, a
verification link is issued or withdrawn, an administrator changes the status. -/
inductive LinkEvent where
  | arrive (link : Link)
  | call (id : ℕ) (now : ℚ) (taken : Bool)
  | signIn
  | issueVerification (pendingEmail : Option String) (expiresAt : ℚ)
  | deleteVerificationTokens
  | setActive (active : Bool)
  deriving DecidableEq

def LinkWorld.step (settings : LinkSettings) (world : LinkWorld) : LinkEvent → Option LinkWorld
  | .arrive link => some { world with requests := world.requests ++ [link.begin settings] }
  | .call id now taken =>
    match world.requests[id]? with
    | some stage =>
      let called := stage.call settings world now taken
      some { called.1 with requests := world.requests.set id called.2 }
    | none => none
  | .signIn => some { world with sessions := world.sessions ++ [world.writes.length] }
  | .issueVerification pendingEmail expiresAt =>
    some (world.createVerificationToken pendingEmail expiresAt)
  | .deleteVerificationTokens => some { world with verificationTokens := [] }
  | .setActive active => some { world with account := { world.account with active } }

def linkMachine (settings : LinkSettings) : Machine LinkWorld LinkEvent where
  step := LinkWorld.step settings

def LinkStage.wrote : LinkStage → Option ℕ
  | .deletingResetTokens _ wrote | .deletingSessions wrote | .passwordReset wrote => some wrote
  | _ => none

def LinkStage.cleared : LinkStage → Option ℕ
  | .deletingSessions wrote | .passwordReset wrote => some wrote
  | _ => none

def LinkStage.applied : LinkStage → Option ℕ
  | .deletingResetTokens row _ => some row.token
  | _ => none

def LinkStage.bound : LinkStage → Option ℕ
  | .clearingResetTokens row _ | .marking row true _ => some row.token
  | _ => none

def LinkStage.unspent : LinkStage → Option VerificationToken
  | .readingPrevious row _ | .binding row _ _ => some row
  | _ => none

def LinkWorld.stillHolds (world : LinkWorld) : LinkStage → Bool
  | .writing row _ =>
    world.resetTokens.contains row &&
      !world.requests.any fun other => other.applied = some row.token
  | .binding row _ _ =>
    world.verificationTokens.contains row &&
      !world.requests.any fun other => other.bound = some row.token
  | _ => true

def LinkWorld.Undisturbed (world : LinkWorld) : LinkEvent → Prop
  | .call id _ _ => ∀ stage ∈ world.requests[id]?, world.stillHolds stage = true
  | _ => True

instance LinkWorld.decidableUndisturbed (world : LinkWorld) :
    ∀ event, Decidable (world.Undisturbed event)
  | .call id _ _ =>
    inferInstanceAs (Decidable (∀ stage ∈ world.requests[id]?, world.stillHolds stage = true))
  | .arrive _ | .signIn | .issueVerification _ _ | .deleteVerificationTokens
  | .setActive _ => isTrue trivial

/-- What is kept about password resets: used tokens are gone or about to be deleted, with all older
tokens and sessions. -/
structure ResetKept (world : LinkWorld) : Prop where
  tokens : ∀ row ∈ world.resetTokens, row.token < world.issued
  written : ∀ row ∈ world.writes, row.token < world.issued
  once : (world.writes.map ResetToken.token).Nodup
  spent : ∀ row ∈ world.writes, (∀ other ∈ world.resetTokens, other.token ≠ row.token) ∨
    ∃ (id : ℕ) (stage : LinkStage), world.requests[id]? = some stage ∧
      stage.applied = some row.token
  wrote : ∀ (id : ℕ) stage wrote, world.requests[id]? = some stage →
    stage.wrote = some wrote → wrote < world.writes.length
  cleared : ∀ (id : ℕ) stage wrote, world.requests[id]? = some stage →
    stage.cleared = some wrote → ∀ row ∈ world.resetTokens, wrote < row.createdAt
  ended : ∀ (id wrote : ℕ), world.requests[id]? = some (.passwordReset wrote) →
    ∀ session ∈ world.sessions, wrote < session

/-- What is kept about addresses: a token that bound its address is used or about
to be marked. -/
structure BindKept (world : LinkWorld) : Prop where
  tokens : ∀ row ∈ world.verificationTokens, row.token < world.issued
  bound : ∀ token ∈ world.binds, token < world.issued
  once : world.binds.Nodup
  spent : ∀ token ∈ world.binds,
    (∀ row ∈ world.verificationTokens, row.token = token → row.used = true) ∨
    ∃ (id : ℕ) (stage : LinkStage), world.requests[id]? = some stage ∧ stage.bound = some token
  unspent : ∀ (id : ℕ) stage row, world.requests[id]? = some stage →
    stage.unspent = some row → row.used = false

section Kept

variable {world : LinkWorld} {settings : LinkSettings}

/-- The same requests satisfy `watched` in both worlds. -/
def SameStages (watched : LinkStage → Prop) (world after : LinkWorld) : Prop :=
  ∀ (id : ℕ) stage, watched stage →
    (world.requests[id]? = some stage ↔ after.requests[id]? = some stage)

variable {after : LinkWorld} {old new : LinkStage} {watched : LinkStage → Prop}

theorem SameStages.of_set {id : ℕ} (found : world.requests[id]? = some old)
    (requests : after.requests = world.requests.set id new) (before : ¬ watched old)
    (plain : ¬ watched new) : SameStages watched world after := by
  intro other stage watches
  rw [requests, getElem?_set_of_some found]
  split_ifs with same
  · subst same
    rw [found]
    constructor
    · intro there
      cases there
      exact absurd watches before
    · intro there
      cases there
      exact absurd watches plain
  · exact Iff.rfl

theorem SameStages.of_concat (requests : after.requests = world.requests ++ [new])
    (plain : ¬ watched new) : SameStages watched world after := by
  intro id stage watches
  rw [requests]
  constructor
  · exact getElem?_concat_of_some
  · intro there
    rcases getElem?_concat_cases there with earlier | ⟨-, rfl⟩
    · exact earlier
    · exact absurd watches plain

theorem SameStages.of_eq
    (requests : after.requests = world.requests) : SameStages watched world after := by
  intro id stage _
  rw [requests]

def LinkStage.Writer (stage : LinkStage) : Prop := stage.wrote ≠ none

variable {stage : LinkStage}

theorem LinkStage.writer_of_cleared {wrote : ℕ}
    (cleared : stage.cleared = some wrote) : stage.Writer := by
  cases stage <;> simp_all [LinkStage.cleared, LinkStage.wrote, LinkStage.Writer]

theorem LinkStage.writer_of_applied {token : ℕ}
    (applied : stage.applied = some token) : stage.Writer := by
  cases stage <;> simp_all [LinkStage.applied, LinkStage.wrote, LinkStage.Writer]

theorem ResetKept.idle (kept : ResetKept world) (writers : SameStages LinkStage.Writer world after)
    (tokens : ∀ row ∈ after.resetTokens, row ∈ world.resetTokens ∨
      row.token = world.issued ∧ row.createdAt = world.writes.length ∧ world.issued < after.issued)
    (sessions : ∀ session ∈ after.sessions, session ∈ world.sessions ∨
      session = world.writes.length)
    (writes : after.writes = world.writes) (issued : world.issued ≤ after.issued) :
    ResetKept after where
  tokens := by
    intro row member
    rcases tokens row member with old | ⟨new, -, grows⟩
    · exact (kept.tokens row old).trans_le issued
    · omega
  written := fun row member => (kept.written row (writes ▸ member)).trans_le issued
  once := writes ▸ kept.once
  spent := by
    intro row member
    have earlier := kept.written row (writes ▸ member)
    rcases kept.spent row (writes ▸ member) with gone | ⟨id, stage, there, applied⟩
    · left
      intro other otherMember
      rcases tokens other otherMember with old | ⟨new, -⟩
      · exact gone other old
      · omega
    · exact Or.inr ⟨id, stage, (writers id stage (LinkStage.writer_of_applied applied)).mp there,
        applied⟩
  wrote := by
    intro id stage wrote there writing
    rw [writes]
    exact kept.wrote id stage wrote
      ((writers id stage (by simp [LinkStage.Writer, writing])).mpr there) writing
  cleared := by
    intro id stage wrote there cleared row member
    have before := (writers id stage (LinkStage.writer_of_cleared cleared)).mpr there
    rcases tokens row member with old | ⟨-, new, -⟩
    · exact kept.cleared id stage wrote before cleared row old
    · rw [new]
      apply kept.wrote id stage wrote before
      cases stage <;> simp_all [LinkStage.cleared, LinkStage.wrote]
  ended := by
    intro id wrote there session member
    have before := (writers id _ (by simp [LinkStage.Writer, LinkStage.wrote])).mpr there
    rcases sessions session member with old | new
    · exact kept.ended id wrote before session old
    · rw [new]
      exact kept.wrote id _ wrote before rfl

theorem ResetKept.write (kept : ResetKept world) {id : ℕ} {row : ResetToken}
    {newPassword : String} (found : world.requests[id]? = some (.writing row newPassword))
    (holds : world.stillHolds (.writing row newPassword) = true) :
    ResetKept
      { world.writePassword row newPassword with
        requests := world.requests.set id (.deletingResetTokens row world.writes.length) } := by
  simp only [LinkWorld.stillHolds, Bool.and_eq_true, List.contains_iff_mem, Bool.not_eq_true',
    List.any_eq_false, decide_eq_true_eq] at holds
  rcases holds with ⟨member, alone⟩
  have fresh : row.token ∉ world.writes.map ResetToken.token := by
    intro again
    rcases List.mem_map.mp again with ⟨earlier, written, same⟩
    rcases kept.spent earlier written with gone | ⟨other, stage, there, applied⟩
    · exact gone row member same.symm
    · exact alone stage (List.mem_of_getElem? there) (same ▸ applied)
  have others {other : ℕ} {stage : LinkStage} (there : (world.requests.set id
      (.deletingResetTokens row world.writes.length))[other]? = some stage) :
      stage = .deletingResetTokens row world.writes.length ∨
        world.requests[other]? = some stage := by
    rw [getElem?_set_of_some found] at there
    split_ifs at there
    · exact Or.inl (Option.some.inj there).symm
    · exact Or.inr there
  refine ⟨kept.tokens, ?_, ?_, ?_, ?_, ?_, ?_⟩
  · intro other otherMember
    rcases List.mem_append.mp otherMember with old | new
    · exact kept.written other old
    · rw [List.mem_singleton.mp new]
      exact kept.tokens row member
  · simp only [LinkWorld.writePassword, List.map_append, List.map_cons, List.map_nil]
    apply List.nodup_append.mpr
    refine ⟨kept.once, by simp, ?_⟩
    intro earlier earlierMember last lastMember same
    rw [List.mem_singleton.mp lastMember] at same
    exact fresh (same ▸ earlierMember)
  · intro other otherMember
    rcases List.mem_append.mp otherMember with old | new
    · rcases kept.spent other old with gone | ⟨holder, stage, there, applied⟩
      · exact Or.inl gone
      · right
        refine ⟨holder, stage, ?_, applied⟩
        dsimp only
        rw [getElem?_set_of_some found]
        split_ifs with same
        · subst same
          rw [found, Option.some.injEq] at there
          subst there
          simp [LinkStage.applied] at applied
        · exact there
    · right
      rw [List.mem_singleton.mp new]
      refine ⟨id, .deletingResetTokens row world.writes.length, ?_, rfl⟩
      dsimp only
      rw [getElem?_set_of_some found, if_pos rfl]
  · intro other stage wrote there writing
    simp only [LinkWorld.writePassword, List.length_append, List.length_singleton]
    rcases others there with rfl | old
    · cases writing
      omega
    · have below := kept.wrote other stage wrote old writing
      omega
  · intro other stage wrote there cleared
    rcases others there with rfl | old
    · simp [LinkStage.cleared] at cleared
    · exact kept.cleared other stage wrote old cleared
  · intro other wrote there
    rcases others there with impossible | old
    · simp at impossible
    · exact kept.ended other wrote old

theorem ResetKept.clear (kept : ResetKept world) {id wrote : ℕ}
    (found : world.requests[id]? = some old)
    (requests : after.requests = world.requests.set id new) (wroteOld : old.wrote = some wrote)
    (wroteNew : new.wrote = some wrote) (tokens : after.resetTokens ⊆ world.resetTokens)
    (sessions : after.sessions ⊆ world.sessions) (writes : after.writes = world.writes)
    (issued : after.issued = world.issued) (applied : old.applied ≠ none → after.resetTokens = [])
    (cleared : ∀ row ∈ after.resetTokens, wrote < row.createdAt)
    (ended : new = .passwordReset wrote → after.sessions = []) : ResetKept after := by
  have others {other : ℕ} {stage : LinkStage} (there : after.requests[other]? = some stage) :
      stage = new ∨ world.requests[other]? = some stage := by
    rw [requests, getElem?_set_of_some found] at there
    split_ifs at there
    · exact Or.inl (Option.some.inj there).symm
    · exact Or.inr there
  refine ⟨?_, ?_, writes ▸ kept.once, ?_, ?_, ?_, ?_⟩
  · intro row member
    rw [issued]
    exact kept.tokens row (tokens member)
  · intro row member
    rw [issued]
    exact kept.written row (writes ▸ member)
  · intro row member
    rcases kept.spent row (writes ▸ member) with gone | ⟨other, stage, there, holds⟩
    · exact Or.inl fun kept keptMember => gone kept (tokens keptMember)
    · by_cases same : id = other
      · subst same
        rw [found, Option.some.injEq] at there
        subst there
        left
        rw [applied (by simp [holds])]
        simp
      · right
        refine ⟨other, stage, ?_, holds⟩
        rw [requests, getElem?_set_of_some found, if_neg same]
        exact there
  · intro other stage otherWrote there writing
    rw [writes]
    rcases others there with rfl | earlier
    · rw [wroteNew] at writing
      exact kept.wrote id old otherWrote found (wroteOld.trans writing)
    · exact kept.wrote other stage otherWrote earlier writing
  · intro other stage otherWrote there isCleared row member
    rcases others there with rfl | earlier
    · have same : stage.wrote = some otherWrote := by
        cases stage <;> simp_all [LinkStage.cleared, LinkStage.wrote]
      rw [wroteNew, Option.some.injEq] at same
      exact same ▸ cleared row member
    · exact kept.cleared other stage otherWrote earlier isCleared row (tokens member)
  · intro other otherWrote there session member
    rcases others there with isNew | earlier
    · have same : some otherWrote = some wrote := by
        rw [← wroteNew, ← isNew]
        rfl
      cases same
      rw [ended isNew.symm] at member
      simp at member
    · exact kept.ended other otherWrote earlier session (sessions member)

structure LinkStage.Idle (stage : LinkStage) : Prop where
  wrote : stage.wrote = none
  bound : stage.bound = none

theorem LinkStage.Idle.not_writer (idle : stage.Idle) : ¬ stage.Writer := by
  simp [LinkStage.Writer, idle.wrote]

theorem idle_afterResetToken (now : ℚ) (newPassword : String) (row : Option ResetToken) :
    (afterResetToken now newPassword row).Idle := by
  unfold afterResetToken
  split
  · exact ⟨rfl, rfl⟩
  · split_ifs
    · exact ⟨rfl, rfl⟩
    · exact ⟨rfl, rfl⟩
    · exact ⟨rfl, rfl⟩

theorem idle_afterVerificationToken (now : ℚ) (row : Option VerificationToken) :
    (afterVerificationToken now row).Idle := by
  unfold afterVerificationToken
  split
  · exact ⟨rfl, rfl⟩
  · split_ifs
    · exact ⟨rfl, rfl⟩
    · exact ⟨rfl, rfl⟩
    · split
      · exact ⟨rfl, rfl⟩
      · exact ⟨rfl, rfl⟩

theorem idle_afterOwner (now : ℚ) (row : VerificationToken) (account : Account) :
    (afterOwner now row account).Idle := by
  unfold afterOwner
  split
  · split_ifs
    · exact ⟨rfl, rfl⟩
    · exact ⟨rfl, rfl⟩
  · split_ifs
    · exact ⟨rfl, rfl⟩
    · exact ⟨rfl, rfl⟩
    · exact ⟨rfl, rfl⟩

theorem idle_begin (link : Link) : (link.begin settings).Idle := by
  unfold Link.begin
  split
  · split
    · exact ⟨rfl, rfl⟩
    · exact ⟨rfl, rfl⟩
  · exact ⟨rfl, rfl⟩
  · exact ⟨rfl, rfl⟩

theorem ResetKept.move (kept : ResetKept world) {id : ℕ} (found : world.requests[id]? = some old)
    (requests : after.requests = world.requests.set id new) (before : old.wrote = none)
    (plain : new.wrote = none) (tokens : after.resetTokens ⊆ world.resetTokens)
    (sessions : after.sessions = world.sessions) (writes : after.writes = world.writes)
    (issued : after.issued = world.issued) : ResetKept after := by
  have writers : SameStages LinkStage.Writer world after :=
    .of_set found requests (by simp [LinkStage.Writer, before]) (by simp [LinkStage.Writer, plain])
  refine kept.idle writers (fun row member => Or.inl (tokens member)) ?_ writes issued.ge
  intro session member
  exact Or.inl (sessions ▸ member)

theorem bindUserEmail_cases (settings : LinkSettings) (world : LinkWorld)
    (row : VerificationToken) (address : String) (taken : Bool) :
    world.bindUserEmail settings row address taken =
        ({ world with
            account :=
              { world.account with
                email := some (settings.lower (settings.strip address))
                emailVerified := true }
            binds := world.binds ++ [row.token] },
          true) ∨
      world.bindUserEmail settings row address taken = (world, false) := by
  unfold LinkWorld.bindUserEmail
  split
  · exact Or.inl rfl
  · exact Or.inr rfl

variable {now : ℚ} {taken : Bool}

theorem ResetKept.call (kept : ResetKept world) {id : ℕ}
    (found : world.requests[id]? = some stage) (holds : world.stillHolds stage = true) :
    ResetKept
      { (stage.call settings world now taken).1 with
        requests := world.requests.set id (stage.call settings world now taken).2 } := by
  have same : world.resetTokens ⊆ world.resetTokens := List.Subset.refl _
  cases stage with
  | writing row newPassword => exact kept.write found holds
  | deletingResetTokens row wrote =>
    exact kept.clear found rfl rfl rfl (by simp [LinkStage.call]) (List.Subset.refl _) rfl rfl
      (fun _ => rfl) (by simp [LinkStage.call]) (by simp [LinkStage.call])
  | deletingSessions wrote =>
    exact kept.clear found rfl rfl rfl same (by simp [LinkStage.call]) rfl rfl
      (by simp [LinkStage.applied]) (kept.cleared id _ wrote found rfl) (fun _ => rfl)
  | passwordReset wrote =>
    dsimp only [LinkStage.call]
    rw [set_eq_self_of_some found]
    exact kept
  | checkingReset token newPassword =>
    exact kept.move found rfl rfl (idle_afterResetToken now newPassword _).wrote same rfl rfl rfl
  | checkingLink token =>
    exact kept.move found rfl rfl (idle_afterVerificationToken now _).wrote same rfl rfl rfl
  | readingOwner row =>
    exact kept.move found rfl rfl (idle_afterOwner now row _).wrote same rfl rfl rfl
  | repairing | readingPrevious row address | verifying row | marking row bound notice
  | verified message notice | mailed token | refused status detail =>
    exact kept.move found rfl rfl rfl same rfl rfl rfl
  | binding row address previous =>
    rcases bindUserEmail_cases settings world row address taken with bound | refused
    · simp only [LinkStage.call, bound, if_true]
      exact kept.move found rfl rfl rfl same rfl rfl rfl
    · simp only [LinkStage.call, refused, Bool.false_eq_true, if_false]
      exact kept.move found rfl rfl rfl same rfl rfl rfl
  | clearingResetTokens row notice =>
    exact kept.move found rfl rfl rfl (by simp [LinkStage.call]) rfl rfl rfl
  | lookingUp email =>
    dsimp only [LinkStage.call]
    split_ifs <;> exact kept.move found rfl rfl rfl same rfl rfl rfl
  | findingLive =>
    dsimp only [LinkStage.call]
    split <;> exact kept.move found rfl rfl rfl same rfl rfl rfl
  | creatingReset =>
    refine kept.idle (.of_set found rfl (by simp [LinkStage.Writer, LinkStage.wrote])
      (by simp [LinkStage.call, LinkStage.Writer, LinkStage.wrote])) ?_
      (fun session member => Or.inl member) rfl (Nat.le_succ _)
    intro row member
    rcases List.mem_append.mp member with old | new
    · exact Or.inl old
    · rw [List.mem_singleton.mp new]
      exact Or.inr ⟨rfl, rfl, Nat.lt_succ_self _⟩

/-- One undisturbed step keeps what is kept about password resets. -/
theorem ResetKept.step (kept : ResetKept world) {event : LinkEvent} {next : LinkWorld}
    (undisturbed : world.Undisturbed event)
    (stepped : (linkMachine settings).step world event = some next) : ResetKept next := by
  cases event with
  | arrive link =>
    cases stepped
    exact kept.idle (.of_concat rfl (idle_begin link).not_writer)
      (fun _ member => Or.inl member) (fun _ member => Or.inl member) rfl le_rfl
  | call id now taken =>
    simp only [linkMachine, LinkWorld.step] at stepped
    split at stepped
    · next stage found =>
        cases stepped
        exact kept.call found (undisturbed stage found)
    · simp at stepped
  | signIn =>
    cases stepped
    refine kept.idle (.of_eq rfl) (fun _ member => Or.inl member) ?_ rfl le_rfl
    intro session member
    simpa using member
  | issueVerification pendingEmail expiresAt =>
    cases stepped
    exact kept.idle (.of_eq rfl) (fun _ member => Or.inl member)
      (fun _ member => Or.inl member) rfl (Nat.le_succ _)
  | deleteVerificationTokens | setActive active =>
    cases stepped
    exact kept.idle (.of_eq rfl) (fun _ member => Or.inl member)
      (fun _ member => Or.inl member) rfl le_rfl

def LinkStage.Binder (stage : LinkStage) : Prop :=
  stage.bound ≠ none ∨ stage.unspent ≠ none

theorem BindKept.idle (kept : BindKept world) (binders : SameStages LinkStage.Binder world after)
    (tokens : ∀ row ∈ after.verificationTokens, row ∈ world.verificationTokens ∨
      row.token = world.issued ∧ world.issued < after.issued)
    (binds : after.binds = world.binds) (issued : world.issued ≤ after.issued) :
    BindKept after where
  tokens := by
    intro row member
    rcases tokens row member with old | ⟨new, grows⟩
    · exact (kept.tokens row old).trans_le issued
    · omega
  bound := fun token member => (kept.bound token (binds ▸ member)).trans_le issued
  once := binds ▸ kept.once
  spent := by
    intro token member
    have earlier := kept.bound token (binds ▸ member)
    rcases kept.spent token (binds ▸ member) with used | ⟨id, stage, there, bound⟩
    · left
      intro row rowMember same
      rcases tokens row rowMember with old | ⟨new, -⟩
      · exact used row old same
      · omega
    · exact Or.inr ⟨id, stage, (binders id stage (Or.inl (by simp [bound]))).mp there, bound⟩
  unspent := by
    intro id stage row there unspent
    exact kept.unspent id stage row
      ((binders id stage (Or.inr (by simp [unspent]))).mpr there) unspent

theorem BindKept.move (kept : BindKept world) {id : ℕ} (found : world.requests[id]? = some old)
    (requests : after.requests = world.requests.set id new) (before : old.bound = none)
    (unspent : ∀ row, new.unspent = some row → row.used = false)
    (tokens : after.verificationTokens = world.verificationTokens)
    (binds : after.binds = world.binds) (issued : world.issued ≤ after.issued) :
    BindKept after where
  tokens := fun row member => (kept.tokens row (tokens ▸ member)).trans_le issued
  bound := fun token member => (kept.bound token (binds ▸ member)).trans_le issued
  once := binds ▸ kept.once
  spent := by
    intro token member
    rcases kept.spent token (binds ▸ member) with used | ⟨other, stage, there, bound⟩
    · exact Or.inl (tokens ▸ used)
    · right
      refine ⟨other, stage, ?_, bound⟩
      rw [requests, getElem?_set_of_some found]
      split_ifs with same
      · subst same
        rw [found, Option.some.injEq] at there
        subst there
        simp [before] at bound
      · exact there
  unspent := by
    intro other stage row there isUnspent
    rw [requests, getElem?_set_of_some found] at there
    split_ifs at there
    · cases there
      exact unspent row isUnspent
    · exact kept.unspent other stage row there isUnspent

theorem BindKept.bind (kept : BindKept world) {id : ℕ}
    {row : VerificationToken} {address : String} {previous notice : Option String}
    (found : world.requests[id]? = some (.binding row address previous))
    (holds : world.stillHolds (.binding row address previous) = true)
    (requests : after.requests = world.requests.set id (.clearingResetTokens row notice))
    (tokens : after.verificationTokens = world.verificationTokens)
    (binds : after.binds = world.binds ++ [row.token]) (issued : after.issued = world.issued) :
    BindKept after := by
  simp only [LinkWorld.stillHolds, Bool.and_eq_true, List.contains_iff_mem, Bool.not_eq_true',
    List.any_eq_false, decide_eq_true_eq] at holds
  rcases holds with ⟨member, alone⟩
  have fresh : row.token ∉ world.binds := by
    intro again
    rcases kept.spent row.token again with used | ⟨other, stage, there, bound⟩
    · have spent := used row member rfl
      rw [kept.unspent id _ row found rfl] at spent
      simp at spent
    · exact alone stage (List.mem_of_getElem? there) bound
  refine ⟨?_, ?_, ?_, ?_, ?_⟩
  · rw [tokens, issued]
    exact kept.tokens
  · rw [binds, issued]
    intro token tokenMember
    rcases List.mem_append.mp tokenMember with old | new
    · exact kept.bound token old
    · rw [List.mem_singleton.mp new]
      exact kept.tokens row member
  · rw [binds]
    apply List.nodup_append.mpr
    refine ⟨kept.once, by simp, ?_⟩
    intro earlier earlierMember last lastMember same
    rw [List.mem_singleton.mp lastMember] at same
    exact fresh (same ▸ earlierMember)
  · rw [binds, tokens]
    intro token tokenMember
    rcases List.mem_append.mp tokenMember with old | new
    · rcases kept.spent token old with used | ⟨other, stage, there, bound⟩
      · exact Or.inl used
      · right
        refine ⟨other, stage, ?_, bound⟩
        rw [requests, getElem?_set_of_some found]
        split_ifs with same
        · subst same
          rw [found, Option.some.injEq] at there
          subst there
          simp [LinkStage.bound] at bound
        · exact there
    · right
      rw [List.mem_singleton.mp new]
      refine ⟨id, .clearingResetTokens row notice, ?_, rfl⟩
      rw [requests, getElem?_set_of_some found, if_pos rfl]
  · intro other stage unspentRow there isUnspent
    rw [requests, getElem?_set_of_some found] at there
    split_ifs at there
    · cases there
      simp [LinkStage.unspent] at isUnspent
    · exact kept.unspent other stage unspentRow there isUnspent

theorem BindKept.spend (kept : BindKept world) {id : ℕ} (found : world.requests[id]? = some old)
    (requests : after.requests = world.requests.set id new) (plain : new.unspent = none)
    (tokens : ∀ row ∈ after.verificationTokens, ∃ earlier ∈ world.verificationTokens,
      earlier.token = row.token ∧ (earlier.used = true → row.used = true))
    (binds : after.binds = world.binds) (issued : after.issued = world.issued)
    (spent : ∀ token, old.bound = some token → new.bound = some token ∨
      ∀ row ∈ after.verificationTokens, row.token = token → row.used = true) :
    BindKept after := by
  refine ⟨?_, ?_, binds ▸ kept.once, ?_, ?_⟩
  · intro row member
    rcases tokens row member with ⟨earlier, earlierMember, same, -⟩
    rw [issued, ← same]
    exact kept.tokens earlier earlierMember
  · rw [binds, issued]
    exact kept.bound
  · intro token member
    rcases kept.spent token (binds ▸ member) with used | ⟨other, stage, there, bound⟩
    · left
      intro row rowMember same
      rcases tokens row rowMember with ⟨earlier, earlierMember, sameToken, stays⟩
      exact stays (used earlier earlierMember (sameToken.trans same))
    · by_cases same : id = other
      · subst same
        rw [found, Option.some.injEq] at there
        subst there
        rcases spent token bound with still | marked
        · right
          refine ⟨id, new, ?_, still⟩
          rw [requests, getElem?_set_of_some found, if_pos rfl]
        · exact Or.inl marked
      · right
        refine ⟨other, stage, ?_, bound⟩
        rw [requests, getElem?_set_of_some found, if_neg same]
        exact there
  · intro other stage row there unspent
    rw [requests, getElem?_set_of_some found] at there
    split_ifs at there
    · cases there
      simp [plain] at unspent
    · exact kept.unspent other stage row there unspent

theorem unspent_afterVerificationToken {row : Option VerificationToken} {found : VerificationToken}
    (unspent : (afterVerificationToken now row).unspent = some found) : found.used = false := by
  unfold afterVerificationToken at unspent
  split at unspent
  · simp [LinkStage.unspent] at unspent
  · next other =>
      split_ifs at unspent with used
      · simp [LinkStage.unspent] at unspent
      · simp [LinkStage.unspent] at unspent
      · split at unspent
        · simp only [LinkStage.unspent, Option.some.injEq] at unspent
          subst unspent
          simpa using used
        · simp [LinkStage.unspent] at unspent

theorem unspent_afterOwner (row : VerificationToken) (account : Account) :
    (afterOwner now row account).unspent = none := by
  unfold afterOwner
  split <;> split_ifs <;> rfl

theorem unspent_afterResetToken (newPassword : String) (row : Option ResetToken) :
    (afterResetToken now newPassword row).unspent = none := by
  unfold afterResetToken
  split
  · rfl
  · split_ifs <;> rfl

theorem BindKept.call (kept : BindKept world) {id : ℕ}
    (found : world.requests[id]? = some stage) (holds : world.stillHolds stage = true) :
    BindKept
      { (stage.call settings world now taken).1 with
        requests := world.requests.set id (stage.call settings world now taken).2 } := by
  have none {stage : LinkStage} (plain : stage.unspent = none) (row : VerificationToken)
      (unspent : stage.unspent = some row) : row.used = false := by
    simp [plain] at unspent
  cases stage with
  | binding row address previous =>
    rcases bindUserEmail_cases settings world row address taken with bound | refused
    · simp only [LinkStage.call, bound, if_true]
      exact kept.bind found holds rfl rfl rfl rfl
    · simp only [LinkStage.call, refused, Bool.false_eq_true, if_false]
      exact kept.move found rfl rfl (none rfl) rfl rfl le_rfl
  | clearingResetTokens row notice =>
    refine kept.spend found rfl rfl ?_ rfl rfl (fun token bound => Or.inl bound)
    intro other member
    exact ⟨other, member, rfl, fun used => used⟩
  | marking row bound notice =>
    refine kept.spend found rfl rfl ?_ rfl rfl ?_
    · intro other member
      rcases List.mem_map.mp member with ⟨earlier, earlierMember, rfl⟩
      refine ⟨earlier, earlierMember, ?_, ?_⟩
      · split_ifs <;> rfl
      · intro used
        split_ifs
        · rfl
        · exact used
    · intro token isBound
      right
      intro other member same
      have marks : row.token = token := by
        cases bound <;> simp_all [LinkStage.bound]
      rcases List.mem_map.mp member with ⟨earlier, -, rfl⟩
      split_ifs at same ⊢ with matches'
      · rfl
      · exact absurd (same.trans marks.symm) matches'
  | checkingLink token =>
    exact kept.move found rfl rfl (fun row => unspent_afterVerificationToken) rfl rfl le_rfl
  | readingPrevious row address =>
    refine kept.move found rfl rfl ?_ rfl rfl le_rfl
    intro other unspent
    exact kept.unspent id _ other found unspent
  | checkingReset token newPassword =>
    exact kept.move found rfl rfl (none (unspent_afterResetToken newPassword _)) rfl rfl le_rfl
  | readingOwner row =>
    exact kept.move found rfl rfl (none (unspent_afterOwner row _)) rfl rfl le_rfl
  | writing row newPassword | deletingResetTokens row wrote | deletingSessions wrote
  | passwordReset wrote | repairing | verifying row | verified message notice | mailed token
  | refused status detail =>
    exact kept.move found rfl rfl (none rfl) rfl rfl le_rfl
  | lookingUp email =>
    dsimp only [LinkStage.call]
    split_ifs <;> exact kept.move found rfl rfl (none rfl) rfl rfl le_rfl
  | findingLive =>
    dsimp only [LinkStage.call]
    split <;> exact kept.move found rfl rfl (none rfl) rfl rfl le_rfl
  | creatingReset => exact kept.move found rfl rfl (none rfl) rfl rfl (Nat.le_succ _)

theorem not_binder_begin (link : Link) : ¬ (link.begin settings).Binder := by
  unfold Link.begin LinkStage.Binder
  split
  · split <;> simp [LinkStage.bound, LinkStage.unspent]
  · simp [LinkStage.bound, LinkStage.unspent]
  · simp [LinkStage.bound, LinkStage.unspent]

/-- One undisturbed step keeps what is kept about addresses. -/
theorem BindKept.step (kept : BindKept world) {event : LinkEvent} {next : LinkWorld}
    (undisturbed : world.Undisturbed event)
    (stepped : (linkMachine settings).step world event = some next) : BindKept next := by
  cases event with
  | arrive link =>
    cases stepped
    exact kept.idle (.of_concat rfl (not_binder_begin link)) (fun _ member => Or.inl member)
      rfl le_rfl
  | call id now taken =>
    simp only [linkMachine, LinkWorld.step] at stepped
    split at stepped
    · next stage found =>
        cases stepped
        exact kept.call found (undisturbed stage found)
    · simp at stepped
  | signIn | setActive active =>
    cases stepped
    exact kept.idle (.of_eq rfl) (fun _ member => Or.inl member) rfl le_rfl
  | issueVerification pendingEmail expiresAt =>
    cases stepped
    refine kept.idle (.of_eq rfl) ?_ rfl (Nat.le_succ _)
    intro row member
    rcases List.mem_append.mp member with old | new
    · exact Or.inl old
    · rw [List.mem_singleton.mp new]
      exact Or.inr ⟨rfl, Nat.lt_succ_self _⟩
  | deleteVerificationTokens =>
    cases stepped
    exact kept.idle (.of_eq rfl) (by simp) rfl le_rfl

end Kept

section Runs

variable {world : LinkWorld} {settings : LinkSettings}

theorem resetKept_start (account : Account) : ResetKept { account } := by
  constructor <;> simp

theorem bindKept_start (account : Account) : BindKept { account } := by
  constructor <;> simp

/-- Only a request that is about to write writes a password. -/
theorem writes_of_step {event : LinkEvent} {next : LinkWorld}
    (stepped : (linkMachine settings).step world event = some next) :
    (next.writes = world.writes ∨
      ∃ (id : ℕ) (row : ResetToken) (newPassword : String) (now : ℚ) (taken : Bool),
        event = .call id now taken ∧ world.requests[id]? = some (.writing row newPassword) ∧
        next.writes = world.writes ++ [row]) ∧
    ∀ (id wrote : ℕ), world.requests[id]? = some (.passwordReset wrote) →
      next.requests[id]? = some (.passwordReset wrote) := by
  cases event with
  | arrive link =>
    cases stepped
    exact ⟨Or.inl rfl, fun _ _ there => getElem?_concat_of_some there⟩
  | call id now taken =>
    simp only [linkMachine, LinkWorld.step] at stepped
    split at stepped
    · next stage found =>
        cases stepped
        constructor
        · cases stage with
          | writing row newPassword =>
            exact Or.inr ⟨id, row, newPassword, now, taken, rfl, found, rfl⟩
          | binding row address previous =>
            left
            rcases bindUserEmail_cases settings world row address taken with bound | refused
            · simp only [LinkStage.call, bound]
            · simp only [LinkStage.call, refused]
          | _ => exact Or.inl rfl
        · intro other wrote there
          rw [getElem?_set_of_some found]
          split_ifs with same
          · subst same
            rw [found, Option.some.injEq] at there
            subst there
            rfl
          · exact there
    · simp at stepped
  | signIn | issueVerification pendingEmail expiresAt | deleteVerificationTokens
  | setActive active =>
    cases stepped
    exact ⟨Or.inl rfl, fun _ _ there => there⟩

/-- What a returned reset leaves behind: the passwords written after it came with
tokens issued after its own write. -/
structure AfterReset (writes id wrote : ℕ) (later : LinkWorld) : Prop where
  kept : ResetKept later
  returned : later.requests[id]? = some (.passwordReset wrote)
  later : ∀ (index : ℕ) row, writes ≤ index → later.writes[index]? = some row →
    wrote < row.createdAt

theorem AfterReset.step {writes id wrote : ℕ} {later next : LinkWorld} {event : LinkEvent}
    (after : AfterReset writes id wrote later) (undisturbed : later.Undisturbed event)
    (stepped : (linkMachine settings).step later event = some next) :
    AfterReset writes id wrote next := by
  rcases writes_of_step stepped with ⟨written, stays⟩
  refine ⟨after.kept.step undisturbed stepped, stays id wrote after.returned, ?_⟩
  intro index row past there
  rcases written with same | ⟨writer, token, newPassword, now, taken, rfl, found, more⟩
  · rw [same] at there
    exact after.later index row past there
  · rw [more] at there
    rcases getElem?_concat_cases there with earlier | ⟨-, rfl⟩
    · exact after.later index row past earlier
    · have holds := undisturbed _ found
      simp only [LinkWorld.stillHolds, Bool.and_eq_true, List.contains_iff_mem] at holds
      exact after.kept.cleared id _ wrote after.returned rfl row holds.1

/-- Links that work once, in every run whose requests act on what still holds; a reset leaves only
the sessions opened after it. -/
theorem one_time_links_apply_once {account : Account} {events : List LinkEvent}
    (along : (linkMachine settings).Along LinkWorld.Undisturbed { account } events)
    (ran : (linkMachine settings).run { account } events = some world) :
    (world.writes.map ResetToken.token).Nodup ∧ world.binds.Nodup ∧
    ∀ (id wrote : ℕ), world.requests[id]? = some (.passwordReset wrote) →
      ∀ more later, (linkMachine settings).Along LinkWorld.Undisturbed world more →
        (linkMachine settings).run world more = some later →
        (∀ session ∈ later.sessions, wrote < session) ∧
        ∀ (index : ℕ) row, world.writes.length ≤ index → later.writes[index]? = some row →
          wrote < row.createdAt := by
  have resets : ResetKept world := Machine.run_invariant_along LinkWorld.Undisturbed
    (fun _ _ _ kept undisturbed stepped => kept.step undisturbed stepped)
    (resetKept_start account) along ran
  have binds : BindKept world := Machine.run_invariant_along LinkWorld.Undisturbed
    (fun _ _ _ kept undisturbed stepped => kept.step undisturbed stepped)
    (bindKept_start account) along ran
  refine ⟨resets.once, binds.once, ?_⟩
  intro id wrote returned more later alongMore ranMore
  have none : ∀ (index : ℕ) row, world.writes.length ≤ index → world.writes[index]? = some row →
      wrote < row.createdAt := by
    intro index row past there
    have inside := (List.getElem?_eq_some_iff.mp there).1
    omega
  have after : AfterReset world.writes.length id wrote later :=
    Machine.run_invariant_along LinkWorld.Undisturbed
      (fun _ _ _ after undisturbed stepped => after.step undisturbed stepped)
      ⟨resets, returned, none⟩ alongMore ranMore
  exact ⟨after.kept.ended id wrote after.returned, after.later⟩

def plainLinks : LinkSettings where
  isDecimal := Char.isDigit
  strip := id
  lower := id
  resetLinkLifetime := 3600

def annStart : LinkWorld := { account := ⟨some "ann@here.org", true, true, "old"⟩ }

def annReset : LinkWorld where
  account := ⟨some "ann@here.org", true, true, "Secret01"⟩
  issued := 1
  writes := [⟨0, 3600, false, 0⟩]
  requests := [.mailed (some 0), .passwordReset 0]

/-- A link is mailed and then used, by the requests from `id` on. -/
def resetAfterMail (id link : ℕ) (password : String) (calls : ℕ) : List LinkEvent :=
  [.signIn, .arrive (.forgotPassword "ann@here.org")] ++ List.replicate 3 (.call id 0 false) ++
    [.arrive (.resetPassword link password)] ++ List.replicate calls (.call (id + 1) 0 false)

/-- Two resets, one after the other, each with the link that was mailed for it:
the second password comes with a token issued after the first was written. -/
theorem one_time_links_apply_once_two_resets : ∃ world later row,
      (linkMachine plainLinks).run annStart (resetAfterMail 0 0 "Secret01" 4) = some world ∧
      (linkMachine plainLinks).run world (resetAfterMail 2 1 "Secret02" 2) = some later ∧
      later.writes[1]? = some row ∧ 0 < row.createdAt := by
  have along : (linkMachine plainLinks).Along LinkWorld.Undisturbed annStart
      (resetAfterMail 0 0 "Secret01" 4) := by
    decide +kernel
  have first : (linkMachine plainLinks).run annStart (resetAfterMail 0 0 "Secret01" 4) =
      some annReset := by
    decide +kernel
  have alongMore : (linkMachine plainLinks).Along LinkWorld.Undisturbed annReset
      (resetAfterMail 2 1 "Secret02" 2) := by
    decide +kernel
  have second : ((linkMachine plainLinks).run annReset
      (resetAfterMail 2 1 "Secret02" 2)).map LinkWorld.writes =
      some [⟨0, 3600, false, 0⟩, ⟨1, 3600, false, 1⟩] := by
    decide +kernel
  rcases Option.map_eq_some_iff.mp second with ⟨later, ranMore, writes⟩
  have last : later.writes[1]? = some ⟨1, 3600, false, 1⟩ := by
    simp [writes]
  refine ⟨_, later, _, first, ranMore, last, ?_⟩
  exact ((one_time_links_apply_once along first).2.2 1 0 rfl _ later alongMore ranMore).2
    1 _ le_rfl last

/-- Two requests with one reset link, and two with one email link, both pass the check, and the
second takes effect after the first has returned. -/
theorem one_time_links_applied_twice : ((linkMachine plainLinks).run annStart
        ([LinkEvent.arrive (.forgotPassword "ann@here.org")] ++
          List.replicate 3 (LinkEvent.call 0 0 false) ++
          [LinkEvent.arrive (.resetPassword 0 "Secret01"),
            LinkEvent.arrive (.resetPassword 0 "Secret02"),
            LinkEvent.call 1 0 false, LinkEvent.call 2 0 false] ++
          List.replicate 3 (LinkEvent.call 1 0 false) ++ [LinkEvent.call 2 0 false])).map
        (fun world => (world.account.password, world.writes.map ResetToken.token,
          world.requests[1]?)) =
      some ("Secret02", [0, 0], some (.passwordReset 0)) ∧
    ((linkMachine plainLinks).run annStart
        ([LinkEvent.issueVerification (some "ann@new.org") 100, LinkEvent.arrive (.verifyEmail 0),
            LinkEvent.arrive (.verifyEmail 0)] ++
          List.replicate 2 (LinkEvent.call 0 0 false) ++
            List.replicate 2 (LinkEvent.call 1 0 false) ++
          List.replicate 3 (LinkEvent.call 0 0 false) ++
          [LinkEvent.issueVerification (some "ann@newer.org") 100,
            LinkEvent.arrive (.verifyEmail 1)] ++
          List.replicate 5 (LinkEvent.call 2 0 false) ++ [LinkEvent.call 1 0 false])).map
        (fun world => (world.account.email, world.binds)) =
      some (some "ann@new.org", [0, 1, 0]) := by
  decide +kernel

end Runs

end HybridInference.Accounts
