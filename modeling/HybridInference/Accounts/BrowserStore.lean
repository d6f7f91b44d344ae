import HybridInference.Library.ListUpdate
import Mathlib.Algebra.Order.Ring.Rat
import Mathlib.Data.List.Nodup

/-!
# The tables of browser sessions

`browser_sessions`, `browser_session_accounts` and `auth_sessions` with the store
methods of `serving.storage.postgres_operational` on them, each one transaction.
Rows are named by their position, and the accounts of a browser stand in its row.

A cookie value stands for its own hash. New values are the next numbers, so no
value is drawn twice. A browser row remembers the legacy cookie it was upgraded
from, and the store the cookie values that were replaced; the code reads neither.
-/

namespace HybridInference.Accounts

open Library

def maxAccountsPerBrowser : ℕ := 5

structure AuthSession where
  userId : String
  refreshTokenHash : ℕ
  expiresAt : ℚ
  revoked : Bool := false
  deriving DecidableEq

structure AttachedAccount where
  userId : String
  authSessionId : ℕ
  deriving DecidableEq

structure BrowserRow where
  secretHash : ℕ
  activeUserId : Option String := none
  expiresAt : ℚ
  revoked : Bool := false
  accounts : List AttachedAccount := []
  upgradedFrom : Option ℕ := none
  deriving DecidableEq

structure SessionStore where
  browsers : List BrowserRow := []
  sessions : List AuthSession := []
  fresh : ℕ := 0
  replaced : List ℕ := []
  deriving DecidableEq

def accountOf (accounts : List AttachedAccount) (userId : String) : Option AttachedAccount :=
  accounts.find? fun account => account.userId = userId

/-- `INSERT … ON CONFLICT DO UPDATE` of one account. -/
def upsertAccount (accounts : List AttachedAccount) (userId : String) (authSessionId : ℕ) :
    List AttachedAccount :=
  if (accountOf accounts userId).isSome then
    accounts.map fun account =>
      if account.userId = userId then ⟨userId, authSessionId⟩ else account
  else accounts ++ [⟨userId, authSessionId⟩]

variable {accounts : List AttachedAccount} {account : AttachedAccount}

theorem mem_upsertAccount {userId : String} {authSessionId : ℕ}
    (member : account ∈ upsertAccount accounts userId authSessionId) :
    account ∈ accounts ∨ account = ⟨userId, authSessionId⟩ := by
  unfold upsertAccount at member
  split_ifs at member
  · rcases List.mem_map.mp member with ⟨old, oldMember, rfl⟩
    split_ifs
    · exact Or.inr rfl
    · exact Or.inl oldMember
  · simpa using member

theorem accountOf_isSome {userId : String} : (accountOf accounts userId).isSome = true ↔
      userId ∈ accounts.map AttachedAccount.userId := by
  simp [accountOf, List.find?_isSome]

theorem accountOf_eq_some
    (keyed : (accounts.map AttachedAccount.userId).Nodup) (member : account ∈ accounts) :
    accountOf accounts account.userId = some account := by
  cases found : accountOf accounts account.userId with
  | none =>
    have absent := List.find?_eq_none.mp found account member
    simp at absent
  | some other =>
    have otherMember := List.mem_of_find?_eq_some found
    have sameUser : other.userId = account.userId := by
      simpa using List.find?_some found
    rw [List.inj_on_of_nodup_map keyed otherMember member sameUser]

theorem userIds_upsertAccount (accounts : List AttachedAccount) (userId : String)
    (authSessionId : ℕ) :
    (upsertAccount accounts userId authSessionId).map AttachedAccount.userId =
      if (accountOf accounts userId).isSome then accounts.map AttachedAccount.userId
      else accounts.map AttachedAccount.userId ++ [userId] := by
  unfold upsertAccount
  split_ifs
  · rw [List.map_map]
    apply List.map_congr_left
    intro account _
    simp only [Function.comp_apply]
    split_ifs with same
    · exact same.symm
    · rfl
  · simp

theorem keyed_upsertAccount (userId : String)
    (authSessionId : ℕ) (keyed : (accounts.map AttachedAccount.userId).Nodup) :
    ((upsertAccount accounts userId authSessionId).map AttachedAccount.userId).Nodup := by
  rw [userIds_upsertAccount]
  split_ifs with held
  · exact keyed
  · apply List.nodup_append.mpr
    refine ⟨keyed, by simp, ?_⟩
    intro earlier member last lastMember same
    apply held
    rw [accountOf_isSome]
    simp only [List.mem_singleton] at lastMember
    exact lastMember ▸ same ▸ member

/-- An account stays attached or its session is among those the upsert displaces. -/
theorem upsertAccount_keeps (userId : String) (authSessionId : ℕ)
    (keyed : (accounts.map AttachedAccount.userId).Nodup) (member : account ∈ accounts) :
    account ∈ upsertAccount accounts userId authSessionId ∨
      account.authSessionId ∈ (((accountOf accounts userId).map
        AttachedAccount.authSessionId).filter (· ≠ authSessionId)).toList := by
  by_cases other : account.userId = userId
  · subst other
    have found := accountOf_eq_some keyed member
    by_cases same : account.authSessionId = authSessionId
    · left
      unfold upsertAccount
      rw [if_pos (by simp [found])]
      apply List.mem_map.mpr
      refine ⟨account, member, ?_⟩
      rw [if_pos rfl, ← same]
    · right
      rw [found]
      simp [Option.filter, same]
  · left
    unfold upsertAccount
    split_ifs
    · apply List.mem_map.mpr
      exact ⟨account, member, if_neg other⟩
    · exact List.mem_append_left _ member

theorem length_upsertAccount (accounts : List AttachedAccount) (userId : String)
    (authSessionId : ℕ) :
    (upsertAccount accounts userId authSessionId).length =
      if (accountOf accounts userId).isSome then accounts.length else accounts.length + 1 := by
  unfold upsertAccount
  split_ifs <;> simp

theorem accountOf_upsertAccount_self (accounts : List AttachedAccount) (userId : String)
    (authSessionId : ℕ) :
    (accountOf (upsertAccount accounts userId authSessionId) userId).isSome = true := by
  rw [accountOf_isSome, userIds_upsertAccount]
  split_ifs with held
  · exact accountOf_isSome.mp held
  · simp

theorem detached_or_kept (userId : String) (keyed : (accounts.map AttachedAccount.userId).Nodup)
    (member : account ∈ accounts) :
    account ∈ accounts.filter (fun other => other.userId ≠ userId) ∨
      account.authSessionId ∈ ((accountOf accounts userId).map
        AttachedAccount.authSessionId).toList := by
  by_cases same : account.userId = userId
  · right
    subst same
    simp [accountOf_eq_some keyed member]
  · left
    simp [member, same]

namespace SessionStore

def createSession (store : SessionStore) (userId : String) (expiresAt : ℚ) : SessionStore × ℕ :=
  ({ store with
      sessions := store.sessions ++ [{ userId, refreshTokenHash := store.fresh, expiresAt }]
      fresh := store.fresh + 1 },
    store.sessions.length)

def getSessionByTokenHash (store : SessionStore) (tokenHash : ℕ) : Option ℕ :=
  store.sessions.findIdx? fun session => session.refreshTokenHash = tokenHash

def rotateSession (store : SessionStore) (sessionId : ℕ) : SessionStore :=
  { store with
    sessions := store.sessions.modify sessionId fun session =>
      { session with refreshTokenHash := store.fresh }
    fresh := store.fresh + 1 }

/-- `UPDATE auth_sessions SET revoked = TRUE` for these sessions. -/
def revokeSessions (store : SessionStore) (sessionIds : List ℕ) : SessionStore :=
  { store with
    sessions := store.sessions.mapIdx fun id session =>
      if id ∈ sessionIds then { session with revoked := true } else session }

def createBrowserSession (store : SessionStore) (expiresAt : ℚ) (upgradedFrom : Option ℕ) :
    SessionStore × ℕ :=
  ({ store with
      browsers := store.browsers ++ [{ secretHash := store.fresh, expiresAt, upgradedFrom }]
      fresh := store.fresh + 1 },
    store.browsers.length)

def getBrowserSession (store : SessionStore) (secretHash : ℕ) : Option ℕ :=
  store.browsers.findIdx? fun row => row.secretHash = secretHash

/-- `rotate_browser_session`: the new cookie value, if this one was still current. -/
def rotateBrowserSession (store : SessionStore) (browserId current : ℕ)
    (expiresAt : Option ℚ) : SessionStore × Option ℕ :=
  match store.browsers[browserId]? with
  | some row =>
    if row.secretHash = current && !row.revoked then
      ({ store with
          browsers := store.browsers.set browserId
            { row with
              secretHash := store.fresh
              expiresAt := max row.expiresAt (expiresAt.getD row.expiresAt) }
          fresh := store.fresh + 1
          replaced := store.replaced ++ [current] },
        some store.fresh)
    else (store, none)
  | none => (store, none)

def attachBrowserSessionAccount (store : SessionStore) (browserId : ℕ) (userId : String)
    (authSessionId : ℕ) : SessionStore × Bool :=
  match store.browsers[browserId]? with
  | some row =>
    if row.revoked then (store, false)
    else
      let previous := (accountOf row.accounts userId).map AttachedAccount.authSessionId
      ({ store with
          browsers := store.browsers.set browserId
            { row with
              accounts := upsertAccount row.accounts userId authSessionId
              activeUserId := some userId } }.revokeSessions
          (previous.filter (· ≠ authSessionId)).toList,
        true)
  | none => (store, false)

def setBrowserSessionActive (store : SessionStore) (browserId : ℕ) (userId : String) :
    SessionStore :=
  { store with
    browsers := store.browsers.modify browserId fun row =>
      { row with activeUserId := some userId } }

/-- `detach_browser_session_account`, with the number of accounts that remain. -/
def detachBrowserSessionAccount (store : SessionStore) (browserId : ℕ) (userId : String) :
    SessionStore × ℕ :=
  match store.browsers[browserId]? with
  | some row =>
    let detached := (accountOf row.accounts userId).map AttachedAccount.authSessionId
    let remaining := row.accounts.filter fun account => account.userId ≠ userId
    ({ store with
        browsers := store.browsers.set browserId
          { row with
            accounts := remaining
            revoked := row.revoked || remaining.isEmpty
            activeUserId :=
              if row.activeUserId = some userId || remaining.isEmpty then none
              else row.activeUserId } }.revokeSessions detached.toList,
      remaining.length)
  | none => (store, 0)

def revokeBrowserSession (store : SessionStore) (browserId : ℕ) : SessionStore :=
  match store.browsers[browserId]? with
  | some row =>
    { store with
      browsers := store.browsers.set browserId
        { row with accounts := [], revoked := true, activeUserId := none } }.revokeSessions
      (row.accounts.map AttachedAccount.authSessionId)
  | none => store

structure Drawn (fresh : ℕ) (values : List ℕ) : Prop where
  nodup : values.Nodup
  below : ∀ value ∈ values, value < fresh

theorem Drawn.next {fresh : ℕ} {values after : List ℕ} (drawn : Drawn fresh values)
    (dropped : List ℕ) (same : (dropped ++ after).Perm (fresh :: values)) : Drawn
    (fresh + 1) after where
  nodup := by
    have absent : fresh ∉ values := by
      intro member
      exact Nat.lt_irrefl fresh (drawn.below fresh member)
    have all : (dropped ++ after).Nodup :=
      same.nodup_iff.mpr (List.nodup_cons.mpr ⟨absent, drawn.nodup⟩)
    exact (List.nodup_append.mp all).2.1
  below := by
    intro value member
    have earlier : value ∈ fresh :: values := same.subset (List.mem_append_right dropped member)
    rcases List.mem_cons.mp earlier with rfl | old
    · exact Nat.lt_succ_self value
    · exact Nat.lt_succ_of_lt (drawn.below value old)

def values (store : SessionStore) : List ℕ :=
  store.browsers.map BrowserRow.secretHash ++
    (store.sessions.map AuthSession.refreshTokenHash ++ store.replaced)

/-- Cookie values are told apart, accounts have a session, and a browser has one
account for each user. -/
structure Sound (store : SessionStore) : Prop where
  drawn : Drawn store.fresh store.values
  attached : ∀ (id : ℕ) row account, store.browsers[id]? = some row → account ∈ row.accounts →
    account.authSessionId < store.sessions.length
  keyed : ∀ (id : ℕ) row, store.browsers[id]? = some row →
    (row.accounts.map AttachedAccount.userId).Nodup

def SessionRevoked (store : SessionStore) (id : ℕ) : Prop :=
  ∃ session, store.sessions[id]? = some session ∧ session.revoked = true

/-- Sessions stay, revoked once they were, and change their hash only to a new
value. -/
structure SessionsForward (before after : SessionStore) : Prop where
  fresh : before.fresh ≤ after.fresh
  size : before.sessions.length ≤ after.sessions.length
  hash : ∀ (id : ℕ) session, after.sessions[id]? = some session →
    before.fresh ≤ session.refreshTokenHash ∨ ∃ old, before.sessions[id]? = some old ∧
      old.refreshTokenHash = session.refreshTokenHash
  revoked : ∀ id, before.SessionRevoked id → after.SessionRevoked id
  replaced : before.replaced ⊆ after.replaced

theorem SessionsForward.of_eq {before after : SessionStore} (fresh : before.fresh ≤ after.fresh)
    (same : after.sessions = before.sessions) (replaced : before.replaced ⊆ after.replaced) :
    SessionsForward before after where
  fresh := fresh
  size := by rw [same]
  hash := fun _ session found => Or.inr ⟨session, same ▸ found, rfl⟩
  revoked := by
    rintro id ⟨session, found, gone⟩
    exact ⟨session, same ▸ found, gone⟩
  replaced := replaced

theorem SessionsForward.trans {before middle after : SessionStore}
    (first : SessionsForward before middle) (second : SessionsForward middle after) :
    SessionsForward before after where
  fresh := first.fresh.trans second.fresh
  size := first.size.trans second.size
  hash := by
    intro id session found
    rcases second.hash id session found with new | ⟨between, there, same⟩
    · exact Or.inl (first.fresh.trans new)
    · rw [← same]
      exact first.hash id between there
  revoked := fun id gone => second.revoked id (first.revoked id gone)
  replaced := List.Subset.trans first.replaced second.replaced

/-- What the tables only gain: rows stay, what is revoked stays so, an account
leaves a browser with its session revoked, and a browser whose accounts have all
left is retired. -/
structure Forward (before after : SessionStore) : Prop where
  browser : ∀ (id : ℕ) row, before.browsers[id]? = some row →
    ∃ later, after.browsers[id]? = some later ∧ (row.revoked = true → later.revoked = true) ∧
      (∀ account ∈ row.accounts,
        account ∈ later.accounts ∨ after.SessionRevoked account.authSessionId) ∧
      (row.accounts ≠ [] → later.accounts = [] → later.revoked = true)
  sessions : SessionsForward before after

theorem Forward.of_rows {before after : SessionStore}
    (rows : ∀ (id : ℕ) row, before.browsers[id]? = some row → after.browsers[id]? = some row)
    (sessions : SessionsForward before after) : Forward before after where
  browser := fun browserId row found =>
    ⟨row, rows browserId row found, id, fun _ member => Or.inl member,
      fun some none => absurd none some⟩
  sessions := sessions

theorem Forward.refl (store : SessionStore) : Forward store store :=
  Forward.of_rows (fun _ _ found => found) (.of_eq le_rfl rfl (List.Subset.refl _))

theorem Forward.trans {before middle after : SessionStore} (first : Forward before middle)
    (second : Forward middle after) : Forward before after where
  browser := by
    intro id row found
    rcases first.browser id row found with ⟨between, there, revoked, accounts, emptied⟩
    rcases second.browser id between there with ⟨later, laterThere, revoked', accounts', emptied'⟩
    refine ⟨later, laterThere, fun before => revoked' (revoked before), ?_, ?_⟩
    · intro account member
      rcases accounts account member with kept | gone
      · exact accounts' account kept
      · exact Or.inr (second.sessions.revoked account.authSessionId gone)
    · intro nonempty empty
      by_cases middleEmpty : between.accounts = []
      · exact revoked' (emptied nonempty middleEmpty)
      · exact emptied' middleEmpty empty
  sessions := first.sessions.trans second.sessions

variable {store : SessionStore}

theorem getElem?_revokeSessions (store : SessionStore) (sessionIds : List ℕ) (id : ℕ) :
    (store.revokeSessions sessionIds).sessions[id]? = (store.sessions[id]?).map fun session =>
      if id ∈ sessionIds then { session with revoked := true } else session := by
  simp [revokeSessions]

theorem values_revokeSessions (store : SessionStore) (sessionIds : List ℕ) :
    (store.revokeSessions sessionIds).values = store.values := by
  have hashes : (store.revokeSessions sessionIds).sessions.map AuthSession.refreshTokenHash =
      store.sessions.map AuthSession.refreshTokenHash := by
    apply List.ext_getElem?
    intro id
    rw [List.getElem?_map, List.getElem?_map, getElem?_revokeSessions, Option.map_map]
    congr 1
    funext session
    split_ifs <;> rfl
  unfold values
  rw [hashes]
  rfl

theorem Sound.revokeSessions (sound : store.Sound) (sessionIds : List ℕ) :
    (store.revokeSessions sessionIds).Sound where
  drawn := by
    rw [values_revokeSessions]
    exact sound.drawn
  attached := by
    intro id row account found member
    have below := sound.attached id row account found member
    simpa [SessionStore.revokeSessions] using below
  keyed := sound.keyed

theorem sessionRevoked_of_mem (store : SessionStore) {sessionIds : List ℕ} {id : ℕ}
    (member : id ∈ sessionIds) (there : id < store.sessions.length) :
    (store.revokeSessions sessionIds).SessionRevoked id := by
  refine ⟨{ store.sessions[id] with revoked := true }, ?_, rfl⟩
  rw [getElem?_revokeSessions, List.getElem?_eq_getElem there]
  simp [member]

theorem SessionsForward.revokeSessions (store : SessionStore) (sessionIds : List ℕ) :
    SessionsForward store (store.revokeSessions sessionIds) where
  fresh := le_rfl
  size := by simp [SessionStore.revokeSessions]
  hash := by
    intro id session found
    rw [getElem?_revokeSessions] at found
    rcases Option.map_eq_some_iff.mp found with ⟨old, there, rfl⟩
    refine Or.inr ⟨old, there, ?_⟩
    split_ifs <;> rfl
  revoked := by
    rintro id ⟨session, found, gone⟩
    by_cases member : id ∈ sessionIds
    · exact sessionRevoked_of_mem store member (List.getElem?_eq_some_iff.mp found).1
    · refine ⟨session, ?_, gone⟩
      rw [getElem?_revokeSessions, found]
      simp [member]
  replaced := List.Subset.refl _

variable {row new : BrowserRow}

section

variable (sound : store.Sound)

include sound

theorem Sound.rewrite {id : ℕ}
    (found : store.browsers[id]? = some row) (value : new.secretHash = row.secretHash)
    (attached : ∀ account ∈ new.accounts, account.authSessionId < store.sessions.length)
    (keyed : (new.accounts.map AttachedAccount.userId).Nodup) :
    Sound { store with browsers := store.browsers.set id new } where
  drawn := by
    have same : (store.browsers.set id new).map BrowserRow.secretHash =
        store.browsers.map BrowserRow.secretHash := by
      rw [List.map_set, value]
      apply set_eq_self_of_some
      simp [found]
    have drawn := sound.drawn
    unfold values at drawn ⊢
    rw [same]
    exact drawn
  attached := by
    intro other row' account there member
    simp only [getElem?_set_of_some found] at there
    split_ifs at there
    · cases there
      exact attached account member
    · exact sound.attached other row' account there member
  keyed := by
    intro other row' there
    simp only [getElem?_set_of_some found] at there
    split_ifs at there
    · cases there
      exact keyed
    · exact sound.keyed other row' there

theorem Sound.forward_rewrite {id : ℕ}
    {sessionIds : List ℕ} (found : store.browsers[id]? = some row)
    (revoked : row.revoked = true → new.revoked = true)
    (accounts : ∀ account ∈ row.accounts,
      account ∈ new.accounts ∨ account.authSessionId ∈ sessionIds)
    (emptied : row.accounts ≠ [] → new.accounts = [] → new.revoked = true) :
    Forward store
      ({ store with browsers := store.browsers.set id new }.revokeSessions sessionIds) where
  browser := by
    intro other row' there
    simp only [SessionStore.revokeSessions, getElem?_set_of_some found]
    by_cases same : id = other
    · subst same
      rw [found, Option.some.injEq] at there
      subst there
      refine ⟨new, by simp, revoked, ?_, emptied⟩
      intro account member
      rcases accounts account member with kept | dropped
      · exact Or.inl kept
      · right
        exact sessionRevoked_of_mem { store with browsers := store.browsers.set id new } dropped
          (sound.attached id row account found member)
    · exact ⟨row', by simp [same, there], fun gone => gone, fun _ member => Or.inl member,
        fun some none => absurd none some⟩
  sessions := by
    have same : SessionsForward store { store with browsers := store.browsers.set id new } :=
      .of_eq le_rfl rfl (List.Subset.refl _)
    exact same.trans (.revokeSessions _ sessionIds)

theorem Sound.attach (browserId : ℕ) (userId : String)
    {authSessionId : ℕ} (there : authSessionId < store.sessions.length) :
    (store.attachBrowserSessionAccount browserId userId authSessionId).1.Sound ∧
      Forward store (store.attachBrowserSessionAccount browserId userId authSessionId).1 := by
  unfold attachBrowserSessionAccount
  split
  · next row found =>
      have keyed := sound.keyed browserId row found
      split_ifs with retired
      · exact ⟨sound, Forward.refl store⟩
      · constructor
        · apply Sound.revokeSessions
          refine sound.rewrite found rfl ?_ (keyed_upsertAccount userId authSessionId keyed)
          intro account member
          rcases mem_upsertAccount member with old | rfl
          · exact sound.attached browserId row account found old
          · exact there
        · refine sound.forward_rewrite found id ?_ ?_
          · intro account member
            exact upsertAccount_keeps userId authSessionId keyed member
          · intro _ empty
            have held := accountOf_upsertAccount_self row.accounts userId authSessionId
            simp [show upsertAccount row.accounts userId authSessionId = [] from empty,
              accountOf] at held
  · exact ⟨sound, Forward.refl store⟩

theorem Sound.detach (browserId : ℕ) (userId : String) :
    (store.detachBrowserSessionAccount browserId userId).1.Sound ∧
      Forward store (store.detachBrowserSessionAccount browserId userId).1 := by
  unfold detachBrowserSessionAccount
  split
  · next row found =>
      have keyed := sound.keyed browserId row found
      constructor
      · apply Sound.revokeSessions
        refine sound.rewrite found rfl ?_ ?_
        · intro account member
          exact sound.attached browserId row account found (List.mem_filter.mp member).1
        · exact keyed.sublist (List.filter_sublist.map AttachedAccount.userId)
      · refine sound.forward_rewrite found (fun gone => by simp [gone]) ?_ ?_
        · intro account member
          exact detached_or_kept userId keyed member
        · intro _ empty
          dsimp only at empty ⊢
          rw [empty]
          simp
  · exact ⟨sound, Forward.refl store⟩

theorem Sound.revokeBrowser (browserId : ℕ) :
    (store.revokeBrowserSession browserId).Sound ∧
      Forward store (store.revokeBrowserSession browserId) := by
  unfold revokeBrowserSession
  split
  · next row found =>
      constructor
      · apply Sound.revokeSessions
        exact sound.rewrite found rfl (by simp) (by simp)
      · refine sound.forward_rewrite found (fun _ => rfl) ?_ (fun _ _ => rfl)
        intro account member
        exact Or.inr (List.mem_map_of_mem member)
  · exact ⟨sound, Forward.refl store⟩

end

theorem revokeSessions_nil (store : SessionStore) : store.revokeSessions [] = store := by
  have same : store.sessions.mapIdx (fun _ session => session) = store.sessions := by
    apply List.ext_getElem?
    simp
  simp [revokeSessions, same]

section

variable (sound : store.Sound)

include sound

theorem Sound.forward_set {id : ℕ}
    (found : store.browsers[id]? = some row) (revoked : new.revoked = row.revoked)
    (accounts : new.accounts = row.accounts) :
    Forward store { store with browsers := store.browsers.set id new } := by
  have forward : Forward store
      ({ store with browsers := store.browsers.set id new }.revokeSessions []) := by
    refine sound.forward_rewrite found (fun gone => revoked.trans gone) ?_ ?_
    · intro account member
      exact Or.inl (accounts ▸ member)
    · intro some none
      exact absurd (accounts ▸ none) some
  rwa [revokeSessions_nil] at forward

theorem Sound.setActive (browserId : ℕ) (userId : String) :
    (store.setBrowserSessionActive browserId userId).Sound ∧
      Forward store (store.setBrowserSessionActive browserId userId) := by
  unfold setBrowserSessionActive
  cases found : store.browsers[browserId]? with
  | none =>
    rw [List.modify_eq_self (List.getElem?_eq_none_iff.mp found)]
    exact ⟨sound, Forward.refl store⟩
  | some row =>
    rw [modify_eq_set _ found]
    constructor
    · refine sound.rewrite found rfl ?_ (sound.keyed browserId row found)
      intro account member
      exact sound.attached browserId row account found member
    · exact sound.forward_set found rfl rfl

theorem Sound.rotateBrowser (browserId current : ℕ) (expiresAt : Option ℚ) :
    (store.rotateBrowserSession browserId current expiresAt).1.Sound ∧
      Forward store (store.rotateBrowserSession browserId current expiresAt).1 := by
  unfold rotateBrowserSession
  split
  · next row found =>
      split_ifs with presented
      · simp only [Bool.and_eq_true, decide_eq_true_eq] at presented
        constructor
        · refine ⟨?_, ?_, ?_⟩
          · apply sound.drawn.next []
            have renewed := cons_set_perm store.fresh
              (show (store.browsers.map BrowserRow.secretHash)[browserId]? = some current by
                simp [found, presented.1])
            simp only [values, List.map_set, List.nil_append]
            have moved := List.perm_append_singleton current
              ((store.browsers.map BrowserRow.secretHash).set browserId store.fresh ++
                (store.sessions.map AuthSession.refreshTokenHash ++ store.replaced))
            simp only [List.append_assoc] at moved
            exact moved.trans (renewed.append_right _)
          · intro other row' account there member
            simp only [getElem?_set_of_some found] at there
            split_ifs at there
            · cases there
              exact sound.attached browserId row account found member
            · exact sound.attached other row' account there member
          · intro other row' there
            simp only [getElem?_set_of_some found] at there
            split_ifs at there
            · cases there
              exact sound.keyed browserId row found
            · exact sound.keyed other row' there
        · have forward : Forward store
              { store with
                browsers := store.browsers.set browserId
                  { row with
                    secretHash := store.fresh
                    expiresAt := max row.expiresAt (expiresAt.getD row.expiresAt) } } :=
            sound.forward_set found rfl rfl
          exact ⟨forward.browser,
            .of_eq (Nat.le_succ _) rfl (List.subset_append_left store.replaced [current])⟩
      · exact ⟨sound, Forward.refl store⟩
  · exact ⟨sound, Forward.refl store⟩

theorem Sound.createBrowser (expiresAt : ℚ) (upgradedFrom : Option ℕ) :
    (store.createBrowserSession expiresAt upgradedFrom).1.Sound ∧
      Forward store (store.createBrowserSession expiresAt upgradedFrom).1 := by
  unfold createBrowserSession
  constructor
  · refine ⟨?_, ?_, ?_⟩
    · apply sound.drawn.next []
      simp only [values, List.map_append, List.map_cons, List.map_nil, List.nil_append,
        List.append_assoc, List.singleton_append]
      exact List.perm_middle
    · intro id row account there member
      rcases getElem?_concat_cases there with earlier | ⟨-, rfl⟩
      · exact sound.attached id row account earlier member
      · simp at member
    · intro id row there
      rcases getElem?_concat_cases there with earlier | ⟨-, rfl⟩
      · exact sound.keyed id row earlier
      · simp
  · apply Forward.of_rows
    · intro id row found
      exact getElem?_concat_of_some found
    · exact .of_eq (Nat.le_succ _) rfl (List.Subset.refl _)

theorem Sound.createSession (userId : String) (expiresAt : ℚ) :
    (store.createSession userId expiresAt).1.Sound ∧
      Forward store (store.createSession userId expiresAt).1 := by
  unfold SessionStore.createSession
  constructor
  · refine ⟨?_, ?_, sound.keyed⟩
    · apply sound.drawn.next []
      simp only [values, List.map_append, List.map_cons, List.map_nil, List.nil_append,
        List.append_assoc, List.singleton_append]
      exact (List.perm_middle.append_left _).trans List.perm_middle
    · intro id row account there member
      have below := sound.attached id row account there member
      simp only [List.length_append, List.length_singleton]
      omega
  · refine Forward.of_rows (fun _ _ found => found)
      ⟨Nat.le_succ _, by simp, ?_, ?_, List.Subset.refl _⟩
    · intro id session there
      rcases getElem?_concat_cases there with earlier | ⟨-, rfl⟩
      · exact Or.inr ⟨session, earlier, rfl⟩
      · exact Or.inl le_rfl
    · rintro id ⟨session, found, gone⟩
      exact ⟨session, getElem?_concat_of_some found, gone⟩

theorem Sound.rotateSession (sessionId : ℕ) :
    (store.rotateSession sessionId).Sound ∧ Forward store (store.rotateSession sessionId) := by
  unfold SessionStore.rotateSession
  cases found : store.sessions[sessionId]? with
  | none =>
    rw [List.modify_eq_self (List.getElem?_eq_none_iff.mp found)]
    refine ⟨⟨?_, sound.attached, sound.keyed⟩,
      Forward.of_rows (fun _ _ there => there) (.of_eq (Nat.le_succ _) rfl (List.Subset.refl _))⟩
    exact sound.drawn.next [store.fresh] (List.Perm.refl _)
  | some session =>
    rw [modify_eq_set _ found]
    refine ⟨⟨?_, ?_, sound.keyed⟩, Forward.of_rows (fun _ _ there => there)
      ⟨Nat.le_succ _, by simp, ?_, ?_, List.Subset.refl _⟩⟩
    · apply sound.drawn.next [session.refreshTokenHash]
      have renewed := cons_set_perm store.fresh
        (show (store.sessions.map AuthSession.refreshTokenHash)[sessionId]? =
          some session.refreshTokenHash by simp [found])
      simp only [values, List.map_set, List.singleton_append]
      refine List.perm_middle.symm.trans ?_
      refine ((renewed.append_right store.replaced).append_left _).trans ?_
      exact List.perm_middle
    · intro id row account there member
      have below := sound.attached id row account there member
      simpa using below
    · intro id later there
      simp only [getElem?_set_of_some found] at there
      split_ifs at there
      · cases there
        exact Or.inl le_rfl
      · exact Or.inr ⟨later, there, rfl⟩
    · rintro id ⟨old, there, gone⟩
      unfold SessionRevoked
      rw [getElem?_set_of_some found]
      split_ifs with same
      · subst same
        rw [found, Option.some.injEq] at there
        subst there
        exact ⟨_, rfl, gone⟩
      · exact ⟨old, there, gone⟩

end

theorem forward_revokeSessions (store : SessionStore) (sessionIds : List ℕ) :
    Forward store (store.revokeSessions sessionIds) :=
  Forward.of_rows (fun _ _ found => found) (.revokeSessions store sessionIds)

/-- A browser holds no more accounts than it may, and its active account is one
of them. -/
structure Lawful (store : SessionStore) : Prop where
  capped : ∀ (id : ℕ) row, store.browsers[id]? = some row →
    row.accounts.length ≤ maxAccountsPerBrowser
  active : ∀ (id : ℕ) row userId, store.browsers[id]? = some row →
    row.activeUserId = some userId → (accountOf row.accounts userId).isSome = true

def hasRoom (store : SessionStore) (browserId : ℕ) (userId : String) : Bool :=
  (store.browsers[browserId]?).all fun row =>
    row.revoked || (accountOf row.accounts userId).isSome ||
      row.accounts.length < maxAccountsPerBrowser

def holds (store : SessionStore) (browserId : ℕ) (userId : String) : Bool :=
  (store.browsers[browserId]?).all fun row => (accountOf row.accounts userId).isSome

variable {after : SessionStore}

section

variable (lawful : store.Lawful)

include lawful

/-- Rewriting one browser's row within the cap keeps the store's laws. -/
theorem Lawful.rewrite {id : ℕ} (found : store.browsers[id]? = some row)
    (rows : after.browsers = store.browsers.set id new)
    (capped : new.accounts.length ≤ maxAccountsPerBrowser)
    (active : ∀ userId, new.activeUserId = some userId →
      (accountOf new.accounts userId).isSome = true) : after.Lawful where
  capped := by
    intro other row' there
    rw [rows, getElem?_set_of_some found] at there
    split_ifs at there
    · cases there
      exact capped
    · exact lawful.capped other row' there
  active := by
    intro other row' userId there chosen
    rw [rows, getElem?_set_of_some found] at there
    split_ifs at there
    · cases there
      exact active userId chosen
    · exact lawful.active other row' userId there chosen

theorem Lawful.attach {browserId : ℕ} {userId : String}
    (room : store.hasRoom browserId userId = true) (authSessionId : ℕ) :
    (store.attachBrowserSessionAccount browserId userId authSessionId).1.Lawful := by
  unfold attachBrowserSessionAccount
  split
  · next row found =>
      split_ifs with retired
      · exact lawful
      · refine lawful.rewrite found rfl ?_ ?_
        · have capped := lawful.capped browserId row found
          simp only [hasRoom, found, Option.all_some, Bool.or_eq_true, decide_eq_true_eq] at room
          rw [length_upsertAccount]
          split_ifs with held
          · exact capped
          · rcases room with (gone | held') | below
            · exact absurd gone retired
            · exact absurd held' held
            · exact below
        · intro other chosen
          cases chosen
          exact accountOf_upsertAccount_self row.accounts userId authSessionId
  · exact lawful

theorem Lawful.detach (browserId : ℕ) (userId : String) :
    (store.detachBrowserSessionAccount browserId userId).1.Lawful := by
  unfold detachBrowserSessionAccount
  split
  · next row found =>
      refine lawful.rewrite found rfl ?_ ?_
      · exact (List.length_filter_le _ _).trans (lawful.capped browserId row found)
      · intro other chosen
        simp only [Bool.or_eq_true, decide_eq_true_eq, ite_eq_iff, reduceCtorEq, and_false,
          false_or, not_or] at chosen
        rcases chosen with ⟨⟨different, -⟩, chosen⟩
        have held := accountOf_isSome.mp (lawful.active browserId row other found chosen)
        rcases List.mem_map.mp held with ⟨account, member, rfl⟩
        apply accountOf_isSome.mpr
        apply List.mem_map.mpr
        refine ⟨account, List.mem_filter.mpr ⟨member, ?_⟩, rfl⟩
        simp only [decide_not, Bool.not_eq_eq_eq_not, Bool.not_true, decide_eq_false_iff_not]
        rintro rfl
        exact different chosen
  · exact lawful

theorem Lawful.revokeBrowser (browserId : ℕ) : (store.revokeBrowserSession browserId).Lawful := by
  unfold revokeBrowserSession
  split
  · next row found => exact lawful.rewrite found rfl (by simp) (by simp)
  · exact lawful

theorem Lawful.setActive {browserId : ℕ} {userId : String}
    (held : store.holds browserId userId = true) :
    (store.setBrowserSessionActive browserId userId).Lawful := by
  unfold setBrowserSessionActive
  cases found : store.browsers[browserId]? with
  | none =>
    rw [List.modify_eq_self (List.getElem?_eq_none_iff.mp found)]
    exact lawful
  | some row =>
    rw [modify_eq_set _ found]
    refine lawful.rewrite found rfl (lawful.capped browserId row found) ?_
    intro other chosen
    cases chosen
    simpa [holds, found] using held

theorem Lawful.rotateBrowser (browserId current : ℕ) (expiresAt : Option ℚ) :
    (store.rotateBrowserSession browserId current expiresAt).1.Lawful := by
  unfold rotateBrowserSession
  split
  · next row found =>
      split_ifs
      · exact lawful.rewrite found rfl (lawful.capped browserId row found)
          fun userId chosen => lawful.active browserId row userId found chosen
      · exact lawful
  · exact lawful

theorem Lawful.createBrowser (expiresAt : ℚ) (upgradedFrom : Option ℕ) :
    (store.createBrowserSession expiresAt upgradedFrom).1.Lawful where
  capped := by
    intro id row there
    rcases getElem?_concat_cases there with earlier | ⟨-, rfl⟩
    · exact lawful.capped id row earlier
    · simp
  active := by
    intro id row userId there chosen
    rcases getElem?_concat_cases there with earlier | ⟨-, rfl⟩
    · exact lawful.active id row userId earlier chosen
    · simp at chosen

end

def origins (store : SessionStore) : List (Option ℕ) :=
  store.browsers.map BrowserRow.upgradedFrom

theorem origins_set {id : ℕ} (found : store.browsers[id]? = some row)
    (same : new.upgradedFrom = row.upgradedFrom) :
    (store.browsers.set id new).map BrowserRow.upgradedFrom = store.origins := by
  rw [List.map_set, same]
  apply set_eq_self_of_some
  simp [found]

theorem origins_attach (store : SessionStore) (browserId : ℕ) (userId : String)
    (authSessionId : ℕ) :
    (store.attachBrowserSessionAccount browserId userId authSessionId).1.origins =
      store.origins := by
  unfold attachBrowserSessionAccount
  split
  · next row found =>
      split_ifs
      · rfl
      · exact origins_set found rfl
  · rfl

theorem origins_detach (store : SessionStore) (browserId : ℕ) (userId : String) :
    (store.detachBrowserSessionAccount browserId userId).1.origins = store.origins := by
  unfold detachBrowserSessionAccount
  split
  · next row found => exact origins_set found rfl
  · rfl

theorem origins_revokeBrowser (store : SessionStore) (browserId : ℕ) :
    (store.revokeBrowserSession browserId).origins = store.origins := by
  unfold revokeBrowserSession
  split
  · next row found => exact origins_set found rfl
  · rfl

theorem origins_setActive (store : SessionStore) (browserId : ℕ) (userId : String) :
    (store.setBrowserSessionActive browserId userId).origins = store.origins := by
  unfold setBrowserSessionActive
  cases found : store.browsers[browserId]? with
  | none => rw [List.modify_eq_self (List.getElem?_eq_none_iff.mp found)]
  | some row =>
    rw [modify_eq_set _ found]
    exact origins_set found rfl

theorem origins_rotateBrowser (store : SessionStore) (browserId current : ℕ)
    (expiresAt : Option ℚ) :
    (store.rotateBrowserSession browserId current expiresAt).1.origins = store.origins := by
  unfold rotateBrowserSession
  split
  · next row found =>
      split_ifs
      · exact origins_set found rfl
      · rfl
  · rfl

theorem Sound.replaced_unknown (sound : store.Sound) {value : ℕ} (member : value ∈ store.replaced) :
    store.getBrowserSession value = none ∧ store.getSessionByTokenHash value = none := by
  rcases List.nodup_append.mp sound.drawn.nodup with ⟨-, rest, apart⟩
  rcases List.nodup_append.mp rest with ⟨-, -, apartSessions⟩
  constructor
  · apply List.findIdx?_eq_none_iff.mpr
    intro row rowMember
    have different := apart row.secretHash (List.mem_map_of_mem rowMember) value
      (List.mem_append_right _ member)
    simpa using different
  · apply List.findIdx?_eq_none_iff.mpr
    intro session sessionMember
    have different := apartSessions session.refreshTokenHash (List.mem_map_of_mem sessionMember)
      value member
    simpa using different

theorem Sound.replaced_once (sound : store.Sound) : store.replaced.Nodup :=
  (List.nodup_append.mp (List.nodup_append.mp sound.drawn.nodup).2.1).2.1

def NamesOnly (store : SessionStore) (value sessionId : ℕ) : Prop :=
  ∀ (id : ℕ) session, store.sessions[id]? = some session → session.refreshTokenHash = value →
    id = sessionId

variable {value sessionId : ℕ}

theorem Sound.namesOnly (sound : store.Sound) {session : AuthSession}
    (found : store.sessions[sessionId]? = some session)
    (hash : session.refreshTokenHash = value) : store.NamesOnly value sessionId := by
  have nodup : (store.sessions.map AuthSession.refreshTokenHash).Nodup :=
    (List.nodup_append.mp (List.nodup_append.mp sound.drawn.nodup).2.1).1
  intro id other there same
  have inside : id < (store.sessions.map AuthSession.refreshTokenHash).length := by
    simpa using (List.getElem?_eq_some_iff.mp there).1
  apply (List.getElem?_inj inside nodup).mp
  simp [there, found, same, hash]

theorem SessionsForward.namesOnly (forward : SessionsForward store after)
    (known : value < store.fresh) (only : store.NamesOnly value sessionId) :
    after.NamesOnly value sessionId := by
  intro id session there same
  rcases forward.hash id session there with new | ⟨old, oldThere, oldSame⟩
  · omega
  · exact only id old oldThere (oldSame.trans same)

def Forgets (store : SessionStore) (value : ℕ) : Prop :=
  ∀ (id : ℕ) session, store.sessions[id]? = some session → session.refreshTokenHash ≠ value

theorem SessionsForward.forgets (forward : SessionsForward store after)
    (known : value < store.fresh) (forgets : store.Forgets value) :
    after.Forgets value := by
  intro id session there same
  rcases forward.hash id session there with new | ⟨old, oldThere, oldSame⟩
  · omega
  · exact forgets id old oldThere (oldSame.trans same)

theorem forgets_rotateSession (known : value < store.fresh)
    (only : store.NamesOnly value sessionId) : (store.rotateSession sessionId).Forgets value := by
  intro id session there same
  unfold SessionStore.rotateSession at there
  rw [List.getElem?_modify] at there
  rcases Option.map_eq_some_iff.mp there with ⟨old, found, rfl⟩
  split_ifs at same with renewed
  · have drawn : store.fresh = value := same
    omega
  · exact renewed (only id old found same).symm

end SessionStore

end HybridInference.Accounts
