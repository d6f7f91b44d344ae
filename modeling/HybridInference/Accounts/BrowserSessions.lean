import HybridInference.Accounts.BrowserStore
import HybridInference.Library.Machine

/-!
# Requests on browser sessions

`resolve_browser_session`, `rotate_cookie`, `prepare_sign_in` and
`complete_sign_in` of `serving.auth.browser_sessions`, and `refresh`,
`switch_account`, `login`, `logout`, `logout_all` and `remove_account` of
`serving.servers.routers.auth_routes` on them.

A request stands before one of its store calls; an event runs that call and the
code after it. A request that never goes on is one that died there. What the
`users` table says of an account is read with the event. The listing that
`remove_account` answers with is left out.
-/

namespace HybridInference.Accounts

open Library

structure ListedAccount where
  userId : String
  authSessionId : ℕ
  session : Option AuthSession
  deriving DecidableEq

/-- `BrowserSession`: what a request knows of the browser. -/
structure BrowserSession where
  id : ℕ
  secretHash : ℕ
  activeUserId : Option String
  accounts : List ListedAccount := []
  pendingSecret : Option ℕ := none
  deriving DecidableEq

def BrowserSession.account (browser : BrowserSession) (userId : Option String) :
    Option ListedAccount :=
  match userId with
  | some user =>
    if user = "" then none
    else browser.accounts.find? fun account => account.userId = user
  | none => none

structure Standing where
  active : Bool
  unverified : Bool
  deriving DecidableEq

def sessionLive (account : ListedAccount) (standing : Standing) (now : ℚ) : Bool :=
  match account.session with
  | some session => !session.revoked && now < session.expiresAt && standing.active
  | none => false

inductive Action where
  | refresh
  | switchAccount (userId : String) (activate : Bool)
  | login (userId : String)
  | logout (userId : String)
  | logoutAll
  | removeAccount (userId : String)
  deriving DecidableEq

/-- `logout_all` does not upgrade a legacy cookie. -/
def Action.upgrade : Action → Bool
  | .logoutAll => false
  | _ => true

inductive CookieChange where
  | kept
  | set (value : ℕ)
  | deleted
  deriving DecidableEq

inductive Outcome where
  | answered (cookie : CookieChange)
  | refused (status : ℕ)
  deriving DecidableEq

inductive SessionStage where
  | resolving
  | listing (browser : BrowserSession)
  | findingLegacy
  | creatingUpgrade (legacy : ℕ) (userId : String) (expiresAt : ℚ)
  | attachingUpgrade (legacy : ℕ) (userId : String) (browser : BrowserSession)
  | retiringLegacy (legacy : ℕ) (browser : BrowserSession)
  | issuing (browser : BrowserSession) (account : ListedAccount)
  | activating (browser : BrowserSession) (userId : String)
  | rotating (browser : BrowserSession) (extend : Bool)
  | openingSession (browser : Option BrowserSession) (userId : String)
  | attaching (browser : BrowserSession) (userId : String) (authSessionId : ℕ)
  | creatingBrowser (userId : String) (authSessionId : ℕ)
  | attachingNew (browserId secret : ℕ) (userId : String) (authSessionId : ℕ)
  | detaching (browser : BrowserSession) (userId : String)
  | revoking (browser : BrowserSession)
  | findingSession
  | revokingSession (sessionId : ℕ)
  | ended (outcome : Outcome)
  deriving DecidableEq

structure SessionRequest where
  action : Action
  cookie : Option ℕ
  stage : SessionStage
  deriving DecidableEq

def sendPendingCookie (browser : BrowserSession) : CookieChange :=
  match browser.pendingSecret with
  | some secret => .set secret
  | none => .kept

/-- `_usable_account`: the account, or the status it is refused with. -/
def usableAccount (browser : BrowserSession) (userId : Option String) (standing : Standing)
    (now : ℚ) : Except ℕ ListedAccount :=
  match browser.account userId with
  | none => .error 401
  | some account =>
    if !sessionLive account standing now then .error 401
    else if standing.unverified then .error 403
    else .ok account

def issueTo (browser : BrowserSession) : Except ℕ ListedAccount → SessionStage
  | .ok account => .issuing browser account
  | .error status => .ended (.refused status)

def afterResolve (action : Action) (cookie : Option ℕ) (standing : Standing) (now : ℚ)
    (resolved : Option BrowserSession) : SessionStage :=
  match action, resolved with
  | .refresh, none | .switchAccount _ _, none => .ended (.refused 401)
  | .refresh, some browser =>
    issueTo browser (usableAccount browser browser.activeUserId standing now)
  | .switchAccount userId _, some browser =>
    issueTo browser (usableAccount browser (some userId) standing now)
  | .login userId, none => .openingSession none userId
  | .login userId, some browser =>
    if (browser.account (some userId)).isNone &&
        maxAccountsPerBrowser ≤ browser.accounts.length then
      .ended (.refused 409)
    else .openingSession (some browser) userId
  | .logout _, none => .ended (.answered .deleted)
  | .logout userId, some browser => .detaching browser userId
  | .logoutAll, some browser => .revoking browser
  | .logoutAll, none =>
    if cookie.isSome then .findingSession else .ended (.answered .deleted)
  | .removeAccount _, none => .ended (.refused 404)
  | .removeAccount userId, some browser =>
    if (browser.account (some userId)).isNone then .ended (.refused 404)
    else .detaching browser userId

def SessionStore.listBrowserSessionAccounts (store : SessionStore) (browserId : ℕ) :
    List ListedAccount :=
  match store.browsers[browserId]? with
  | some row => row.accounts.map fun account =>
    ⟨account.userId, account.authSessionId, store.sessions[account.authSessionId]?⟩
  | none => []

def SessionRequest.call (lifetime : ℚ) (store : SessionStore) (request : SessionRequest)
    (now : ℚ) (standing : Standing) : SessionStore × SessionStage :=
  let goOn (resolved : Option BrowserSession) : SessionStage :=
    afterResolve request.action request.cookie standing now resolved
  match request.stage with
  | .resolving =>
    match request.cookie with
    | none => (store, goOn none)
    | some secret =>
      match store.getBrowserSession secret with
      | some id =>
        match store.browsers[id]? with
        | some row =>
          if row.revoked || row.expiresAt ≤ now then (store, goOn none)
          else
            (store, .listing { id, secretHash := secret, activeUserId := row.activeUserId })
        | none => (store, goOn none)
      | none =>
        if request.action.upgrade then (store, .findingLegacy) else (store, goOn none)
  | .listing browser =>
    (store, goOn (some { browser with accounts := store.listBrowserSessionAccounts browser.id }))
  | .findingLegacy =>
    match request.cookie.bind store.getSessionByTokenHash with
    | some legacy =>
      match store.sessions[legacy]? with
      | some session =>
        if session.revoked || session.expiresAt ≤ now then (store, goOn none)
        else (store, .creatingUpgrade legacy session.userId session.expiresAt)
      | none => (store, goOn none)
    | none => (store, goOn none)
  | .creatingUpgrade legacy userId expiresAt =>
    let created := store.createBrowserSession expiresAt request.cookie
    (created.1, .attachingUpgrade legacy userId
      { id := created.2
        secretHash := store.fresh
        activeUserId := some userId
        pendingSecret := some store.fresh })
  | .attachingUpgrade legacy userId browser =>
    ((store.attachBrowserSessionAccount browser.id userId legacy).1, .retiringLegacy legacy browser)
  | .retiringLegacy legacy browser => (store.rotateSession legacy, .listing browser)
  | .issuing browser account =>
    (store.rotateSession account.authSessionId, match request.action with
      | .switchAccount _ true => .activating browser account.userId
      | .switchAccount _ false => .ended (.answered (sendPendingCookie browser))
      | _ => .rotating browser false)
  | .activating browser userId =>
    (store.setBrowserSessionActive browser.id userId, .rotating browser false)
  | .rotating browser extend =>
    let rotated := store.rotateBrowserSession browser.id browser.secretHash
      (if extend then some (now + lifetime) else none)
    (rotated.1, match rotated.2 with
      | some secret => .ended (.answered (.set secret))
      | none => .ended (.refused 401))
  | .openingSession browser userId =>
    let created := store.createSession userId (now + lifetime)
    (created.1, match browser with
      | some browser => .attaching browser userId created.2
      | none => .creatingBrowser userId created.2)
  | .attaching browser userId authSessionId =>
    let attached := store.attachBrowserSessionAccount browser.id userId authSessionId
    (attached.1,
      if attached.2 then .rotating browser true else .creatingBrowser userId authSessionId)
  | .creatingBrowser userId authSessionId =>
    let created := store.createBrowserSession (now + lifetime) none
    (created.1, .attachingNew created.2 store.fresh userId authSessionId)
  | .attachingNew browserId secret userId authSessionId =>
    ((store.attachBrowserSessionAccount browserId userId authSessionId).1,
      .ended (.answered (.set secret)))
  | .detaching browser userId =>
    let detached := store.detachBrowserSessionAccount browser.id userId
    (detached.1,
      .ended (.answered (if detached.2 = 0 then .deleted else sendPendingCookie browser)))
  | .revoking browser =>
    (store.revokeBrowserSession browser.id, .ended (.answered .deleted))
  | .findingSession =>
    match request.cookie.bind store.getSessionByTokenHash with
    | some session => (store, .revokingSession session)
    | none => (store, .ended (.answered .deleted))
  | .revokingSession session =>
    (store.revokeSessions [session], .ended (.answered .deleted))
  | .ended outcome => (store, .ended outcome)

structure SessionWorld where
  store : SessionStore
  requests : List SessionRequest := []
  deriving DecidableEq

inductive SessionEvent where
  | arrive (action : Action) (cookie : Option ℕ)
  | call (id : ℕ) (now : ℚ) (standing : Standing)
  deriving DecidableEq

def SessionWorld.step (lifetime : ℚ) (world : SessionWorld) : SessionEvent → Option SessionWorld
  | .arrive action cookie =>
    some { world with requests := world.requests ++ [⟨action, cookie, .resolving⟩] }
  | .call id now standing =>
    match world.requests[id]? with
    | some request =>
      let called := request.call lifetime world.store now standing
      some
        { store := called.1
          requests := world.requests.set id { request with stage := called.2 } }
    | none => none

def sessionMachine (lifetime : ℚ) : Machine SessionWorld SessionEvent where
  step := SessionWorld.step lifetime

def SessionStage.upgrading : SessionStage → Bool
  | .attachingUpgrade _ _ _ | .retiringLegacy _ _ => true
  | _ => false

/-- What a request has checked of the legacy cookie, the room in the browser and the account still
holds when it acts on it. -/
def SessionWorld.stillHolds (world : SessionWorld) (request : SessionRequest) : Bool :=
  match request.stage with
  | .creatingUpgrade legacy _ _ =>
    (world.store.sessions[legacy]?).any
        (fun session => some session.refreshTokenHash = request.cookie) &&
      !world.requests.any fun other => other.cookie = request.cookie && other.stage.upgrading
  | .attachingUpgrade _ userId browser => world.store.hasRoom browser.id userId
  | .attaching browser userId _ => world.store.hasRoom browser.id userId
  | .attachingNew browserId _ userId _ => world.store.hasRoom browserId userId
  | .activating browser userId => world.store.holds browser.id userId
  | _ => true

def SessionWorld.Undisturbed (world : SessionWorld) : SessionEvent → Prop
  | .call id _ _ => ∀ request ∈ world.requests[id]?, world.stillHolds request = true
  | .arrive _ _ => True

instance SessionWorld.decidableUndisturbed (world : SessionWorld) :
    ∀ event, Decidable (world.Undisturbed event)
  | .call id _ _ => inferInstanceAs
      (Decidable (∀ request ∈ world.requests[id]?, world.stillHolds request = true))
  | .arrive _ _ => isTrue trivial

def SessionStage.session : SessionStage → Option ℕ
  | .creatingUpgrade legacy _ _ | .attachingUpgrade legacy _ _ => some legacy
  | .attaching _ _ authSessionId | .creatingBrowser _ authSessionId
  | .attachingNew _ _ _ authSessionId => some authSessionId
  | _ => none

def SessionStage.legacy : SessionStage → Option ℕ
  | .creatingUpgrade legacy _ _ | .attachingUpgrade legacy _ _ | .retiringLegacy legacy _ =>
    some legacy
  | _ => none

/-- A stage's session exists, and a session it upgrades is the only one its cookie names. -/
structure SessionStage.Fits (store : SessionStore) (cookie : Option ℕ) (stage : SessionStage) :
    Prop where
  session : ∀ id, stage.session = some id → id < store.sessions.length
  legacy : ∀ id value, stage.legacy = some id → cookie = some value →
    value < store.fresh ∧ store.NamesOnly value id

theorem SessionStage.Fits.forward {store after : SessionStore} {cookie : Option ℕ}
    {stage : SessionStage} (fits : stage.Fits store cookie)
    (forward : store.SessionsForward after) : stage.Fits after cookie where
  session := fun id acts => (fits.session id acts).trans_le forward.size
  legacy := by
    intro id value upgrades presented
    rcases fits.legacy id value upgrades presented with ⟨known, only⟩
    exact ⟨known.trans_le forward.fresh, forward.namesOnly known only⟩

theorem SessionStage.fits_of_none {store : SessionStore} {cookie : Option ℕ}
    {stage : SessionStage} (session : stage.session = none) (legacy : stage.legacy = none) :
    stage.Fits store cookie where
  session := by simp [session]
  legacy := by simp [legacy]

theorem fits_afterResolve (store : SessionStore) (action : Action) (cookie : Option ℕ)
    (standing : Standing) (now : ℚ) (resolved : Option BrowserSession) :
    (afterResolve action cookie standing now resolved).Fits store cookie := by
  have issued (browser : BrowserSession) (account : Except ℕ ListedAccount) :
      (issueTo browser account).Fits store cookie := by
    cases account with
    | ok account | error status =>
      exact SessionStage.fits_of_none rfl rfl
  unfold afterResolve
  split
  all_goals try split_ifs
  all_goals first
    | exact issued _ _
    | exact SessionStage.fits_of_none rfl rfl

/-- What a store call keeps: the tables stay sound and only gain, the request still fits them, and
upgrades forget the legacy cookie. -/
structure CallKept (store : SessionStore) (cookie : Option ℕ) (stage : SessionStage)
    (called : SessionStore × SessionStage) : Prop where
  sound : called.1.Sound
  forward : store.Forward called.1
  fits : called.2.Fits called.1 cookie
  origins : called.1.origins = store.origins ∨ called.1.origins = store.origins ++ [none] ∨
    called.1.origins = store.origins ++ [cookie] ∧ called.2.upgrading = true ∧
      ∃ legacy userId expiresAt, stage = .creatingUpgrade legacy userId expiresAt
  forgets : stage.upgrading = true → called.2.upgrading = true ∨
    ∀ value, cookie = some value → called.1.Forgets value

section Call

variable {store : SessionStore} {cookie : Option ℕ} {stage : SessionStage}

theorem CallKept.read (sound : store.Sound) (plain : stage.upgrading = false)
    {next : SessionStage} (fits : next.Fits store cookie) :
    CallKept store cookie stage (store, next) where
  sound := sound
  forward := SessionStore.Forward.refl store
  fits := fits
  origins := Or.inl rfl
  forgets := by simp [plain]

theorem CallKept.write {after : SessionStore} (kept : after.Sound ∧ store.Forward after)
    (origins : after.origins = store.origins) (plain : stage.upgrading = false)
    {next : SessionStage} (fits : next.Fits after cookie) :
    CallKept store cookie stage (after, next) where
  sound := kept.1
  forward := kept.2
  fits := fits
  origins := Or.inl origins
  forgets := by simp [plain]

theorem getSessionByTokenHash_eq_some {value id : ℕ}
    (found : store.getSessionByTokenHash value = some id) :
    ∃ session, store.sessions[id]? = some session ∧ session.refreshTokenHash = value := by
  rcases List.findIdx?_eq_some_iff_getElem.mp found with ⟨inside, names, -⟩
  exact ⟨store.sessions[id], List.getElem?_eq_getElem inside, by simpa using names⟩

variable {request : SessionRequest} {lifetime now : ℚ} {standing : Standing}

theorem callKept (sound : store.Sound) (fits : request.stage.Fits store request.cookie) :
    CallKept store request.cookie request.stage (request.call lifetime store now standing) := by
  have resolved (found : Option BrowserSession) := fits_afterResolve store request.action
    request.cookie standing now found
  unfold SessionRequest.call
  cases stage : request.stage with
  | resolving =>
    dsimp only
    split
    · exact .read sound rfl (resolved none)
    · split
      · split
        · split_ifs
          · exact .read sound rfl (resolved none)
          · exact .read sound rfl (SessionStage.fits_of_none rfl rfl)
        · exact .read sound rfl (resolved none)
      · split_ifs
        · exact .read sound rfl (SessionStage.fits_of_none rfl rfl)
        · exact .read sound rfl (resolved none)
  | listing browser => exact .read sound rfl (resolved _)
  | findingLegacy =>
    dsimp only
    split
    · next legacy found =>
        rcases Option.bind_eq_some_iff.mp found with ⟨value, presented, named⟩
        rcases getSessionByTokenHash_eq_some named with ⟨session, there, hash⟩
        rw [there]
        dsimp only
        split_ifs
        · exact .read sound rfl (resolved none)
        · refine .read sound rfl ⟨?_, ?_⟩
          · intro id acts
            cases acts
            exact (List.getElem?_eq_some_iff.mp there).1
          · intro id other upgrades same
            cases upgrades
            rw [presented, Option.some.injEq] at same
            subst same
            refine ⟨?_, sound.namesOnly there hash⟩
            apply sound.drawn.below
            apply List.mem_append_right
            apply List.mem_append_left
            exact hash ▸ List.mem_map_of_mem (List.mem_of_getElem? there)
    · exact .read sound rfl (resolved none)
  | creatingUpgrade legacy userId expiresAt =>
    rw [stage] at fits
    have created := sound.createBrowser expiresAt request.cookie
    refine ⟨created.1, created.2, ?_, ?_, by simp [SessionStage.upgrading]⟩
    · exact ⟨(fits.forward created.2.sessions).session, (fits.forward created.2.sessions).legacy⟩
    · right
      right
      refine ⟨?_, rfl, legacy, userId, expiresAt, rfl⟩
      simp [SessionStore.origins, SessionStore.createBrowserSession]
  | attachingUpgrade legacy userId browser =>
    rw [stage] at fits
    have attached := sound.attach browser.id userId (fits.session legacy rfl)
    have later := fits.forward attached.2.sessions
    refine ⟨attached.1, attached.2, ⟨by simp [SessionStage.session], later.legacy⟩,
      Or.inl (SessionStore.origins_attach _ _ _ _), fun _ => Or.inl rfl⟩
  | retiringLegacy legacy browser =>
    rw [stage] at fits
    have rotated := sound.rotateSession legacy
    refine ⟨rotated.1, rotated.2, SessionStage.fits_of_none rfl rfl, Or.inl rfl, fun _ => ?_⟩
    right
    intro value presented
    rcases fits.legacy legacy value rfl presented with ⟨known, only⟩
    exact SessionStore.forgets_rotateSession known only
  | issuing browser account =>
    refine .write (sound.rotateSession _) rfl rfl ?_
    split <;> exact SessionStage.fits_of_none rfl rfl
  | activating browser userId =>
    exact .write (sound.setActive _ _) (SessionStore.origins_setActive _ _ _) rfl
      (SessionStage.fits_of_none rfl rfl)
  | rotating browser extend =>
    refine .write (sound.rotateBrowser _ _ _) (SessionStore.origins_rotateBrowser _ _ _ _) rfl ?_
    generalize (store.rotateBrowserSession browser.id browser.secretHash _).2 = rotated
    cases rotated with
    | some secret | none =>
      exact SessionStage.fits_of_none rfl rfl
  | openingSession browser userId =>
    have created := sound.createSession userId (now + lifetime)
    have there : (store.createSession userId (now + lifetime)).2 <
        (store.createSession userId (now + lifetime)).1.sessions.length := by
      simp [SessionStore.createSession]
    refine .write created rfl rfl ?_
    split
    all_goals
      refine ⟨?_, by simp [SessionStage.legacy]⟩
      intro id acts
      cases acts
      exact there
  | attaching browser userId authSessionId =>
    rw [stage] at fits
    have attached := sound.attach browser.id userId (fits.session authSessionId rfl)
    have later := fits.forward attached.2.sessions
    refine .write attached (SessionStore.origins_attach _ _ _ _) rfl ?_
    split_ifs
    · exact SessionStage.fits_of_none rfl rfl
    · exact ⟨later.session, by simp [SessionStage.legacy]⟩
  | creatingBrowser userId authSessionId =>
    rw [stage] at fits
    have created := sound.createBrowser (now + lifetime) none
    have later := fits.forward created.2.sessions
    refine ⟨created.1, created.2, ⟨later.session, by simp [SessionStage.legacy]⟩, ?_,
      by simp [SessionStage.upgrading]⟩
    right
    left
    simp [SessionStore.origins, SessionStore.createBrowserSession]
  | attachingNew browserId secret userId authSessionId =>
    rw [stage] at fits
    have attached := sound.attach browserId userId (fits.session authSessionId rfl)
    exact .write attached (SessionStore.origins_attach _ _ _ _) rfl
      (SessionStage.fits_of_none rfl rfl)
  | detaching browser userId =>
    exact .write (sound.detach _ _) (SessionStore.origins_detach _ _ _) rfl
      (SessionStage.fits_of_none rfl rfl)
  | revoking browser =>
    exact .write (sound.revokeBrowser _) (SessionStore.origins_revokeBrowser _ _) rfl
      (SessionStage.fits_of_none rfl rfl)
  | findingSession =>
    dsimp only
    split <;> exact .read sound rfl (SessionStage.fits_of_none rfl rfl)
  | revokingSession session =>
    exact .write ⟨sound.revokeSessions _, SessionStore.forward_revokeSessions store _⟩ rfl rfl
      (SessionStage.fits_of_none rfl rfl)
  | ended outcome => exact .read sound rfl (SessionStage.fits_of_none rfl rfl)

theorem lawful_call {world : SessionWorld} (lawful : world.store.Lawful)
    (holds : world.stillHolds request = true) :
    (request.call lifetime world.store now standing).1.Lawful := by
  unfold SessionRequest.call
  unfold SessionWorld.stillHolds at holds
  cases stage : request.stage with
  | resolving =>
    dsimp only
    split
    · exact lawful
    · split
      · split
        · split_ifs <;> exact lawful
        · exact lawful
      · split_ifs <;> exact lawful
  | findingLegacy =>
    dsimp only
    split
    · split
      · split_ifs <;> exact lawful
      · exact lawful
    · exact lawful
  | creatingUpgrade legacy userId expiresAt => exact lawful.createBrowser expiresAt request.cookie
  | attachingUpgrade legacy userId browser =>
    rw [stage] at holds
    exact lawful.attach holds legacy
  | activating browser userId =>
    rw [stage] at holds
    exact lawful.setActive holds
  | rotating browser extend => exact lawful.rotateBrowser _ _ _
  | attaching browser userId authSessionId | attachingNew browserId secret userId authSessionId =>
    rw [stage] at holds
    exact lawful.attach holds authSessionId
  | creatingBrowser userId authSessionId => exact lawful.createBrowser _ _
  | detaching browser userId => exact lawful.detach _ _
  | revoking browser => exact lawful.revokeBrowser _
  | findingSession =>
    dsimp only
    split <;> exact lawful
  | listing browser => exact lawful
  | retiringLegacy legacy browser | issuing browser account | openingSession browser userId
  | revokingSession session =>
    exact ⟨lawful.capped, lawful.active⟩
  | ended outcome => exact lawful

end Call

/-- The tables are sound and every request fits them. -/
structure SessionWorld.Steady (world : SessionWorld) : Prop where
  sound : world.store.Sound
  fits : ∀ (id : ℕ) request, world.requests[id]? = some request →
    request.stage.Fits world.store request.cookie

/-- The laws of the tables hold; a browser upgraded from a legacy cookie is the
only one, and the cookie is forgotten or being retired. -/
structure SessionWorld.Kept (world : SessionWorld) : Prop extends world.Steady where
  lawful : world.store.Lawful
  single : ∀ (one another : ℕ) value, world.store.origins[one]? = some (some value) →
    world.store.origins[another]? = some (some value) → one = another
  known : ∀ value, some value ∈ world.store.origins → value < world.store.fresh
  retired : ∀ value, some value ∈ world.store.origins → world.store.Forgets value ∨
    ∃ (id : ℕ) (request : SessionRequest), world.requests[id]? = some request ∧
      request.cookie = some value ∧ request.stage.upgrading = true

section Runs

variable {world next : SessionWorld} {lifetime : ℚ}

theorem step_call {id : ℕ} {now : ℚ} {standing : Standing}
    (stepped : (sessionMachine lifetime).step world (.call id now standing) = some next) :
    ∃ request, world.requests[id]? = some request ∧
      next.store = (request.call lifetime world.store now standing).1 ∧
      next.requests = world.requests.set id
        { request with stage := (request.call lifetime world.store now standing).2 } := by
  simp only [sessionMachine, SessionWorld.step] at stepped
  split at stepped
  · next request found =>
      cases stepped
      exact ⟨request, found, rfl, rfl⟩
  · simp at stepped

variable {request : SessionRequest}

theorem SessionWorld.Kept.fresh_origin (kept : world.Kept)
    {legacy value : ℕ} {userId : String} {expiresAt : ℚ}
    (stage : request.stage = .creatingUpgrade legacy userId expiresAt)
    (presented : request.cookie = some value) (holds : world.stillHolds request = true) :
    value < world.store.fresh ∧ some value ∉ world.store.origins := by
  simp only [SessionWorld.stillHolds, stage, Bool.and_eq_true, Bool.not_eq_true',
    List.any_eq_false, presented] at holds
  rcases holds with ⟨named, alone⟩
  rcases (Option.any_eq_true _ _).mp named with ⟨session, found, same⟩
  have hash : session.refreshTokenHash = value := by
    simpa using same
  constructor
  · apply kept.sound.drawn.below
    apply List.mem_append_right
    apply List.mem_append_left
    exact hash ▸ List.mem_map_of_mem (List.mem_of_getElem? found)
  · intro member
    rcases kept.retired value member with forgotten | ⟨id, other, there, cookie, upgrading⟩
    · exact forgotten legacy session found hash
    · have quiet := alone other (List.mem_of_getElem? there)
      simp [cookie, upgrading] at quiet

/-- One step keeps the tables sound and moves them forward. -/
theorem SessionWorld.Steady.step {event : SessionEvent} (steady : world.Steady)
    (stepped : (sessionMachine lifetime).step world event = some next) :
    next.Steady ∧ world.store.Forward next.store := by
  cases event with
  | arrive action cookie =>
    cases stepped
    refine ⟨⟨steady.sound, ?_⟩, SessionStore.Forward.refl world.store⟩
    intro id request there
    rcases getElem?_concat_cases there with earlier | ⟨-, rfl⟩
    · exact steady.fits id request earlier
    · exact SessionStage.fits_of_none rfl rfl
  | call id now standing =>
    rcases step_call stepped with ⟨request, found, store, requests⟩
    have called : CallKept world.store request.cookie request.stage
        (request.call lifetime world.store now standing) :=
      callKept steady.sound (steady.fits id request found)
    refine ⟨⟨store ▸ called.sound, ?_⟩, store ▸ called.forward⟩
    intro other later there
    rw [requests, getElem?_set_of_some found] at there
    rw [store]
    split_ifs at there
    · cases there
      exact called.fits
    · exact (steady.fits other later there).forward called.forward.sessions

theorem SessionWorld.Kept.origin_cases {now : ℚ} {standing : Standing} {index value : ℕ}
    (called : CallKept world.store request.cookie request.stage
      (request.call lifetime world.store now standing))
    (there : (request.call lifetime world.store now standing).1.origins[index]? =
      some (some value)) :
    world.store.origins[index]? = some (some value) ∨
      index = world.store.origins.length ∧ request.cookie = some value ∧
        (request.call lifetime world.store now standing).2.upgrading = true ∧
        ∃ legacy userId expiresAt, request.stage = .creatingUpgrade legacy userId expiresAt := by
  rcases called.origins with same | plain | ⟨upgraded, upgrading, stage⟩
  · rw [same] at there
    exact Or.inl there
  · rw [plain] at there
    rcases getElem?_concat_cases there with earlier | ⟨-, impossible⟩
    · exact Or.inl earlier
    · simp at impossible
  · rw [upgraded] at there
    rcases getElem?_concat_cases there with earlier | ⟨last, cookie⟩
    · exact Or.inl earlier
    · exact Or.inr ⟨last, cookie.symm, upgrading, stage⟩

/-- One undisturbed step keeps the laws. -/
theorem SessionWorld.Kept.step {event : SessionEvent} (kept : world.Kept)
    (undisturbed : world.Undisturbed event)
    (stepped : (sessionMachine lifetime).step world event = some next) : next.Kept := by
  have steady := (kept.toSteady.step stepped).1
  cases event with
  | arrive action cookie =>
    cases stepped
    refine ⟨steady, kept.lawful, kept.single, kept.known, ?_⟩
    intro value member
    rcases kept.retired value member with forgotten | ⟨id, request, there, upgrades⟩
    · exact Or.inl forgotten
    · exact Or.inr ⟨id, request, getElem?_concat_of_some there, upgrades⟩
  | call id now standing =>
    rcases step_call stepped with ⟨request, found, store, requests⟩
    have holds := undisturbed request found
    have called : CallKept world.store request.cookie request.stage
        (request.call lifetime world.store now standing) :=
      callKept kept.sound (kept.fits id request found)
    have forward := called.forward.sessions
    rw [← store] at forward
    have goesOn : next.requests[id]? = some
        { request with stage := (request.call lifetime world.store now standing).2 } := by
      rw [requests, getElem?_set_of_some found, if_pos rfl]
    have begins {value : ℕ} (presented : request.cookie = some value)
        (stage : ∃ legacy userId expiresAt,
          request.stage = .creatingUpgrade legacy userId expiresAt) :
        value < world.store.fresh ∧ some value ∉ world.store.origins := by
      rcases stage with ⟨legacy, userId, expiresAt, stage⟩
      exact kept.fresh_origin stage presented holds
    refine ⟨steady, store ▸ lawful_call kept.lawful holds, ?_, ?_, ?_⟩
    · intro one another value oneThere anotherThere
      rw [store] at oneThere anotherThere
      rcases SessionWorld.Kept.origin_cases called oneThere with
        oneOld | ⟨oneLast, presented, -, stage⟩
      · rcases SessionWorld.Kept.origin_cases called anotherThere with
          anotherOld | ⟨-, presented, -, stage⟩
        · exact kept.single one another value oneOld anotherOld
        · exact absurd (List.mem_of_getElem? oneOld) (begins presented stage).2
      · rcases SessionWorld.Kept.origin_cases called anotherThere with
          anotherOld | ⟨anotherLast, -⟩
        · exact absurd (List.mem_of_getElem? anotherOld) (begins presented stage).2
        · omega
    · intro value member
      rw [store] at member
      rcases List.mem_iff_getElem?.mp member with ⟨index, there⟩
      rcases SessionWorld.Kept.origin_cases called there with old | ⟨-, presented, -, stage⟩
      · exact (kept.known value (List.mem_of_getElem? old)).trans_le forward.fresh
      · exact (begins presented stage).1.trans_le forward.fresh
    · intro value member
      rw [store] at member
      rcases List.mem_iff_getElem?.mp member with ⟨index, there⟩
      rcases SessionWorld.Kept.origin_cases called there with
        old | ⟨-, presented, upgrading, -⟩
      · have known := kept.known value (List.mem_of_getElem? old)
        rcases kept.retired value (List.mem_of_getElem? old) with
          forgotten | ⟨other, holder, otherThere, cookie, upgrades⟩
        · exact Or.inl (forward.forgets known forgotten)
        · by_cases same : id = other
          · subst same
            rw [found, Option.some.injEq] at otherThere
            subst otherThere
            rcases called.forgets upgrades with still | forgets
            · exact Or.inr ⟨id, _, goesOn, cookie, still⟩
            · exact Or.inl (store ▸ forgets value cookie)
          · right
            refine ⟨other, holder, ?_, cookie, upgrades⟩
            rw [requests, getElem?_set_of_some found, if_neg same]
            exact otherThere
      · exact Or.inr ⟨id, _, goesOn, presented, upgrading⟩

def SessionWorld.start (legacy : List (String × ℚ × Bool)) : SessionWorld where
  store :=
    { sessions := legacy.mapIdx fun value session =>
        { userId := session.1
          refreshTokenHash := value
          expiresAt := session.2.1
          revoked := session.2.2 }
      fresh := legacy.length }

theorem SessionWorld.Kept.start (legacy : List (String × ℚ × Bool)) :
    (SessionWorld.start legacy).Kept := by
  have values : (SessionWorld.start legacy).store.values = List.range legacy.length := by
    have hashes : (SessionWorld.start legacy).store.sessions.map AuthSession.refreshTokenHash =
        List.range legacy.length := by
      apply List.ext_getElem
      · simp [SessionWorld.start]
      · intro index _ _
        simp [SessionWorld.start]
    unfold SessionStore.values
    rw [hashes]
    simp [SessionWorld.start]
  have drawn : SessionStore.Drawn legacy.length (SessionWorld.start legacy).store.values := by
    rw [values]
    exact ⟨List.nodup_range, fun value member => List.mem_range.mp member⟩
  refine ⟨⟨⟨drawn, ?_, ?_⟩, ?_⟩, ⟨?_, ?_⟩, ?_, ?_, ?_⟩
  all_goals simp [SessionWorld.start, SessionStore.origins]

/-- Browser sessions with concurrent tabs: cookie values are replaced and legacy cookies upgraded at
most once, and what was replaced, left or retired stays so. -/
theorem browser_sessions_keep_their_laws {legacy : List (String × ℚ × Bool)}
    {events : List SessionEvent}
    (along : (sessionMachine lifetime).Along SessionWorld.Undisturbed (.start legacy) events)
    (ran : (sessionMachine lifetime).run (.start legacy) events = some world) :
    world.store.replaced.Nodup ∧
    (∀ (one another : ℕ) first second value, world.store.browsers[one]? = some first →
      world.store.browsers[another]? = some second → first.upgradedFrom = some value →
      second.upgradedFrom = some value → one = another) ∧
    (∀ (id : ℕ) row, world.store.browsers[id]? = some row →
      row.accounts.length ≤ maxAccountsPerBrowser ∧
      ∀ userId, row.activeUserId = some userId →
        ∃ account ∈ row.accounts, account.userId = userId) ∧
    ∀ more later, (sessionMachine lifetime).run world more = some later →
      (∀ value ∈ world.store.replaced, later.store.getBrowserSession value = none ∧
        later.store.getSessionByTokenHash value = none) ∧
      ∀ (id : ℕ) row, world.store.browsers[id]? = some row →
        ∃ after, later.store.browsers[id]? = some after ∧
          (∀ account ∈ row.accounts, account ∉ after.accounts →
            later.store.SessionRevoked account.authSessionId) ∧
          (row.accounts ≠ [] → after.accounts = [] → after.revoked = true) := by
  have kept : world.Kept := Machine.run_invariant_along SessionWorld.Undisturbed
    (fun _ _ _ kept undisturbed stepped => kept.step undisturbed stepped)
    (SessionWorld.Kept.start legacy) along ran
  refine ⟨kept.sound.replaced_once, ?_, ?_, ?_⟩
  · intro one another first second value oneThere anotherThere firstFrom secondFrom
    apply kept.single one another value
    · simp [SessionStore.origins, oneThere, firstFrom]
    · simp [SessionStore.origins, anotherThere, secondFrom]
  · intro id row found
    refine ⟨kept.lawful.capped id row found, ?_⟩
    intro userId active
    have held := accountOf_isSome.mp (kept.lawful.active id row userId found active)
    simpa using held
  · intro more later ranOn
    have forward : later.Steady ∧ world.store.Forward later.store := by
      apply Machine.run_invariant _ _ ranOn
      · intro state event after holds stepped
        exact ⟨(holds.1.step stepped).1, holds.2.trans (holds.1.step stepped).2⟩
      · exact ⟨kept.toSteady, SessionStore.Forward.refl world.store⟩
    refine ⟨fun value member =>
      forward.1.sound.replaced_unknown (forward.2.sessions.replaced member), ?_⟩
    intro id row found
    rcases forward.2.browser id row found with ⟨after, there, -, accounts, emptied⟩
    refine ⟨after, there, ?_, emptied⟩
    intro account member left
    rcases accounts account member with stays | gone
    · exact absurd stays left
    · exact gone

/-- The next steps of a request, with a fresh token each. -/
def calls (id count : ℕ) : List SessionEvent := List.replicate count (.call id 0 ⟨true, false⟩)

def legacyRefreshes : List SessionEvent :=
  [.arrive .refresh (some 0)] ++ calls 0 9 ++ [.arrive .refresh (some 0)] ++ calls 1 2

def annLeaves : List SessionEvent := .arrive (.removeAccount "ann") (some 4) :: calls 2 3

/-- A legacy cookie is presented twice, one refresh after the other, and the
account is then removed from the browser: its session is revoked. -/
theorem browser_sessions_keep_their_laws_legacy_cookie : ∃ world later row,
      (sessionMachine 30).run (.start [("ann", 10, false)]) legacyRefreshes = some world ∧
      (sessionMachine 30).run world annLeaves = some later ∧
      world.store.browsers[0]? = some row ∧ row.accounts = [⟨"ann", 0⟩] ∧
      later.store.SessionRevoked 0 := by
  have along : (sessionMachine 30).Along SessionWorld.Undisturbed (.start [("ann", 10, false)])
      legacyRefreshes := by
    decide +kernel
  have seen : ((sessionMachine 30).run (.start [("ann", 10, false)]) legacyRefreshes).bind
      (fun world => ((sessionMachine 30).run world annLeaves).map fun later =>
        (world.store.browsers.map BrowserRow.accounts,
          later.store.browsers.map BrowserRow.accounts)) =
      some ([[⟨"ann", 0⟩]], [[]]) := by
    decide +kernel
  rcases Option.bind_eq_some_iff.mp seen with ⟨world, ran, seen⟩
  rcases Option.map_eq_some_iff.mp seen with ⟨later, ranOn, seen⟩
  rcases Prod.mk.inj seen with ⟨before, after⟩
  have there : (world.store.browsers.map BrowserRow.accounts)[0]? = some [⟨"ann", 0⟩] := by
    simp [before]
  rw [List.getElem?_map] at there
  rcases Option.map_eq_some_iff.mp there with ⟨row, found, accounts⟩
  have laws := (browser_sessions_keep_their_laws along ran).2.2.2 _ later ranOn
  rcases laws.2 0 row found with ⟨last, lastFound, leaves, -⟩
  have lastThere : (later.store.browsers.map BrowserRow.accounts)[0]? = some last.accounts := by
    simp [lastFound]
  have emptied : last.accounts = [] := by
    simpa [after] using lastThere.symm
  refine ⟨world, later, row, ran, ranOn, found, accounts, ?_⟩
  exact leaves ⟨"ann", 0⟩ (by simp [accounts]) (by simp [emptied])

/-- Two requests upgrade one legacy cookie, a switch activates an account that
was removed meanwhile, and two sign-ins that both found room fill a browser with
six accounts. -/
theorem browser_session_laws_broken_by_races :
    ((sessionMachine 30).run (.start [("ann", 10, false)])
        ([.arrive .refresh (some 0), .arrive .refresh (some 0)] ++ calls 0 3 ++ calls 1 3)).map
        (fun world => world.store.browsers.map BrowserRow.upgradedFrom) =
      some [some 0, some 0] ∧
    ((sessionMachine 30).run (.start []) ([.arrive (.login "ann") none] ++ calls 0 4 ++
          [.arrive (.login "bob") (some 1)] ++ calls 1 5 ++
          [.arrive (.switchAccount "bob" true) (some 3)] ++ calls 2 3 ++
          [.arrive (.removeAccount "bob") (some 3)] ++ calls 3 3 ++ calls 2 1)).map
        (fun world => world.store.browsers.map fun row => (row.activeUserId, row.accounts)) =
      some [(some "bob", [⟨"ann", 0⟩])] ∧
    ((sessionMachine 30).run (.start [])
        ([.arrive (.login "a") none] ++ calls 0 4 ++ [.arrive (.login "b") (some 1)] ++
          calls 1 5 ++ [.arrive (.login "c") (some 3)] ++ calls 2 5 ++
          [.arrive (.login "d") (some 5)] ++ calls 3 5 ++
          [.arrive (.login "e") (some 7), .arrive (.login "f") (some 7)] ++
          calls 4 3 ++ calls 5 4 ++ calls 4 1)).map
        (fun world => world.store.browsers.map fun row => row.accounts.length) =
      some [6] := by
  decide +kernel

end Runs

end HybridInference.Accounts
