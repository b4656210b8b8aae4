import OdooSemantic.WebUi.Totp

/-!
# Revoked sessions

A session is a signed cookie and a row of `active_sessions`.  The middleware looks the row up,
but lets everything under `/api/auth/` pass; of the handlers there only `verify` looks it up.
-/

set_option autoImplicit false

namespace OdooSemantic.WebUi.Revocation

open Lib.Run WebUi.Admins WebUi.Totp

structure SessionRow where
  sessionId : Nat
  userId : Nat
  expiresAt : Nat

structure Cookie extends Session where
  sessionId : Option Nat
  sessionAt : Nat

/-- A fresh session id has not been given out before. -/
structure State extends Totp.State where
  sessions : List SessionRow
  nextSession : Nat

inductive Event where
  | createSession (userId ttl now : Nat)
  | revokeSession (sessionId : Nat)
  | revokeAllSessions (userId : Nat)
  | addUser (user : WebUser)
  | setActive (userId : Nat) (isActive : Bool)
  | deleteUser (userId : Nat)
  | totp (request : Totp.Request)

/-- `logout` revokes one session; a login, a password reset, a deactivation and an erasure revoke
all of the user; the rows of a deleted user go with it. -/
def step (env : Totp.Env) (state : State) : Event → State
  | .createSession userId ttl now =>
      if hasUser state.users userId then
        { state with
          sessions := state.sessions ++ [⟨state.nextSession, userId, now + ttl⟩]
          nextSession := state.nextSession + 1 }
      else state
  | .revokeSession sessionId =>
      { state with sessions := state.sessions.filter (·.sessionId != sessionId) }
  | .revokeAllSessions userId =>
      { state with sessions := state.sessions.filter (·.userId != userId) }
  | .addUser user => { state with users := state.users ++ [user] }
  | .setActive userId isActive =>
      { state with
        users := state.users.map fun user => if user.id = userId then { user with isActive } else user }
  | .deleteUser userId =>
      { state with
        users := state.users.filter (·.id != userId)
        sessions := state.sessions.filter (·.userId != userId) }
  | .totp request => { state with toState := Totp.step env state.toState request }

/-- No session has been created. -/
def initial (users : List WebUser) : State :=
  { users, totp := fun _ => none, sessions := [], nextSession := 0 }

def Revoked (state : State) (sessionId : Nat) : Prop :=
  sessionId < state.nextSession ∧ ∀ row ∈ state.sessions, row.sessionId ≠ sessionId

inductive Method where
  | get
  | post
  | other

structure Request where
  method : Method
  path : String
  cookie : Cookie
  now : Nat
  sessionLookupFails : Bool
  userLookupFails : Bool

/-- The settings, and when an account was created. -/
structure Config where
  testBypass : Bool
  sessionTtl : Nat
  mfaGraceDays : Nat
  createdAt : Nat → Option Nat

inductive Treatment where
  | refused (status : Nat) (error : String)
  | anonymous
  | bypassed
  | asUser (username : String)
  deriving DecidableEq

def exemptExact : List String :=
  ["/health", "/api/health", "/openapi.json", "/docs", "/redoc", "/api/waitlist",
    "/api/webhooks/polar", "/api/plans", "/api/site-config"]

def exemptPrefix : String := "/api/auth/"

def mfaSetupPaths : List String :=
  ["/api/auth/totp/setup", "/api/auth/totp/verify", "/api/auth/totp/status"]

def isExempt (path : String) : Bool :=
  exemptExact.contains path || path.startsWith exemptPrefix

section Checks
variable (config : Config) (state : State) (request : Request)

/-- `_session_valid`: the username of a cookie that is young enough. -/
def sessionValid : Option String :=
  request.cookie.username.filter fun username =>
    username != "" && request.cookie.sessionAt != 0 &&
      decide (request.cookie.sessionAt ≤ request.now) &&
      decide (request.now - request.cookie.sessionAt < config.sessionTtl)

def lookupSession (sessionId : Nat) : Option SessionRow :=
  if request.sessionLookupFails then none
  else state.sessions.find? fun row =>
    row.sessionId == sessionId && decide (request.now < row.expiresAt)

def checkMfaEnforcement (username : String) : Bool :=
  if request.userLookupFails then false
  else
    (state.users.find? (·.username == username)).any fun user =>
      user.isAdmin && !(state.totp user.id).any (·.enabled) &&
        (config.createdAt user.id).any fun createdAt =>
          decide (config.mfaGraceDays * 86400 ≤ request.now - createdAt)

inductive Handler where
  | changePassword
  | verifySession
  | totp
  | stepUp
  | noSession
  deriving DecidableEq

/-- `setup`, `verify`, `disable` and `status` of the TOTP routes begin alike; the handlers that
are left do not read who the cookie is for. -/
def handlerOf (method : Method) (path : String) : Handler :=
  match method, path with
  | .post, "/api/auth/change-password" => .changePassword
  | .get, "/api/auth/verify" => .verifySession
  | .post, "/api/auth/totp/setup" => .totp
  | .post, "/api/auth/totp/verify" => .totp
  | .post, "/api/auth/totp/disable" => .totp
  | .get, "/api/auth/totp/status" => .totp
  | .post, "/api/auth/totp/step-up" => .stepUp
  | _, _ => .noSession

/-- `current_user_id`. -/
def requestUserId : Option Nat :=
  if config.testBypass then some 1
  else if request.userLookupFails then request.cookie.userId
  else currentUserId state.toState request.cookie.toSession

def usernameOf (userId : Nat) : Option String :=
  (state.users.find? (·.id == userId)).map (·.username)

def changePassword : Treatment :=
  match sessionValid config request, requestUserId config state request with
  | some username, some _ => .asUser username
  | _, _ => .refused 401 "not_authenticated"

def verifySession : Treatment :=
  if config.testBypass then .bypassed
  else
    match sessionValid config request with
    | none => .refused 401 "not_authenticated"
    | some username =>
        match request.cookie.sessionId with
        | none => .asUser username
        | some sessionId =>
            if (lookupSession state request sessionId).isSome then .asUser username
            else .refused 401 "not_authenticated"

def totpEndpoint : Treatment :=
  match request.cookie.username.filter (· != "") with
  | none =>
      if config.testBypass then .refused 404 "user_not_found" else .refused 401 "not_authenticated"
  | some username =>
      if request.userLookupFails then .refused 500 "internal_error"
      else if (resolveUserId state.toState request.cookie.toSession).isSome then .asUser username
      else .refused 404 "user_not_found"

def totpStepUp : Treatment :=
  match requestUserId config state request with
  | none => .refused 401 "not_authenticated"
  | some userId =>
      if request.userLookupFails then .refused 500 "internal_error"
      else
        match usernameOf state userId with
        | none => .refused 404 "user_not_found"
        | some username => if config.testBypass then .bypassed else .asUser username

def authHandler : Treatment :=
  match handlerOf request.method request.path with
  | .changePassword => changePassword config state request
  | .verifySession => verifySession config state request
  | .totp => totpEndpoint config state request
  | .stepUp => totpStepUp config state request
  | .noSession => .anonymous

/-- `AuthRequiredMiddleware.dispatch`, and what the handler behind it takes the request for. -/
def dispatch : Treatment :=
  if isExempt request.path then
    if request.path.startsWith exemptPrefix then authHandler config state request else .anonymous
  else if config.testBypass then .bypassed
  else
    match sessionValid config request with
    | none => .refused 401 "not_authenticated"
    | some username =>
        if request.cookie.sessionId.any fun sessionId =>
            (lookupSession state request sessionId).isNone then
          .refused 401 "not_authenticated"
        else if !mfaSetupPaths.contains request.path &&
            checkMfaEnforcement config state request username then .refused 403 "mfa_required"
        else .asUser username

/-- The request is for a handler that goes by the cookie alone, and its own test accepts it. -/
def cookieSuffices : Bool :=
  match handlerOf request.method request.path with
  | .changePassword =>
      (sessionValid config request).isSome && (requestUserId config state request).isSome
  | .totp =>
      !request.userLookupFails && (resolveUserId state.toState request.cookie.toSession).isSome
  | .stepUp =>
      !config.testBypass && !request.userLookupFails &&
        ((requestUserId config state request).bind (usernameOf state)).isSome
  | .verifySession => false
  | .noSession => false

end Checks

section Runs
variable {env : Totp.Env} {state : State} {sessionId : Nat}

theorem Revoked.step (revoked : Revoked state sessionId) (event : Event) :
    Revoked (Revocation.step env state event) sessionId := by
  obtain ⟨known, gone⟩ := revoked
  cases event with
  | createSession userId ttl now =>
      simp only [Revocation.step]
      split
      · refine ⟨by simp only; omega, fun row member => ?_⟩
        rcases List.mem_append.mp member with old | new
        · exact gone row old
        · rw [List.mem_singleton.mp new]
          simp only
          omega
      · exact ⟨known, gone⟩
  | revokeSession other | deleteUser userId => exact ⟨known, fun row member => gone row (List.mem_of_mem_filter member)⟩
  | revokeAllSessions userId =>
      exact ⟨known, fun row member => gone row (List.mem_of_mem_filter member)⟩
  | addUser user | setActive userId isActive | totp request => exact ⟨known, gone⟩

theorem Revoked.run (revoked : Revoked state sessionId) (events : List Event) :
    Revoked (Lib.Run.run (Revocation.step env) state events) sessionId :=
  run_preserves _ (fun state => Revoked state sessionId)
    (fun _ event revoked => revoked.step event) state revoked events

theorem Revoked.lookup (revoked : Revoked state sessionId) (request : Request) :
    lookupSession state request sessionId = none := by
  unfold lookupSession
  split
  · rfl
  · refine List.find?_eq_none.mpr fun row member => ?_
    have other := revoked.2 row member
    simp [other]

theorem handlerOf_exempt {method : Method} {path : String}
    (reads : handlerOf method path ≠ .noSession) : path.startsWith exemptPrefix = true := by
  unfold handlerOf at reads
  split at reads
  · decide +kernel
  · decide +kernel
  · decide +kernel
  · decide +kernel
  · decide +kernel
  · decide +kernel
  · decide +kernel
  · exact absurd rfl reads

section Handlers
variable (config : Config) (state : State) (request : Request)

theorem changePassword_iff : (∃ username, changePassword config state request = .asUser username) ↔
    ((sessionValid config request).isSome && (requestUserId config state request).isSome) = true := by
  unfold changePassword
  cases sessionValid config request with
  | none => simp
  | some username =>
      cases requestUserId config state request with
      | none | some userId => simp

theorem totpEndpoint_iff : (∃ username, totpEndpoint config state request = .asUser username) ↔
    (!request.userLookupFails &&
      (resolveUserId state.toState request.cookie.toSession).isSome) = true := by
  unfold totpEndpoint
  cases named : request.cookie.username.filter (· != "") with
  | none =>
      have unresolved : resolveUserId state.toState request.cookie.toSession = none := by
        unfold resolveUserId
        cases given : request.cookie.username with
        | none => rfl
        | some username =>
            have empty : username = "" := by simpa [given, Option.filter] using named
            simp [empty]
      simp only [unresolved]
      split
      · simp
      · simp
  | some username =>
      cases request.userLookupFails with
      | true => simp
      | false =>
          cases resolveUserId state.toState request.cookie.toSession with
          | none | some userId => simp

theorem totpStepUp_iff : (∃ username, totpStepUp config state request = .asUser username) ↔
    (!config.testBypass && !request.userLookupFails &&
      ((requestUserId config state request).bind (usernameOf state)).isSome) = true := by
  unfold totpStepUp
  cases requestUserId config state request with
  | none => simp
  | some userId =>
      simp only [Option.bind_some]
      cases request.userLookupFails with
      | true => simp
      | false =>
          cases usernameOf state userId with
          | none => simp
          | some username =>
              cases config.testBypass with
              | true | false => simp

theorem verifySession_refuses {sessionId : Nat} (revoked : Revoked state sessionId)
    (carries : request.cookie.sessionId = some sessionId) (username : String) :
    verifySession config state request ≠ .asUser username := by
  intro accepted
  unfold verifySession at accepted
  split at accepted
  · cases accepted
  · split at accepted
    · cases accepted
    · simp [carries, revoked.lookup request] at accepted

end Handlers

theorem dispatch_iff (config : Config) (request : Request) (revoked : Revoked state sessionId)
    (carries : request.cookie.sessionId = some sessionId) :
    (∃ username, dispatch config state request = .asUser username) ↔
      cookieSuffices config state request = true := by
  unfold dispatch
  by_cases inside : request.path.startsWith exemptPrefix = true
  · have exempt : isExempt request.path = true := by simp [isExempt, inside]
    rw [if_pos exempt, if_pos inside]
    unfold authHandler cookieSuffices
    cases handlerOf request.method request.path with
    | changePassword => exact changePassword_iff config state request
    | totp => exact totpEndpoint_iff config state request
    | stepUp => exact totpStepUp_iff config state request
    | verifySession =>
        refine ⟨fun ⟨username, accepted⟩ => ?_, fun never => by cases never⟩
        exact absurd accepted (verifySession_refuses config state request revoked carries username)
    | noSession => simp
  · have unread : handlerOf request.method request.path = .noSession := by
      by_contra reads
      exact inside (handlerOf_exempt reads)
    have never : cookieSuffices config state request = false := by
      unfold cookieSuffices
      rw [unread]
    rw [never]
    refine ⟨fun ⟨username, accepted⟩ => ?_, fun never => by cases never⟩
    split at accepted
    · cases accepted
    · split at accepted
      · cases accepted
      · split at accepted
        · cases accepted
        · simp [carries, revoked.lookup request] at accepted

end Runs

/-- For every session whose row was deleted, every continuation of the run and every request
that carries its cookie: the request counts as its user's exactly where the cookie alone
suffices. -/
theorem revoked_accepted_iff (env : Totp.Env) (config : Config) (users : List WebUser)
    (earlier later : List Event) (sessionId : Nat)
    (revoked : Revoked (run (step env) (initial users) earlier) sessionId) (request : Request)
    (carries : request.cookie.sessionId = some sessionId) :
    (∃ username, dispatch config (run (step env) (initial users) (earlier ++ later)) request =
        .asUser username) ↔
      cookieSuffices config (run (step env) (initial users) (earlier ++ later)) request = true := by
  rw [run_append]
  exact dispatch_iff config request (revoked.run later) carries

def anna : WebUser :=
  { id := 1, username := "anna", passwordHash := some "hash", email := none, isAdmin := false
    isActive := true, mfaEnabled := false }

def settings : Config :=
  { testBypass := false, sessionTtl := 28800, mfaGraceDays := 7, createdAt := fun _ => some 0 }

def deactivated : List Event :=
  [.createSession 1 28800 1000, .setActive 1 false, .revokeAllSessions 1]

def annaPosts (path : String) : Request :=
  { method := .post, path
    cookie := { username := some "anna", userId := some 1, sessionId := some 0, sessionAt := 1000 }
    now := 2000, sessionLookupFails := false, userLookupFails := false }

theorem revoked_after_deactivation :
    Revoked (run (step plainEnv) (initial [anna]) deactivated) 0 :=
  ⟨by decide +kernel, by decide +kernel⟩

theorem keys_path_refuses_revoked : ¬ ∃ username,
    dispatch settings (run (step plainEnv) (initial [anna]) (deactivated ++ []))
      (annaPosts "/api/keys") = .asUser username :=
  fun accepted => by
    have suffices' := (revoked_accepted_iff plainEnv settings [anna] deactivated [] 0
      revoked_after_deactivation (annaPosts "/api/keys") rfl).mp accepted
    exact absurd suffices' (by decide +kernel)

theorem deactivated_user_changes_password :
    Revoked (run (step plainEnv) (initial [anna]) deactivated) 0 ∧
      dispatch settings (run (step plainEnv) (initial [anna]) deactivated)
        (annaPosts "/api/auth/change-password") = .asUser "anna" ∧
      dispatch settings (run (step plainEnv) (initial [anna]) deactivated)
        (annaPosts "/api/auth/totp/setup") = .asUser "anna" :=
  ⟨revoked_after_deactivation, by decide +kernel, by decide +kernel⟩

end OdooSemantic.WebUi.Revocation
