import OdooSemantic.WebUi.Totp

/-!
# Which logins insert a session

Four endpoints insert into `active_sessions`.  The password login looks at `is_active` and at
the second factor, its second step at the code alone, an OAuth login at `is_active` alone and a
verification link at neither; what they saw may have changed when the row is inserted.
-/

set_option autoImplicit false

namespace OdooSemantic.WebUi.Sessions

open Lib.Run WebUi.Admins
open WebUi.Totp (TotpRow BackupCode upsertTotpSecret enableTotp deleteTotp
  verifyTotpOrBackup checkTotpEnabled)

/-! ## Tables and requests -/

structure MfaToken where
  userId : Nat
  expiresAt : Nat
  deriving DecidableEq

structure Verification where
  token : String
  userId : Nat
  expiresAt : Nat
  used : Bool

inductive Factor where
  | verified
  | lookFailed
  | unasked
  deriving DecidableEq

structure Insertion where
  userId : Nat
  active : Bool
  enrolled : Bool
  factor : Factor
  deriving DecidableEq

structure OAuthBody where
  provider : String
  oauthId : String
  email : String
  emailVerified : Bool
  suffix : String
  signupEnabled : Bool

inductive Request where
  | login (username password : String)
  | totpLogin (token : MfaToken) (code backupCode : Option String)
  | oauthLogin (body : OAuthBody)
  | verifyEmail (token : String)

/-- Where a login stands between two statements. -/
inductive Phase where
  | idle
  | begun (request : Request)
  | passwordOk (username : String) (userId : Nat)
  | factorless (userId : Nat) (factor : Factor)
  | tokenOk (userId : Nat) (code backupCode : Option String)
  | userFound (userId : Nat) (code backupCode : Option String)
  | factorRead (userId : Nat) (row : TotpRow) (code backupCode : Option String)
  | identityUnknown (body : OAuthBody)
  | emailMatched (userId : Nat) (isActive : Bool) (body : OAuthBody)
  | emailUnknown (body : OAuthBody)
  | opening (userId : Nat) (factor : Factor)
  | ended

/-- `issued` holds the signed tokens, `inserted` the history of `active_sessions`. -/
structure State extends Totp.State where
  nextUser : Nat
  oauth : Nat → Option (String × String)
  verifications : List Verification
  sessions : List Nat
  issued : List MfaToken
  inserted : List Insertion
  clock : Nat
  started : Nat
  phase : Nat → Phase

namespace State
variable (state : State)

def isActive (userId : Nat) : Bool := (state.users.find? (·.id == userId)).any (·.isActive)

def enrolled (userId : Nat) : Bool := (state.totp userId).any (·.enabled)

def setPhase (thread : Nat) (next : Phase) : State :=
  { state with phase := Function.update state.phase thread next }

/-- The `INSERT` of a session; its foreign key needs the user. -/
def createSession (userId : Nat) (factor : Factor) : State :=
  if hasUser state.users userId then
    { state with
      sessions := state.sessions ++ [userId]
      inserted := state.inserted ++
        [⟨userId, state.isActive userId, state.enrolled userId, factor⟩] }
  else state

def revokeAllUserSessions (userId : Nat) : State :=
  { state with sessions := state.sessions.filter (· != userId) }

def setActive (userId : Nat) (isActive : Bool) : State :=
  { state with
    users := state.users.map fun user => if user.id = userId then { user with isActive } else user }

def lookupUserByOAuth (body : OAuthBody) : Option WebUser :=
  state.users.find? fun user => state.oauth user.id == some (body.provider, body.oauthId)

def lookupUserByEmail (lower : String → String) (body : OAuthBody) : Option WebUser :=
  state.users.find? fun user => user.email.any fun email => lower email == lower body.email

def mergeOAuth (userId : Nat) (body : OAuthBody) : State :=
  { state with oauth := Function.update state.oauth userId (some (body.provider, body.oauthId)) }

def oauthUsername (body : OAuthBody) : String :=
  String.ofList ((body.email.toList.takeWhile (· != '@')).take 40) ++ "_" ++ body.suffix

/-- A new row without a password. -/
def createOAuthUser (body : OAuthBody) : State :=
  { state with
    users := state.users ++
      [{ id := state.nextUser, username := oauthUsername body, passwordHash := none
         email := some body.email, isAdmin := false, isActive := true, mfaEnabled := false }]
    oauth := Function.update state.oauth state.nextUser (some (body.provider, body.oauthId))
    nextUser := state.nextUser + 1 }

/-- An unused and unexpired row. -/
def link (token : String) : Option Verification :=
  (state.verifications.find? (·.token == token)).filter fun row =>
    !row.used && !decide (row.expiresAt < state.clock)

def useLink (token : String) : State :=
  { state with
    verifications := state.verifications.map fun row =>
      if row.token = token then { row with used := true } else row }

end State

section Steps
variable (env : Totp.Env) (lower : String → String) (state : State)

/-- The tables and the phase after the next statement.  `fails` is a refusal before it or an
error in it; some lookups take an error for an absent row. -/
def advance (fails : Bool) : Phase → State × Phase
  | .begun (.login username password) =>
      match state.users.find? (·.username == username) with
      | none => (state, .ended)
      | some user =>
          if fails || !env.passwordOk password (user.passwordHash.getD env.dummyHash) ||
              !user.isActive || env.commonPasswords.contains password then (state, .ended)
          else (state, .passwordOk username user.id)
  | .passwordOk username userId =>
      -- `_check_totp_enabled` returns None on any error
      if fails then (state, .factorless userId .lookFailed)
      else
        match checkTotpEnabled state.toState username with
        | some totpUserId =>
            ({ state with issued := state.issued ++ [⟨totpUserId, state.clock + 300⟩] }, .ended)
        | none => (state, .factorless userId .unasked)
  | .factorless userId factor =>
      (if fails then state else state.revokeAllUserSessions userId, .opening userId factor)
  | .begun (.totpLogin token code backupCode) =>
      if state.issued.contains token && !decide (token.expiresAt < state.clock) then
        (state, .tokenOk token.userId code backupCode)
      else (state, .ended)
  | .tokenOk userId code backupCode =>
      if fails || !hasUser state.users userId then (state, .ended)
      else (state, .userFound userId code backupCode)
  | .userFound userId code backupCode =>
      match if fails then none else (state.totp userId).filter (·.enabled) with
      | none => (state, .ended)
      | some row => (state, .factorRead userId row code backupCode)
  | .factorRead userId row code backupCode =>
      if fails then (state, .ended)
      else
        match verifyTotpOrBackup env state.toState userId row code backupCode state.clock with
        | (next, none) => ({ state with toState := next }, .opening userId .verified)
        | (next, some _) => ({ state with toState := next }, .ended)
  | .begun (.oauthLogin body) =>
      match if fails then none else state.lookupUserByOAuth body with
      | some user => (state, if user.isActive then .opening user.id .unasked else .ended)
      | none => (state, .identityUnknown body)
  | .identityUnknown body =>
      match if fails then none else state.lookupUserByEmail lower body with
      | some user =>
          (state, if body.emailVerified then .emailMatched user.id user.isActive body else .ended)
      | none => (state, if body.signupEnabled then .emailUnknown body else .ended)
  | .emailMatched userId isActive body =>
      if fails then (state, .ended)
      else (state.mergeOAuth userId body, if isActive then .opening userId .unasked else .ended)
  | .emailUnknown body =>
      -- the uniqueness of usernames and of addresses
      if fails || state.users.any (fun user =>
          user.username == State.oauthUsername body || user.email == some body.email) then
        (state, .ended)
      else (state.createOAuthUser body, .opening state.nextUser .unasked)
  | .begun (.verifyEmail token) =>
      match if fails then none else state.link token with
      | none => (state, .ended)
      | some row =>
          if hasUser state.users row.userId then
            (state.useLink token, .opening row.userId .unasked)
          else (state, .ended)
  | .opening userId factor =>
      (if fails then state else state.createSession userId factor, .ended)
  | .idle => (state, .idle)
  | .ended => (state, .ended)

end Steps

/-- Logins, the writes of the TOTP endpoints and the (de)activation of a user. -/
inductive Event where
  | begin (request : Request)
  | act (thread : Nat) (fails : Bool)
  | setActive (userId : Nat) (isActive : Bool)
  | upsertTotpSecret (userId : Nat) (secretEncrypted : String)
  | enableTotp (userId : Nat) (hashedCodes : List BackupCode)
  | deleteTotp (userId : Nat)
  | tick (seconds : Nat)

def step (env : Totp.Env) (lower : String → String) (state : State) : Event → State
  | .begin request =>
      { state with
        started := state.started + 1
        phase := Function.update state.phase state.started (.begun request) }
  | .act thread fails =>
      let (next, phase) := advance env lower state fails (state.phase thread)
      next.setPhase thread phase
  | .setActive userId isActive => state.setActive userId isActive
  | .upsertTotpSecret userId secretEncrypted =>
      if hasUser state.users userId then
        { state with toState := upsertTotpSecret state.toState userId secretEncrypted }
      else state
  | .enableTotp userId hashedCodes =>
      { state with toState := enableTotp state.toState userId hashedCodes }
  | .deleteTotp userId => { state with toState := deleteTotp state.toState userId }
  | .tick seconds => { state with clock := state.clock + seconds }

/-- A session is inserted for an active user, and with a code for an enrolled one. -/
def Lawful (state : State) : Prop :=
  ∀ insertion ∈ state.inserted,
    insertion.active = true ∧ (insertion.enrolled = true → insertion.factor = .verified)

def LawfulFor (userId : Nat) (state : State) : Prop :=
  ∀ insertion ∈ state.inserted, insertion.userId = userId →
    insertion.active = true ∧
      (insertion.enrolled = true → insertion.factor = .verified ∨ insertion.factor = .lookFailed)

/-- The user of a login that has looked at `is_active`, or whose token was issued after that. -/
def Phase.admits : Phase → Option Nat
  | .passwordOk _ userId => some userId
  | .factorless userId _ => some userId
  | .tokenOk userId _ _ => some userId
  | .userFound userId _ _ => some userId
  | .factorRead userId _ _ _ => some userId
  | .emailMatched userId true _ => some userId
  | .opening userId _ => some userId
  | _ => none

/-- The user of a login that takes the user for one without a second factor. -/
def Phase.codeless : Phase → Option Nat
  | .factorless userId .unasked => some userId
  | .emailMatched userId _ _ => some userId
  | .opening userId .unasked => some userId
  | _ => none

namespace State
variable (state : State) (userId : Nat)

def underway (test : Phase → Option Nat) : Bool :=
  (List.range state.started).any fun thread => test (state.phase thread) == some userId

def tokenOut : Bool :=
  state.issued.any fun token => token.userId == userId && !decide (token.expiresAt < state.clock)

end State

/-- The user is not deactivated past the look at `is_active` of a login of theirs or while a token
of theirs is out, nor enrolled past or without a look at the second factor, and uses OAuth logins
and links only without a second factor, links only when active. -/
def steady (lower : String → String) (userId : Nat) (state : State) : Event → Bool
  | .setActive other false =>
      other != userId || (!state.underway userId Phase.admits && !state.tokenOut userId)
  | .enableTotp other _ => other != userId || !state.underway userId Phase.codeless
  | .act thread fails =>
      match state.phase thread with
      | .begun (.oauthLogin body) =>
          fails || (state.lookupUserByOAuth body).all fun user =>
            user.id != userId || !state.enrolled userId
      | .identityUnknown body =>
          fails || (state.lookupUserByEmail lower body).all fun user =>
            user.id != userId || !state.enrolled userId
      | .begun (.verifyEmail token) =>
          fails || (state.link token).all fun row =>
            row.userId != userId || (state.isActive userId && !state.enrolled userId)
      | _ => true
  | _ => true

/-- Ids are given out once, and only a user has a row of `totp_secrets`. -/
structure Stored (state : State) : Prop where
  ids : (state.users.map (·.id)).Nodup
  below : ∀ user ∈ state.users, user.id < state.nextUser
  rows : ∀ userId, state.nextUser ≤ userId → state.totp userId = none

section Invariant
variable (userId : Nat) (state : State)

structure Holds (phase : Phase) : Prop where
  admits : phase.admits = some userId → state.isActive userId = true
  codeless : phase.codeless = some userId → state.enrolled userId = false
  named : ∀ username other, phase = .passwordOk username other →
    (state.users.find? (·.username == username)).map (·.id) = some other

def TokensActive : Prop :=
  ∀ token ∈ state.issued, token.userId = userId → state.clock ≤ token.expiresAt →
    state.isActive userId = true

structure Sound : Prop where
  stored : Stored state
  begun : ∀ thread, state.started ≤ thread → state.phase thread = .idle
  phases : ∀ thread, Holds userId state (state.phase thread)
  tokens : TokensActive userId state
  lawful : LawfulFor userId state

end Invariant

section Lookups
variable {who : Nat} {state : State}

theorem Stored.isActive (stored : Stored state) {user : WebUser} (userIn : user ∈ state.users) :
    state.isActive user.id = user.isActive := by
  cases found : state.users.find? (·.id == user.id) with
  | none => simpa using List.find?_eq_none.mp found user userIn
  | some other =>
      have same : other.id = user.id := by simpa using List.find?_some found
      rw [State.isActive, found, Option.any_some,
        eq_of_id stored.ids (List.mem_of_find?_eq_some found) userIn same]

theorem Stored.isActive_of (stored : Stored state) {user : WebUser} {body : OAuthBody}
    {userId : Nat} (admits : (Phase.emailMatched user.id user.isActive body).admits = some userId)
    (userIn : user ∈ state.users) : state.isActive userId = true := by
  cases active : user.isActive with
  | false =>
      rw [active] at admits
      cases admits
  | true =>
      rw [active] at admits
      rw [← Option.some.inj admits, stored.isActive userIn]
      exact active

theorem Holds.plain {phase : Phase} (admits : phase.admits = none)
    (codeless : phase.codeless = none) : Holds who state phase := by
  refine ⟨?_, ?_, ?_⟩
  · intro same
    rw [admits] at same
    cases same
  · intro same
    rw [codeless] at same
    cases same
  · rintro username userId rfl
    cases admits

theorem Holds.of_user {phase : Phase} {userId : Nat} (admits : phase.admits = some userId)
    (active : userId = who → state.isActive who = true)
    (codeless : phase.codeless = some who → state.enrolled who = false)
    (named : ∀ username other, phase ≠ .passwordOk username other) :
    Holds who state phase := by
  refine ⟨?_, codeless, fun username other same => absurd same (named username other)⟩
  intro same
  exact active (Option.some.inj (admits.symm.trans same))

/-- A phase of the same user that takes nobody for one without a second factor. -/
theorem Holds.next {phase next : Phase} (holds : Holds who state phase) {userId : Nat}
    (admits : phase.admits = some userId) (nextAdmits : next.admits = some userId)
    (codeless : next.codeless = none)
    (named : ∀ username other, next ≠ .passwordOk username other) :
    Holds who state next := by
  refine .of_user nextAdmits ?_ ?_ named
  · rintro rfl
    exact holds.admits admits
  · intro same
    rw [codeless] at same
    cases same

theorem underway_of (sound : Sound who state) {test : Phase → Option Nat} (idle : test .idle = none)
    {thread userId : Nat} (found : test (state.phase thread) = some userId) :
    state.underway userId test = true := by
  refine List.any_eq_true.mpr ⟨thread, ?_, by simp [found]⟩
  by_contra late
  rw [sound.begun thread (by simpa using late), idle] at found
  cases found

end Lookups

structure Carries (before after : State) : Prop where
  started : after.started = before.started
  phase : after.phase = before.phase
  active : ∀ userId, before.isActive userId = true → after.isActive userId = true
  enrolled : ∀ userId, after.enrolled userId = before.enrolled userId
  names : ∀ username userId,
    (before.users.find? (·.username == username)).map (·.id) = some userId →
      (after.users.find? (·.username == username)).map (·.id) = some userId

structure Advances (userId : Nat) (before after : State) (phase : Phase) : Prop where
  carries : Carries before after
  stored : Stored after
  tokens : TokensActive userId after
  lawful : LawfulFor userId after
  holds : Holds userId after phase

section Statements
variable {who : Nat} {state after : State} {phase : Phase}

theorem Carries.of_eq (started : after.started = state.started) (same : after.phase = state.phase)
    (users : after.users = state.users) (totp : after.totp = state.totp) : Carries state after := by
  refine ⟨started, same, ?_, ?_, ?_⟩
  · intro userId active
    simpa only [State.isActive, users] using active
  · intro userId
    simp only [State.enrolled, totp]
  · intro username userId found
    rw [users]
    exact found

theorem Holds.carry (holds : Holds who state phase) (carries : Carries state after) :
    Holds who after phase := by
  refine ⟨?_, ?_, ?_⟩
  · intro admitted
    exact carries.active who (holds.admits admitted)
  · intro codeless
    rw [carries.enrolled]
    exact holds.codeless codeless
  · intro username userId named
    exact carries.names username userId (holds.named username userId named)

theorem Sound.moved (sound : Sound who state) {thread : Nat} (early : thread < state.started)
    (advances : Advances who state after phase) : Sound who (after.setPhase thread phase) := by
  refine ⟨⟨advances.stored.ids, advances.stored.below, advances.stored.rows⟩, ?_, ?_,
    advances.tokens, advances.lawful⟩
  · intro other late
    have later : state.started ≤ other := advances.carries.started ▸ late
    have apart : other ≠ thread := by omega
    simp only [State.setPhase, Function.update_of_ne apart]
    rw [advances.carries.phase]
    exact sound.begun other later
  · refine (Function.forall_update_iff after.phase fun _ reached =>
      Holds who (after.setPhase thread phase) reached).mpr ⟨?_, ?_⟩
    · exact ⟨advances.holds.admits, advances.holds.codeless, advances.holds.named⟩
    · intro other _
      rw [advances.carries.phase]
      have kept := (sound.phases other).carry advances.carries
      exact ⟨kept.admits, kept.codeless, kept.named⟩

theorem Sound.stays (sound : Sound who state) (holds : Holds who state phase) :
    Advances who state state phase :=
  ⟨.of_eq rfl rfl rfl rfl, sound.stored, sound.tokens, sound.lawful, holds⟩

theorem Sound.ends (sound : Sound who state) : Advances who state state .ended :=
  sound.stays (.plain rfl rfl)

theorem Sound.frame (sound : Sound who state) (sessions : List Nat)
    (oauth : Nat → Option (String × String)) (verifications : List Verification)
    (holds : Holds who state phase) :
    Advances who state { state with sessions, oauth, verifications } phase :=
  ⟨.of_eq rfl rfl rfl rfl, ⟨sound.stored.ids, sound.stored.below, sound.stored.rows⟩,
    sound.tokens, sound.lawful, ⟨holds.admits, holds.codeless, holds.named⟩⟩

theorem Sound.createSession (sound : Sound who state) {userId : Nat} {factor : Factor}
    (holds : Holds who state (.opening userId factor)) :
    Advances who state (state.createSession userId factor) .ended := by
  unfold State.createSession
  split
  · refine ⟨.of_eq rfl rfl rfl rfl, ⟨sound.stored.ids, sound.stored.below, sound.stored.rows⟩,
      sound.tokens, ?_, .plain rfl rfl⟩
    intro insertion inserted own
    rcases List.mem_append.mp inserted with old | new
    · exact sound.lawful insertion old own
    · obtain rfl := List.mem_singleton.mp new
      simp only at own
      subst own
      refine ⟨holds.admits rfl, ?_⟩
      intro enrolled
      cases factor with
      | verified => exact Or.inl rfl
      | lookFailed => exact Or.inr rfl
      | unasked =>
          have unenrolled := holds.codeless rfl
          simp only at enrolled
          rw [unenrolled] at enrolled
          cases enrolled
  · exact sound.ends

/-- The token of a pending second step. -/
theorem Sound.issue (sound : Sound who state) {token : MfaToken}
    (active : token.userId = who → state.isActive who = true) :
    Advances who state { state with issued := state.issued ++ [token] } .ended := by
  refine ⟨.of_eq rfl rfl rfl rfl, ⟨sound.stored.ids, sound.stored.below, sound.stored.rows⟩, ?_,
    sound.lawful, .plain rfl rfl⟩
  intro other issued own usable
  rcases List.mem_append.mp issued with old | new
  · exact sound.tokens other old own usable
  · obtain rfl := List.mem_singleton.mp new
    exact active own

theorem verifyTotpOrBackup_cases (env : Totp.Env) (before : Totp.State) (userId : Nat)
    (row : TotpRow) (code backupCode : Option String) (now : Nat) :
    (verifyTotpOrBackup env before userId row code backupCode now).1 = before ∨
      ∃ updated, (verifyTotpOrBackup env before userId row code backupCode now).1 =
        before.setTotp userId ((before.totp userId).map fun known =>
          { known with backupCodesHash := updated }) := by
  unfold verifyTotpOrBackup
  cases code with
  | some code =>
      simp only
      split
      · exact Or.inl rfl
      · exact Or.inl rfl
  | none =>
      cases backupCode with
      | none => exact Or.inl rfl
      | some backupCode =>
          simp only
          split
          · exact Or.inr ⟨_, rfl⟩
          · exact Or.inl rfl

theorem verifyTotpOrBackup_rows (env : Totp.Env) (before : Totp.State) (userId : Nat)
    (row : TotpRow) (code backupCode : Option String) (now : Nat) (next : Totp.State)
    (result : (verifyTotpOrBackup env before userId row code backupCode now).1 = next) :
    next.users = before.users ∧ ∀ other,
      ((next.totp other).any (·.enabled) = (before.totp other).any (·.enabled)) ∧
        (before.totp other = none → next.totp other = none) := by
  rcases verifyTotpOrBackup_cases env before userId row code backupCode now with same | used
  · rw [← result, same]
    exact ⟨rfl, fun _ => ⟨rfl, fun absent => absent⟩⟩
  · obtain ⟨updated, same⟩ := used
    rw [← result, same]
    refine ⟨rfl, fun other => ?_⟩
    by_cases own : other = userId
    · subst own
      simp only [Totp.State.setTotp, Function.update_self]
      refine ⟨?_, fun absent => by rw [absent]; rfl⟩
      cases before.totp other <;> rfl
    · simp only [Totp.State.setTotp, Function.update_of_ne own]
      exact ⟨trivial, fun absent => absent⟩

theorem Sound.codes (sound : Sound who state) {next : Totp.State} (users : next.users = state.users)
    (rows : ∀ other, ((next.totp other).any (·.enabled) = (state.totp other).any (·.enabled)) ∧
      (state.totp other = none → next.totp other = none))
    (holds : Holds who { state with toState := next } phase) :
    Advances who state { state with toState := next } phase := by
  have carries : Carries state { state with toState := next } := by
    refine ⟨rfl, rfl, ?_, fun userId => (rows userId).1, ?_⟩
    · intro userId active
      simpa only [State.isActive, users] using active
    · intro username userId found
      simpa only [users] using found
  refine ⟨carries, ⟨?_, ?_, ?_⟩, ?_, sound.lawful, holds⟩
  · rw [users]
    exact sound.stored.ids
  · rw [users]
    exact sound.stored.below
  · intro userId late
    exact (rows userId).2 (sound.stored.rows userId late)
  · intro token issued own usable
    exact carries.active who (sound.tokens token issued own usable)

theorem find?_append_some {users : List WebUser} {test : WebUser → Bool} {user new : WebUser}
    (found : users.find? test = some user) : (users ++ [new]).find? test = some user := by
  rw [List.find?_append, found, Option.some_or]

theorem Sound.createOAuthUser (sound : Sound who state) (body : OAuthBody) :
    Advances who state (state.createOAuthUser body) (.opening state.nextUser .unasked) := by
  have carries : Carries state (state.createOAuthUser body) := by
    refine ⟨rfl, rfl, ?_, fun _ => rfl, ?_⟩
    · intro userId active
      simp only [State.isActive, Option.any_eq_true] at active ⊢
      obtain ⟨user, found, isActive⟩ := active
      exact ⟨user, find?_append_some found, isActive⟩
    · intro username userId known
      obtain ⟨user, found, same⟩ := Option.map_eq_some_iff.mp known
      exact Option.map_eq_some_iff.mpr ⟨user, find?_append_some found, same⟩
  have stored : Stored (state.createOAuthUser body) := by
    refine ⟨?_, ?_, ?_⟩
    · simp only [State.createOAuthUser, List.map_append, List.map_cons, List.map_nil]
      refine List.Nodup.append sound.stored.ids (List.nodup_singleton _) ?_
      intro id old new
      obtain ⟨user, userIn, rfl⟩ := List.mem_map.mp old
      have below := sound.stored.below user userIn
      have same := List.mem_singleton.mp new
      omega
    · intro user userIn
      simp only [State.createOAuthUser]
      rcases List.mem_append.mp userIn with old | new
      · have below := sound.stored.below user old
        omega
      · obtain rfl := List.mem_singleton.mp new
        simp
    · intro userId late
      simp only [State.createOAuthUser] at late ⊢
      exact sound.stored.rows userId (by omega)
  refine ⟨carries, stored, ?_, sound.lawful, ?_⟩
  · intro token issued own usable
    exact carries.active who (sound.tokens token issued own usable)
  · refine .of_user rfl ?_ ?_ nofun
    · have newIn := List.mem_append_right state.users (List.mem_singleton_self
        ({ id := state.nextUser, username := State.oauthUsername body, passwordHash := none
           email := some body.email, isAdmin := false, isActive := true
           mfaEnabled := false } : WebUser))
      rintro rfl
      exact stored.isActive newIn
    · intro same
      cases same
      have absent := sound.stored.rows state.nextUser (Nat.le_refl _)
      have same : (state.createOAuthUser body).totp = state.totp := rfl
      simp [State.enrolled, same, absent]

end Statements

section Steps
variable {α : Type} {env : Totp.Env} {lower : String → String} {who : Nat} {state : State}

theorem checkTotpEnabled_named {username : String} {userId : Nat}
    (named : (state.users.find? (·.username == username)).map (·.id) = some userId) :
    checkTotpEnabled state.toState username =
      if state.enrolled userId then some userId else none := by
  obtain ⟨user, found, rfl⟩ := Option.map_eq_some_iff.mp named
  simp only [checkTotpEnabled, found, Option.bind_some, State.enrolled]
  rfl

/-- The password and `is_active`. -/
theorem Sound.password (sound : Sound who state) (username password : String) (fails : Bool) :
    Advances who state (advance env lower state fails (.begun (.login username password))).1
      (advance env lower state fails (.begun (.login username password))).2 := by
  dsimp only [advance]
  cases found : state.users.find? (·.username == username) with
  | none => exact sound.ends
  | some user =>
      simp only
      split
      · exact sound.ends
      · rename_i accepted
        have active : user.isActive = true := by
          by_contra inactive
          simp [inactive] at accepted
        refine sound.stays ⟨?_, fun same => (by cases same), ?_⟩
        · intro same
          cases same
          rw [sound.stored.isActive (List.mem_of_find?_eq_some found)]
          exact active
        · intro name userId same
          cases same
          rw [found]
          rfl

theorem Sound.lookAtFactor (sound : Sound who state) {username : String} {userId : Nat}
    (holds : Holds who state (.passwordOk username userId)) (fails : Bool) :
    Advances who state (advance env lower state fails (.passwordOk username userId)).1
      (advance env lower state fails (.passwordOk username userId)).2 := by
  have active : userId = who → state.isActive who = true := by
    rintro rfl
    exact holds.admits rfl
  have look := checkTotpEnabled_named (holds.named username userId rfl)
  dsimp only [advance]
  split
  · exact sound.stays (holds.next rfl rfl rfl nofun)
  · rw [look]
    by_cases enrolled : state.enrolled userId = true
    · rw [if_pos enrolled]
      exact sound.issue active
    · rw [if_neg enrolled]
      refine sound.stays (.of_user rfl active ?_ nofun)
      intro same
      cases same
      simpa using enrolled

theorem Sound.checkToken (sound : Sound who state) (token : MfaToken)
    (code backupCode : Option String) (fails : Bool) :
    Advances who state (advance env lower state fails (.begun (.totpLogin token code backupCode))).1
      (advance env lower state fails (.begun (.totpLogin token code backupCode))).2 := by
  dsimp only [advance]
  split
  · rename_i valid
    simp only [Bool.and_eq_true, List.contains_iff_mem, Bool.not_eq_true',
      decide_eq_false_iff_not, Nat.not_lt] at valid
    exact sound.stays (.of_user rfl (fun own => sound.tokens token valid.1 own valid.2)
      (fun same => by cases same) nofun)
  · exact sound.ends

theorem Sound.checkCode (sound : Sound who state) {userId : Nat} {row : TotpRow}
    {code backupCode : Option String}
    (holds : Holds who state (.factorRead userId row code backupCode)) (fails : Bool) :
    Advances who state (advance env lower state fails (.factorRead userId row code backupCode)).1
      (advance env lower state fails (.factorRead userId row code backupCode)).2 := by
  dsimp only [advance]
  split
  · exact sound.ends
  · split
    · rename_i next accepted
      obtain ⟨users, rows⟩ := verifyTotpOrBackup_rows env state.toState userId row code
        backupCode state.clock next (congrArg Prod.fst accepted)
      refine sound.codes users rows (.of_user rfl ?_ (fun same => by cases same) nofun)
      rintro rfl
      simpa only [State.isActive, users] using holds.admits rfl
    · rename_i next error refused
      obtain ⟨users, rows⟩ := verifyTotpOrBackup_rows env state.toState userId row code
        backupCode state.clock next (congrArg Prod.fst refused)
      exact sound.codes users rows (.plain rfl rfl)

theorem Sound.byIdentity (sound : Sound who state) (body : OAuthBody) {fails : Bool}
    (unenrolled : fails = false → ∀ user, state.lookupUserByOAuth body = some user →
      user.id = who → state.enrolled who = false) :
    Advances who state (advance env lower state fails (.begun (.oauthLogin body))).1
      (advance env lower state fails (.begun (.oauthLogin body))).2 := by
  dsimp only [advance]
  cases fails with
  | true => exact sound.stays (.plain rfl rfl)
  | false =>
      simp only [Bool.false_eq_true, if_false]
      cases found : state.lookupUserByOAuth body with
      | none => exact sound.stays (.plain rfl rfl)
      | some user =>
          simp only
          split
          · rename_i active
            refine sound.stays (.of_user rfl ?_ ?_ nofun)
            · rintro rfl
              rw [sound.stored.isActive (List.mem_of_find?_eq_some found)]
              exact active
            · intro same
              exact unenrolled rfl user found (Option.some.inj same)
          · exact sound.ends

theorem Sound.byEmail (sound : Sound who state) (body : OAuthBody) {fails : Bool}
    (unenrolled : fails = false → ∀ user, state.lookupUserByEmail lower body = some user →
      user.id = who → state.enrolled who = false) :
    Advances who state (advance env lower state fails (.identityUnknown body)).1
      (advance env lower state fails (.identityUnknown body)).2 := by
  have unknown : Advances who state
      (state, if body.signupEnabled then Phase.emailUnknown body else .ended).1
      (state, if body.signupEnabled then Phase.emailUnknown body else .ended).2 := by
    simp only
    split
    · exact sound.stays (.plain rfl rfl)
    · exact sound.ends
  dsimp only [advance]
  cases fails with
  | true => exact unknown
  | false =>
      simp only [Bool.false_eq_true, if_false]
      cases found : state.lookupUserByEmail lower body with
      | none => exact unknown
      | some user =>
          simp only
          split
          · refine sound.stays ⟨?_, ?_, fun _ _ same => (by cases same)⟩
            · intro same
              exact sound.stored.isActive_of same (List.mem_of_find?_eq_some found)
            · intro same
              exact unenrolled rfl user found (Option.some.inj same)
          · exact sound.ends

theorem Sound.followLink (sound : Sound who state) (token : String) {fails : Bool}
    (checked : fails = false → ∀ row, state.link token = some row →
      row.userId = who → state.isActive who = true ∧ state.enrolled who = false) :
    Advances who state (advance env lower state fails (.begun (.verifyEmail token))).1
      (advance env lower state fails (.begun (.verifyEmail token))).2 := by
  dsimp only [advance]
  cases fails with
  | true => exact sound.ends
  | false =>
      simp only [Bool.false_eq_true, if_false]
      cases found : state.link token with
      | none => exact sound.ends
      | some row =>
          simp only
          split
          · refine sound.frame _ _ _ (.of_user rfl ?_ ?_ nofun)
            · intro own
              exact (checked rfl row found own).1
            · intro same
              exact (checked rfl row found (Option.some.inj same)).2
          · exact sound.ends

/-- The guard, read for a row that a lookup finds. -/
theorem all_apart {rows : Option α} {apart good : α → Bool} {fails : Bool}
    (all : (fails || rows.all fun row => apart row || good row) = true) (runs : fails = false)
    {row : α} (found : rows = some row) (meets : apart row = false) : good row = true := by
  subst runs found
  simpa [meets] using all

theorem Sound.statement (sound : Sound who state) {thread : Nat} {fails : Bool}
    (steadily : steady lower who state (.act thread fails) = true) :
    Advances who state (advance env lower state fails (state.phase thread)).1
      (advance env lower state fails (state.phase thread)).2 := by
  have before := sound.phases thread
  simp only [steady] at steadily
  cases phase : state.phase thread with
  | idle => exact sound.stays (.plain rfl rfl)
  | ended => exact sound.ends
  | begun request =>
      rw [phase] at steadily
      cases request with
      | login username password => exact sound.password username password fails
      | totpLogin token code backupCode => exact sound.checkToken token code backupCode fails
      | oauthLogin body =>
          refine sound.byIdentity body fun runs user found own => ?_
          simpa using all_apart steadily runs found (by simpa using own)
      | verifyEmail token =>
          refine sound.followLink token fun runs row found own => ?_
          simpa using all_apart steadily runs found (by simpa using own)
  | passwordOk username userId =>
      rw [phase] at before
      exact sound.lookAtFactor before fails
  | factorless userId factor =>
      rw [phase] at before
      have holds : Holds who state (.opening userId factor) := by
        refine ⟨before.admits, ?_, fun _ _ same => (by cases same)⟩
        cases factor with
        | verified | lookFailed => exact fun same => (by cases same)
        | unasked => exact before.codeless
      dsimp only [advance]
      split
      · exact sound.stays holds
      · exact sound.frame _ _ _ holds
  | tokenOk userId code backupCode | userFound userId code backupCode =>
      rw [phase] at before
      dsimp only [advance]
      split
      · exact sound.ends
      · exact sound.stays (before.next rfl rfl rfl nofun)
  | factorRead userId row code backupCode =>
      rw [phase] at before
      exact sound.checkCode before fails
  | identityUnknown body =>
      rw [phase] at steadily
      refine sound.byEmail body fun runs user found own => ?_
      simpa using all_apart steadily runs found (by simpa using own)
  | emailMatched userId isActive body =>
      rw [phase] at before
      dsimp only [advance]
      split
      · exact sound.ends
      · refine sound.frame _ _ _ ?_
        cases isActive with
        | true => exact ⟨before.admits, before.codeless, fun _ _ same => (by cases same)⟩
        | false => exact .plain rfl rfl
  | emailUnknown body =>
      dsimp only [advance]
      split
      · exact sound.ends
      · exact sound.createOAuthUser body
  | opening userId factor =>
      rw [phase] at before
      dsimp only [advance]
      split
      · exact sound.ends
      · exact sound.createSession before

theorem Sound.act (sound : Sound who state) {thread : Nat} {fails : Bool}
    (steadily : steady lower who state (.act thread fails) = true) :
    Sound who (step env lower state (.act thread fails)) := by
  simp only [step]
  by_cases early : thread < state.started
  · exact sound.moved early (sound.statement steadily)
  · have idle := sound.begun thread (Nat.le_of_not_lt early)
    have same : state.setPhase thread .idle = state := by
      rw [← idle, State.setPhase, Function.update_eq_self]
    rw [idle]
    dsimp only [advance]
    rw [same]
    exact sound

theorem Sound.begin (sound : Sound who state) (request : Request) :
    Sound who (step env lower state (.begin request)) := by
  refine ⟨⟨sound.stored.ids, sound.stored.below, sound.stored.rows⟩, ?_, ?_, sound.tokens,
    sound.lawful⟩
  · intro other late
    simp only [step] at late ⊢
    have apart : other ≠ state.started := by omega
    rw [Function.update_of_ne apart]
    exact sound.begun other (by omega)
  · refine (Function.forall_update_iff state.phase fun _ reached =>
      Holds who (step env lower state (.begin request)) reached).mpr ⟨.plain rfl rfl, ?_⟩
    intro other _
    have held := sound.phases other
    exact ⟨held.admits, held.codeless, held.named⟩

theorem Sound.tables (sound : Sound who state) {after : State}
    (started : after.started = state.started) (phases : after.phase = state.phase)
    (stored : Stored after)
    (active : (state.underway who Phase.admits = true ∨ state.tokenOut who = true) →
      state.isActive who = true → after.isActive who = true)
    (enrolled : state.underway who Phase.codeless = true →
      state.enrolled who = false → after.enrolled who = false)
    (names : ∀ username userId,
      (state.users.find? (·.username == username)).map (·.id) = some userId →
        (after.users.find? (·.username == username)).map (·.id) = some userId)
    (issued : after.issued = state.issued) (clock : state.clock ≤ after.clock)
    (inserted : after.inserted = state.inserted) : Sound who after := by
  refine ⟨stored, ?_, ?_, ?_, ?_⟩
  · rw [started, phases]
    exact sound.begun
  · intro thread
    rw [phases]
    have held := sound.phases thread
    refine ⟨?_, ?_, fun username userId same => names username userId (held.named username userId same)⟩
    · intro admitted
      exact active (Or.inl (underway_of sound rfl admitted)) (held.admits admitted)
    · intro codeless
      exact enrolled (underway_of sound rfl codeless) (held.codeless codeless)
  · intro token tokenIn own usable
    rw [issued] at tokenIn
    have before : state.clock ≤ token.expiresAt := Nat.le_trans clock usable
    have out : state.tokenOut who = true :=
      List.any_eq_true.mpr ⟨token, tokenIn, by simp [own, Nat.not_lt.mpr before]⟩
    exact active (Or.inr out) (sound.tokens token tokenIn own before)
  · rw [LawfulFor, inserted]
    exact sound.lawful

theorem find?_map_same {users : List WebUser} {set : WebUser → WebUser}
    (same_name : ∀ user, (set user).username = user.username)
    (same_id : ∀ user, (set user).id = user.id) (username : String) :
    ((users.map set).find? (·.username == username)).map (·.id) =
      (users.find? (·.username == username)).map (·.id) := by
  have test : (fun user : WebUser => user.username == username) ∘ set =
      fun user => user.username == username := by
    funext user
    simp only [Function.comp_apply, same_name]
  rw [List.find?_map, test, Option.map_map]
  congr 1
  funext user
  exact same_id user

theorem find?_map_id {users : List WebUser} {set : WebUser → WebUser}
    (same_id : ∀ user, (set user).id = user.id) (userId : Nat) :
    (users.map set).find? (·.id == userId) = (users.find? (·.id == userId)).map set := by
  have test : (fun user : WebUser => user.id == userId) ∘ set = fun user => user.id == userId := by
    funext user
    simp only [Function.comp_apply, same_id]
  rw [List.find?_map, test]

theorem Stored.map (stored : Stored state) {set : WebUser → WebUser}
    (same_id : ∀ user, (set user).id = user.id) :
    ((state.users.map set).map (·.id)).Nodup ∧
      ∀ user ∈ state.users.map set, user.id < state.nextUser := by
  have ids : (state.users.map set).map (·.id) = state.users.map (·.id) := by
    rw [List.map_map]
    exact List.map_congr_left fun user _ => same_id user
  refine ⟨ids ▸ stored.ids, ?_⟩
  intro user userIn
  obtain ⟨old, oldIn, rfl⟩ := List.mem_map.mp userIn
  rw [same_id old]
  exact stored.below old oldIn

theorem Sound.setActive (sound : Sound who state) {userId : Nat} {isActive : Bool}
    (steadily : steady lower who state (.setActive userId isActive) = true) :
    Sound who (state.setActive userId isActive) := by
  have same_id : ∀ user : WebUser,
      (if user.id = userId then { user with isActive } else user).id = user.id := by
    intro user
    split <;> rfl
  have rows := sound.stored.map same_id
  refine sound.tables rfl rfl ⟨rows.1, rows.2, sound.stored.rows⟩ ?_ (fun _ same => same) ?_ rfl
    (Nat.le_refl _) rfl
  · intro out active
    simp only [State.setActive, State.isActive, find?_map_id same_id]
    obtain ⟨user, found, wasActive⟩ := by
      simpa only [State.isActive, Option.any_eq_true] using active
    rw [found, Option.map_some, Option.any_some]
    by_cases target : user.id = userId
    · have sameId : user.id = who := by simpa using List.find?_some found
      rw [if_pos target]
      cases isActive with
      | true => rfl
      | false =>
          have own : userId = who := target.symm.trans sameId
          simp only [steady, own, bne_self_eq_false, Bool.false_or, Bool.and_eq_true,
            Bool.not_eq_true'] at steadily
          rcases out with underway | tokenOut
          · rw [steadily.1] at underway
            cases underway
          · rw [steadily.2] at tokenOut
            cases tokenOut
    · rw [if_neg target]
      exact wasActive
  · intro username other found
    have same_name : ∀ user : WebUser,
        (if user.id = userId then { user with isActive } else user).username = user.username := by
      intro user
      split <;> rfl
    simp only [State.setActive]
    rw [find?_map_same same_name same_id]
    exact found

/-- A write of `totp_secrets`, with the flag of the user's row. -/
theorem Sound.writeTotp (sound : Sound who state) {next : Totp.State} {set : WebUser → WebUser}
    (users : next.users = state.users.map set) (same_id : ∀ user, (set user).id = user.id)
    (same_name : ∀ user, (set user).username = user.username)
    (same_active : ∀ user, (set user).isActive = user.isActive)
    (rows : ∀ userId, state.nextUser ≤ userId → next.totp userId = none)
    (enrolled : state.underway who Phase.codeless = true →
      state.enrolled who = false → (next.totp who).any (·.enabled) = false) :
    Sound who { state with toState := next } := by
  have kept := sound.stored.map same_id
  refine sound.tables rfl rfl ⟨users ▸ kept.1, users ▸ kept.2, rows⟩ ?_ enrolled ?_ rfl
    (Nat.le_refl _) rfl
  · intro _ active
    simp only [State.isActive, users, find?_map_id same_id]
    obtain ⟨user, found, isActive⟩ := by
      simpa only [State.isActive, Option.any_eq_true] using active
    rw [found, Option.map_some, Option.any_some, same_active]
    exact isActive
  · intro username userId found
    simp only [users]
    rw [find?_map_same same_name same_id]
    exact found

theorem setMfaEnabled_eq (users : List WebUser) (userId : Nat) (mfaEnabled : Bool) :
    ∃ set : WebUser → WebUser, Totp.setMfaEnabled users userId mfaEnabled = users.map set ∧
      (∀ user, (set user).id = user.id) ∧ (∀ user, (set user).username = user.username) ∧
        ∀ user, (set user).isActive = user.isActive := by
  refine ⟨_, rfl, ?_, ?_, ?_⟩
  · intro user
    split <;> rfl
  · intro user
    split <;> rfl
  · intro user
    split <;> rfl

theorem Sound.upsertTotpSecret (sound : Sound who state) {userId : Nat} (secretEncrypted : String)
    (known : hasUser state.users userId = true) :
    Sound who { state with toState := upsertTotpSecret state.toState userId secretEncrypted } := by
  have below : userId < state.nextUser := by
    obtain ⟨user, userIn, same⟩ := List.any_eq_true.mp known
    have sameId : user.id = userId := by simpa using same
    exact sameId ▸ sound.stored.below user userIn
  refine @Sound.writeTotp who state sound _ id (List.map_id _).symm (fun _ => rfl) (fun _ => rfl)
    (fun _ => rfl) ?_ ?_
  · intro other late
    have apart : other ≠ userId := by omega
    simp only [Totp.upsertTotpSecret, Totp.State.setTotp, Function.update_of_ne apart]
    exact sound.stored.rows other late
  · intro _ unenrolled
    by_cases own : who = userId
    · subst own
      simp [Totp.upsertTotpSecret, Totp.State.setTotp]
    · simpa [State.enrolled, Totp.upsertTotpSecret, Totp.State.setTotp,
        Function.update_of_ne own] using unenrolled

theorem Sound.enableTotp (sound : Sound who state) {userId : Nat} {hashedCodes : List BackupCode}
    (steadily : steady lower who state (.enableTotp userId hashedCodes) = true) :
    Sound who { state with toState := enableTotp state.toState userId hashedCodes } := by
  obtain ⟨set, users, same_id, same_name, same_active⟩ :=
    setMfaEnabled_eq state.users userId true
  refine sound.writeTotp users same_id same_name same_active ?_ ?_
  · intro other late
    have absent := sound.stored.rows other late
    by_cases own : other = userId
    · subst own
      simp [Totp.enableTotp, Totp.State.setTotp, absent]
    · simpa [Totp.enableTotp, Totp.State.setTotp, Function.update_of_ne own] using absent
  · intro underway unenrolled
    have apart : who ≠ userId := by
      rintro rfl
      simp [steady, underway] at steadily
    simpa [State.enrolled, Totp.enableTotp, Totp.State.setTotp,
      Function.update_of_ne apart] using unenrolled

theorem Sound.deleteTotp (sound : Sound who state) (userId : Nat) :
    Sound who { state with toState := deleteTotp state.toState userId } := by
  obtain ⟨set, users, same_id, same_name, same_active⟩ :=
    setMfaEnabled_eq state.users userId false
  refine sound.writeTotp users same_id same_name same_active ?_ ?_
  · intro other late
    by_cases own : other = userId
    · subst own
      simp [Totp.deleteTotp, Totp.State.setTotp]
    · simpa [Totp.deleteTotp, Totp.State.setTotp, Function.update_of_ne own] using
        sound.stored.rows other late
  · intro _ unenrolled
    by_cases own : who = userId
    · subst own
      simp [Totp.deleteTotp, Totp.State.setTotp]
    · simpa [State.enrolled, Totp.deleteTotp, Totp.State.setTotp,
        Function.update_of_ne own] using unenrolled

theorem Sound.step (sound : Sound who state) {event : Event}
    (steadily : steady lower who state event = true) : Sound who (step env lower state event) := by
  cases event with
  | begin request => exact sound.begin request
  | act thread fails => exact sound.act steadily
  | setActive userId isActive => exact sound.setActive steadily
  | upsertTotpSecret userId secretEncrypted =>
      simp only [Sessions.step]
      split
      · rename_i known
        exact sound.upsertTotpSecret secretEncrypted known
      · exact sound
  | enableTotp userId hashedCodes => exact sound.enableTotp steadily
  | deleteTotp userId => exact sound.deleteTotp userId
  | tick seconds =>
      exact sound.tables rfl rfl ⟨sound.stored.ids, sound.stored.below, sound.stored.rows⟩
        (fun _ active => active) (fun _ same => same) (fun _ _ found => found) rfl
        (Nat.le_add_right _ _) rfl

end Steps

/-- No login has begun and no token is out. -/
structure Resting (state : State) : Prop where
  stored : Stored state
  idle : ∀ thread, state.phase thread = .idle
  issued : state.issued = []
  inserted : state.inserted = []

/-- Every session of a user is inserted while the user is active, and for an enrolled user with a
code or after a failed look, in a run where what the user's logins saw holds until they end. -/
theorem sessions_inserted_lawfully (env : Totp.Env) (lower : String → String) (userId : Nat)
    (start : State) (resting : Resting start) (events : List Event)
    (steps : AllSteps (step env lower)
      (fun state event => steady lower userId state event = true) start events) :
    LawfulFor userId (run (step env lower) start events) := by
  have sound : Sound userId start := by
    refine ⟨resting.stored, fun thread _ => resting.idle thread, ?_, ?_, ?_⟩
    · intro thread
      rw [resting.idle]
      exact .plain rfl rfl
    · intro token issued
      rw [resting.issued] at issued
      cases issued
    · intro insertion inserted
      rw [resting.inserted] at inserted
      cases inserted
  have reached := run_preserves_guarded (step env lower) _ (Sound userId)
    (fun _ _ steadily held => held.step steadily) events start steps sound
  exact reached.lawful

def anna (isActive : Bool) : WebUser :=
  { id := 1, username := "anna", passwordHash := some "annas-long-password"
    email := some "anna@shop.vn", isAdmin := false, isActive, mfaEnabled := true }

def office (isActive : Bool) : State :=
  { users := [anna isActive]
    totp := Function.update (fun _ => none) 1 (some
      { secretEncrypted := "JBSW", enabled := true, backupCodesHash := [], lastUsedAt := none })
    nextUser := 2, oauth := Function.update (fun _ => none) 1 (some ("google", "g-1"))
    verifications := [⟨"t-1", 1, 100, false⟩], sessions := [], issued := [], inserted := []
    clock := 0, started := 0, phase := fun _ => .idle }

def annaGoogle : OAuthBody :=
  { provider := "google", oauthId := "g-1", email := "anna@shop.vn", emailVerified := true
    suffix := "ab12", signupEnabled := true }

def acts (thread count : Nat) : List Event := List.replicate count (.act thread false)

def password : Request := .login "anna" "annas-long-password"

/-- The password, then a code for the token. -/
def bothFactors : List Event :=
  .begin password :: acts 0 2 ++ .begin (.totpLogin ⟨1, 300⟩ (some "JBSW") none) :: acts 1 5

theorem office_resting (isActive : Bool) : Resting (office isActive) := by
  refine ⟨⟨?_, ?_, ?_⟩, fun _ => rfl, rfl, rfl⟩
  · simp [office]
  · simp [office, anna]
  · intro userId late
    have apart : userId ≠ 1 := by
      simp only [office] at late
      omega
    simp [office, Function.update_of_ne apart]

theorem both_factors_lawful :
    (run (step Totp.plainEnv id) (office true) bothFactors).inserted =
        [⟨1, true, true, .verified⟩] ∧
      LawfulFor 1 (run (step Totp.plainEnv id) (office true) bothFactors) :=
  ⟨by decide +kernel,
    sessions_inserted_lawfully Totp.plainEnv id 1 (office true) (office_resting true) bothFactors
      (by decide +kernel)⟩

instance (state : State) : Decidable (Lawful state) := by
  unfold Lawful
  infer_instance

def failedLook : List Event :=
  .begin password :: acts 0 1 ++ .act 0 true :: acts 0 2

/-- Neither an OAuth login, by identity or by address, nor a link asks for a code. -/
def oauthAlone (count : Nat) : List Event := .begin (.oauthLogin annaGoogle) :: acts 0 count

def linkAlone : List Event := .begin (.verifyEmail "t-1") :: acts 0 2

def tokenOutlives : List Event :=
  .begin password :: acts 0 2 ++ .setActive 1 false ::
    .begin (.totpLogin ⟨1, 300⟩ (some "JBSW") none) :: acts 1 5

/-- Anna is deactivated, or enrolled, between the looks and the insert. -/
def overtaken (between : List Event) : List Event :=
  .begin password :: acts 0 2 ++ between ++ acts 0 2

/-- A failed look lets an enrolled user in; the others are what the looks of the endpoints miss. -/
theorem unlawful_insertions :
    ¬ Lawful (run (step Totp.plainEnv id) (office true) failedLook) ∧
      ¬ Lawful (run (step Totp.plainEnv id) (office true) (oauthAlone 2)) ∧
      ¬ Lawful (run (step Totp.plainEnv id) { office true with oauth := fun _ => none }
        (oauthAlone 4)) ∧
      ¬ Lawful (run (step Totp.plainEnv id) (office true) linkAlone) ∧
      ¬ Lawful (run (step Totp.plainEnv id) { office false with totp := fun _ => none }
        linkAlone) ∧
      ¬ Lawful (run (step Totp.plainEnv id) (office true) tokenOutlives) ∧
      ¬ Lawful (run (step Totp.plainEnv id) { office true with totp := fun _ => none }
        (overtaken [.setActive 1 false])) ∧
      ¬ Lawful (run (step Totp.plainEnv id) { office true with totp := fun _ => none }
        (overtaken [.upsertTotpSecret 1 "JBSW", .enableTotp 1 []])) :=
  ⟨by decide +kernel, by decide +kernel, by decide +kernel, by decide +kernel,
    by decide +kernel, by decide +kernel, by decide +kernel, by decide +kernel⟩

end OdooSemantic.WebUi.Sessions
