import OdooSemantic.WebUi.Admins

/-!
# The second factor of a Web UI user

Setup, verify, disable, step-up and both logins read and write one row of
`totp_secrets`.  Enrolment resets that row for any session of the user.
-/

set_option autoImplicit false

namespace OdooSemantic.WebUi.Totp

open Lib.Run WebUi.Admins

structure BackupCode where
  hash : String
  usedAt : Option Nat
  deriving DecidableEq

/-- A row of `totp_secrets`; its key is the user's id. -/
structure TotpRow where
  secretEncrypted : String
  enabled : Bool
  backupCodesHash : List BackupCode
  lastUsedAt : Option Nat
  deriving DecidableEq

structure State where
  users : List WebUser
  totp : Nat → Option TotpRow

/-- Encryption, code and password checks, and the settings of the login. -/
structure Env where
  decryptSecret : String → String
  codeOk : String → String → Bool
  passwordOk : String → String → Bool
  hmacBackupCode : String → String
  dummyHash : String
  passwordMinLength : Nat
  commonPasswords : List String

/-- What the signed cookie of a request carries. -/
structure Session where
  username : Option String
  userId : Option Nat

/-- A request that reaches its endpoint; `now` stamps a used backup code. -/
inductive Request where
  | setup (session : Session) (secretEncrypted : String)
  | verify (session : Session) (code : String) (hashedCodes : List BackupCode)
  | disable (session : Session) (password code : String)
  | stepUp (session : Session) (rateLimited : Bool) (code backupCode : Option String) (now : Nat)
  | totpLogin (mfaUserId : Option Nat) (code backupCode : Option String) (now : Nat)
  | login (username password : String) (rateLimited : Bool)
  | purge (userId : Nat)

inductive Response where
  | ok
  | error (status : Nat) (key : String)
  | mfaRequired (userId : Nat)
  | session (userId : Nat)
  deriving DecidableEq

section Endpoints
variable (env : Env)

def resolveUserId (state : State) (session : Session) : Option Nat :=
  session.username.bind fun username =>
    if username = "" then none
    else (state.users.find? (·.username == username)).map (·.id)

def currentUserId (state : State) (session : Session) : Option Nat :=
  session.userId.or (resolveUserId state session)

def State.setTotp (state : State) (userId : Nat) (row : Option TotpRow) : State :=
  { state with totp := Function.update state.totp userId row }

def setMfaEnabled (users : List WebUser) (userId : Nat) (mfaEnabled : Bool) : List WebUser :=
  users.map fun user => if user.id = userId then { user with mfaEnabled } else user

/-- `_upsert_totp_secret`: a row that exists is reset. -/
def upsertTotpSecret (state : State) (userId : Nat) (secretEncrypted : String) : State :=
  state.setTotp userId (some
    { secretEncrypted, enabled := false, backupCodesHash := [], lastUsedAt := none })

def enableTotp (state : State) (userId : Nat) (hashedCodes : List BackupCode) : State :=
  { state.setTotp userId ((state.totp userId).map fun row =>
      { row with enabled := true, backupCodesHash := hashedCodes }) with
    users := setMfaEnabled state.users userId true }

def deleteTotp (state : State) (userId : Nat) : State :=
  { state.setTotp userId none with users := setMfaEnabled state.users userId false }

/-- `_check_backup_code`: the first unused code that matches is used up. -/
def checkBackupCode (codeHash : String) (now : Nat) :
    List BackupCode → Bool × List BackupCode
  | [] => (false, [])
  | entry :: rest =>
      if entry.usedAt.isNone && entry.hash == codeHash then
        (true, { entry with usedAt := some now } :: rest)
      else
        let (found, updated) := checkBackupCode codeHash now rest
        (found, entry :: updated)

/-- `_verify_totp_or_backup`: none when it is valid, else the error. -/
def verifyTotpOrBackup (state : State) (userId : Nat) (row : TotpRow)
    (code backupCode : Option String) (now : Nat) : State × Option String :=
  match code, backupCode with
  | some code, _ =>
      if env.codeOk (env.decryptSecret row.secretEncrypted) code then (state, none)
      else (state, some "invalid_code")
  | none, some backupCode =>
      let (valid, updated) := checkBackupCode (env.hmacBackupCode backupCode) now row.backupCodesHash
      if valid then
        (state.setTotp userId ((state.totp userId).map fun known =>
          { known with backupCodesHash := updated }), none)
      else (state, some "invalid_backup_code")
  | none, none => (state, some "code_or_backup_code_required")

/-- `POST /setup`. -/
def totpSetup (state : State) (session : Session) (secretEncrypted : String) : State × Response :=
  if (session.username.getD "") = "" then (state, .error 401 "not_authenticated")
  else match resolveUserId state session with
    | none => (state, .error 404 "user_not_found")
    | some userId => (upsertTotpSecret state userId secretEncrypted, .ok)

/-- `POST /verify`. -/
def totpVerify (state : State) (session : Session) (code : String)
    (hashedCodes : List BackupCode) : State × Response :=
  if (session.username.getD "") = "" then (state, .error 401 "not_authenticated")
  else match resolveUserId state session with
    | none => (state, .error 404 "user_not_found")
    | some userId =>
        match state.totp userId with
        | none => (state, .error 400 "totp_not_setup")
        | some row =>
            if env.codeOk (env.decryptSecret row.secretEncrypted) code then
              (enableTotp state userId hashedCodes, .ok)
            else (state, .error 400 "invalid_code")

def currentPassword (state : State) (userId : Nat) (password : String) : Bool :=
  (state.users.find? (·.id == userId)).any fun user =>
    user.passwordHash.any fun hash => env.passwordOk password hash

/-- `POST /disable`. -/
def totpDisable (state : State) (session : Session) (password code : String) : State × Response :=
  if (session.username.getD "") = "" then (state, .error 401 "not_authenticated")
  else match resolveUserId state session with
    | none => (state, .error 404 "user_not_found")
    | some userId =>
        if !currentPassword env state userId password then (state, .error 401 "invalid_credentials")
        else match (state.totp userId).filter (·.enabled) with
          | none => (state, .error 400 "totp_not_enabled")
          | some row =>
              if env.codeOk (env.decryptSecret row.secretEncrypted) code then
                (deleteTotp state userId, .ok)
              else (state, .error 400 "invalid_code")

/-- `POST /step-up`. -/
def totpStepUp (state : State) (session : Session) (rateLimited : Bool)
    (code backupCode : Option String) (now : Nat) : State × Response :=
  match currentUserId state session with
  | none => (state, .error 401 "not_authenticated")
  | some userId =>
      if !hasUser state.users userId then (state, .error 404 "user_not_found")
      else match (state.totp userId).filter (·.enabled) with
        | none => (state, .error 400 "totp_not_setup")
        | some row =>
            if rateLimited then
              (state, .error 429 "Too many failed login attempts; please wait before retrying")
            else match verifyTotpOrBackup env state userId row code backupCode now with
              | (next, none) => (next, .ok)
              | (next, some key) =>
                  (next, .error (if key = "code_or_backup_code_required" then 400 else 401) key)

/-- `POST /totp/login`; the token gives a user, or is invalid or expired. -/
def totpLogin (state : State) (mfaUserId : Option Nat) (code backupCode : Option String)
    (now : Nat) : State × Response :=
  match mfaUserId with
  | none => (state, .error 401 "invalid_mfa_token")
  | some userId =>
      if !hasUser state.users userId then (state, .error 404 "user_not_found")
      else match (state.totp userId).filter (·.enabled) with
        | none => (state, .error 400 "totp_not_enabled")
        | some row =>
            match verifyTotpOrBackup env state userId row code backupCode now with
            | (next, none) => (next, .session userId)
            | (next, some key) =>
                (next, .error (if key = "code_or_backup_code_required" then 400 else 401) key)

def checkTotpEnabled (state : State) (username : String) : Option Nat :=
  (state.users.find? (·.username == username)).bind fun user =>
    if (state.totp user.id).any (·.enabled) then some user.id else none

/-- `POST /login`: a password logs in alone when no second factor is enabled; a row without a
password is checked against the dummy hash. -/
def loginPost (state : State) (username password : String) (rateLimited : Bool) : Response :=
  if password.length < env.passwordMinLength then .error 401 "invalid_credentials"
  else if rateLimited then
    .error 429 "Too many failed login attempts; please wait before retrying"
  else match state.users.find? (·.username == username) with
    | none => .error 401 "invalid_credentials"
    | some user =>
        if !env.passwordOk password (user.passwordHash.getD env.dummyHash) || !user.isActive ||
            env.commonPasswords.contains password then .error 401 "invalid_credentials"
        else match checkTotpEnabled state username with
          | some userId => .mfaRequired userId
          | none => .session user.id

/-- `purge_user_account` refuses the last active admin. -/
def refusesPurge (state : State) (userId : Nat) : Bool :=
  (state.users.find? (·.id == userId)).any (·.isAdmin) && otherAdminCount state.users userId == 0

def purgeUserAccount (state : State) (userId : Nat) : State :=
  if refusesPurge state userId then state
  else { state.setTotp userId none with users := applyOp (.purge userId) state.users }

def handle (state : State) : Request → State × Response
  | .setup session secretEncrypted => totpSetup state session secretEncrypted
  | .verify session code hashedCodes => totpVerify env state session code hashedCodes
  | .disable session password code => totpDisable env state session password code
  | .stepUp session rateLimited code backupCode now =>
      totpStepUp env state session rateLimited code backupCode now
  | .totpLogin mfaUserId code backupCode now => totpLogin env state mfaUserId code backupCode now
  | .login username password rateLimited => (state, loginPost env state username password rateLimited)
  | .purge userId => (purgeUserAccount state userId, .ok)

def step (state : State) (request : Request) : State := (handle env state request).1

end Endpoints

def protects (userId : Nat) (secretEncrypted : String) (state : State) : Bool :=
  (state.totp userId).any fun row => row.enabled && row.secretEncrypted == secretEncrypted

def enrols (userId : Nat) (state : State) : Request → Bool
  | .setup session _ => resolveUserId state session == some userId
  | _ => false

/-- A disable with the current password and a valid code, or the erasure of the account. -/
def removes (env : Env) (userId : Nat) (state : State) : Request → Bool
  | .disable session password code =>
      resolveUserId state session == some userId && currentPassword env state userId password &&
        (state.totp userId).any fun row =>
          row.enabled && env.codeOk (env.decryptSecret row.secretEncrypted) code
  | .purge target => target == userId && !refusesPurge state target
  | _ => false

section Requests
variable {env : Env} {userId : Nat} {secret : String} {state : State}

/-- Setting another user's row, or the codes of the own one, keeps the second factor. -/
theorem protects_setTotp {other : Nat} {row : Option TotpRow} {users : List WebUser}
    (protected' : protects userId secret state = true)
    (same : other = userId → row.any (fun row => row.enabled && row.secretEncrypted == secret) = true) :
    protects userId secret { state.setTotp other row with users } = true := by
  by_cases own : userId = other
  · subst own
    simpa [protects, State.setTotp] using same rfl
  · simpa [protects, State.setTotp, Function.update_of_ne own] using protected'

theorem verifyTotpOrBackup_protects {target : Nat} {row : TotpRow} {code backupCode : Option String}
    {now : Nat} (protected' : protects userId secret state = true) :
    protects userId secret (verifyTotpOrBackup env state target row code backupCode now).1 = true := by
  unfold verifyTotpOrBackup
  cases code with
  | some code =>
      simp only
      split <;> exact protected'
  | none =>
      cases backupCode with
      | none => exact protected'
      | some backupCode =>
          simp only
          split
          · apply @protects_setTotp userId secret state target _ state.users protected'
            rintro rfl
            unfold protects at protected'
            cases found : state.totp target with
            | none => simp [found] at protected'
            | some known => simpa [found] using protected'
          · exact protected'

theorem totpSetup_protects {session : Session} {secretEncrypted : String}
    (protected' : protects userId secret state = true)
    (noEnrolment : enrols userId state (.setup session secretEncrypted) = false) :
    protects userId secret (totpSetup state session secretEncrypted).1 = true := by
  unfold totpSetup
  split
  · exact protected'
  · cases resolved : resolveUserId state session with
    | none => exact protected'
    | some target =>
        apply @protects_setTotp userId secret state target _ state.users protected'
        rintro rfl
        simp [enrols, resolved] at noEnrolment

theorem totpVerify_protects {session : Session} {code : String} {hashedCodes : List BackupCode}
    (protected' : protects userId secret state = true) :
    protects userId secret (totpVerify env state session code hashedCodes).1 = true := by
  unfold totpVerify
  split
  · exact protected'
  · cases resolveUserId state session with
    | none => exact protected'
    | some target =>
        simp only
        cases found : state.totp target with
        | none => exact protected'
        | some row =>
            simp only
            split
            · apply protects_setTotp protected'
              rintro rfl
              unfold protects at protected'
              simp only [found, Option.any_some, Bool.and_eq_true] at protected'
              simp [found, protected'.2]
            · exact protected'

theorem totpDisable_protects {session : Session} {password code : String}
    (protected' : protects userId secret state = true)
    (kept : removes env userId state (.disable session password code) = false) :
    protects userId secret (totpDisable env state session password code).1 = true := by
  unfold totpDisable
  split
  · exact protected'
  · cases resolved : resolveUserId state session with
    | none => exact protected'
    | some target =>
        simp only
        split
        · exact protected'
        · rename_i current
          cases enabled : (state.totp target).filter (·.enabled) with
          | none => exact protected'
          | some row =>
              simp only
              split
              · rename_i valid
                apply protects_setTotp protected'
                rintro rfl
                obtain ⟨found, isEnabled⟩ := Option.filter_eq_some_iff.mp enabled
                simp only [Bool.not_eq_true', Bool.not_eq_false] at current
                simp [removes, resolved, current, found, isEnabled, valid] at kept
              · exact protected'

theorem totpStepUp_protects {session : Session} {rateLimited : Bool}
    {code backupCode : Option String} {now : Nat} (protected' : protects userId secret state = true) :
    protects userId secret (totpStepUp env state session rateLimited code backupCode now).1 =
      true := by
  unfold totpStepUp
  cases currentUserId state session with
  | none => exact protected'
  | some target =>
      simp only
      split
      · exact protected'
      · cases (state.totp target).filter (·.enabled) with
        | none => exact protected'
        | some row =>
            simp only
            split
            · exact protected'
            · have verified := @verifyTotpOrBackup_protects env userId secret state target row
                code backupCode now protected'
              cases outcome : verifyTotpOrBackup env state target row code backupCode now with
              | mk next result =>
                  rw [outcome] at verified
                  cases result <;> exact verified

theorem totpLogin_protects {mfaUserId : Option Nat} {code backupCode : Option String} {now : Nat}
    (protected' : protects userId secret state = true) :
    protects userId secret (totpLogin env state mfaUserId code backupCode now).1 = true := by
  unfold totpLogin
  cases mfaUserId with
  | none => exact protected'
  | some target =>
      simp only
      split
      · exact protected'
      · cases (state.totp target).filter (·.enabled) with
        | none => exact protected'
        | some row =>
            simp only
            have verified := @verifyTotpOrBackup_protects env userId secret state target row
              code backupCode now protected'
            cases outcome : verifyTotpOrBackup env state target row code backupCode now with
            | mk next result =>
                rw [outcome] at verified
                cases result <;> exact verified

theorem purgeUserAccount_protects {target : Nat} (protected' : protects userId secret state = true)
    (kept : removes env userId state (.purge target) = false) :
    protects userId secret (purgeUserAccount state target) = true := by
  unfold purgeUserAccount
  split
  · exact protected'
  · rename_i accepted
    apply protects_setTotp protected'
    rintro rfl
    simp [removes, accepted] at kept

theorem handle_protects (request : Request) (protected' : protects userId secret state = true)
    (noEnrolment : enrols userId state request = false)
    (kept : removes env userId state request = false) :
    protects userId secret (step env state request) = true := by
  cases request with
  | setup session secretEncrypted => exact totpSetup_protects protected' noEnrolment
  | verify session code hashedCodes => exact totpVerify_protects protected'
  | disable session password code => exact totpDisable_protects protected' kept
  | stepUp session rateLimited code backupCode now => exact totpStepUp_protects protected'
  | totpLogin mfaUserId code backupCode now => exact totpLogin_protects protected'
  | login username password rateLimited => exact protected'
  | purge target => exact purgeUserAccount_protects protected' kept

theorem enrols_unprotects (request : Request) (enrolment : enrols userId state request = true) :
    protects userId secret (step env state request) = false := by
  cases request with
  | setup session secretEncrypted =>
      simp only [enrols, beq_iff_eq] at enrolment
      have named : ¬ (session.username.getD "") = "" := by
        intro empty
        unfold resolveUserId at enrolment
        cases name : session.username with
        | none => simp [name] at enrolment
        | some username => simp_all
      simp [step, handle, totpSetup, named, enrolment, upsertTotpSecret, protects, State.setTotp]
  | _ => cases enrolment

/-- Until the user's second factor is disabled with the password and a code, or the account
erased, it stays enabled with its secret in every state of a run if and only if no request
of the run enrols the user. -/
theorem protected_iff_no_enrolment (env : Env) (userId : Nat) (secret : String) (requests : List Request) :
    ∀ start : State, protects userId secret start = true →
      AllSteps (step env) (fun state request => removes env userId state request = false)
        start requests →
      ((∀ earlier later, requests = earlier ++ later →
          protects userId secret (run (step env) start earlier) = true) ↔
        AllSteps (step env) (fun state request => enrols userId state request = false)
          start requests) := by
  induction requests with
  | nil =>
      intro start protected' _
      refine ⟨fun _ => trivial, fun _ earlier later split => ?_⟩
      have none : earlier = [] := (List.append_eq_nil_iff.mp split.symm).1
      rw [none]
      exact protected'
  | cons request rest ih =>
      intro start protected' kept
      constructor
      · intro always
        have after : protects userId secret (step env start request) = true :=
          always [request] rest rfl
        have noEnrolment : enrols userId start request = false := by
          by_contra enrolment
          simp only [Bool.not_eq_false] at enrolment
          rw [enrols_unprotects request enrolment] at after
          cases after
        refine ⟨noEnrolment, (ih _ after kept.2).mp fun earlier later split => ?_⟩
        exact always (request :: earlier) later (by rw [split]; rfl)
      · intro noEnrolment earlier later split
        cases earlier with
        | nil => exact protected'
        | cons first others =>
            obtain ⟨rfl, restSplit⟩ := List.cons.inj split
            have after := handle_protects request protected' noEnrolment.1 kept.1
            exact (ih _ after kept.2).mpr noEnrolment.2 others later restSplit

end Requests

/-- Codes and passwords are the secret and the hash themselves. -/
def plainEnv : Env :=
  { decryptSecret := id, codeOk := fun secret code => secret == code
    passwordOk := fun password hash => password == hash, hmacBackupCode := id
    dummyHash := "dummy-for-timing-defense", passwordMinLength := 4, commonPasswords := [] }

/-- `anna` with an enabled second factor. -/
def annaEnrolled : State :=
  { users := [{ adminUser 1 "anna" with mfaEnabled := true }]
    totp := Function.update (fun _ => none) 1 (some
      { secretEncrypted := "JBSW", enabled := true, backupCodesHash := [], lastUsedAt := none }) }

def annaSession : Session := { username := some "anna", userId := some 1 }

/-- A session steps up, and a disable comes without the code. -/
def careful : List Request :=
  [.stepUp annaSession false (some "JBSW") none 5, .disable annaSession "hash" "0000"]

theorem anna_stays_protected :
    protects 1 "JBSW" (run (step plainEnv) annaEnrolled careful) = true := by
  have kept : AllSteps (step plainEnv)
      (fun state request => removes plainEnv 1 state request = false) annaEnrolled careful := by
    decide +kernel
  exact (protected_iff_no_enrolment plainEnv 1 "JBSW" careful annaEnrolled (by decide) kept).mpr
    (by decide +kernel) careful [] (List.append_nil careful).symm

/-- A session alone ends the protection: after a setup request the password logs in without
a code. -/
theorem setup_drops_second_factor :
    protects 1 "JBSW" annaEnrolled = true ∧
      removes plainEnv 1 annaEnrolled (.setup annaSession "KRSX") = false ∧
      protects 1 "JBSW" (step plainEnv annaEnrolled (.setup annaSession "KRSX")) = false ∧
      loginPost plainEnv annaEnrolled "anna" "hash" false = .mfaRequired 1 ∧
      loginPost plainEnv (step plainEnv annaEnrolled (.setup annaSession "KRSX")) "anna" "hash"
        false = .session 1 := by
  decide +kernel

end OdooSemantic.WebUi.Totp
