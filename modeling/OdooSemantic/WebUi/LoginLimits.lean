import OdooSemantic.WebUi.Totp

/-!
# The limit on failed logins

`login_post` and `totp_step_up` ask `check_rate_limit`, verify a credential and record the
attempt, each at its own time; `totp_login` only verifies.  The record is lost when the database
or the client address fails it.
-/

set_option autoImplicit false

namespace OdooSemantic.WebUi.LoginLimits

open Lib.Run WebUi.Admins
open WebUi.Totp (TotpRow Session Response currentUserId verifyTotpOrBackup
  checkTotpEnabled)

/-- `_RATE_WINDOW_MINUTES` in microseconds, and the thresholds. -/
def rateWindow : Nat := 15 * 60 * 1000000

def rateMaxFailuresPerUser : Nat := 5

def rateMaxFailuresPerIp : Nat := 20

/-- A row of `login_attempts`, with the request that inserted it. -/
structure Attempt where
  request : Nat
  identifier : String
  attemptedAt : Nat
  success : Bool
  ipAddress : Option String
  deriving DecidableEq

/-- Second factors and passwords, `str.strip`, whether a peer is in `TRUSTED_PROXY_CIDRS`, and
the address a text is read as by `::inet`. -/
structure Env where
  totp : Totp.Env
  strip : String → String
  trustedPeer : String → Bool
  inet : String → Option String

/-- The header and the peer of a request. -/
structure Origin where
  peer : Option String
  forwardedFor : String

section Limiter
variable (env : Env)

def getClientIp (origin : Origin) : String :=
  let peer := origin.peer.getD "unknown"
  if env.trustedPeer peer then
    let hop := env.strip (String.ofList (origin.forwardedFor.toList.takeWhile (· != ',')))
    if hop = "" then peer else hop
  else peer

def recordLoginAttempt (attempts : List Attempt) (request now : Nat) (identifier : String)
    (success : Bool) (ipAddress : Option String) (dbOk : Bool) : List Attempt :=
  if !dbOk then attempts
  else match ipAddress with
    | none => attempts ++ [⟨request, identifier, now, success, none⟩]
    | some text =>
        match env.inet text with
        | none => attempts
        | some address => attempts ++ [⟨request, identifier, now, success, some address⟩]

def failuresOf (attempts : List Attempt) (identifier : String) (now : Nat) : List Attempt :=
  attempts.filter fun row =>
    row.identifier == identifier && decide (now < row.attemptedAt + rateWindow) && !row.success

def failuresFrom (attempts : List Attempt) (address : String) (now : Nat) : List Attempt :=
  attempts.filter fun row => row.ipAddress == some address &&
    decide (now < row.attemptedAt + rateWindow) && !row.success

def checkRateLimit (attempts : List Attempt) (now : Nat) (identifier : String)
    (ipAddress : Option String) (dbOk : Bool) : Bool :=
  if !dbOk then false
  else if rateMaxFailuresPerUser ≤ (failuresOf attempts identifier now).length then true
  else match ipAddress.filter (· != "") with
    | none => false
    | some text =>
        match env.inet text with
        | none => false
        | some address => decide (rateMaxFailuresPerIp ≤ (failuresFrom attempts address now).length)

end Limiter

/-! ## Requests -/

inductive Endpoint where
  | loginPost
  | totpStepUp
  | totpLogin
  deriving DecidableEq

def Endpoint.limited : Endpoint → Bool
  | .totpLogin => false
  | _ => true

inductive Request where
  | loginPost (username password : String)
  | totpStepUp (session : Session) (code backupCode : Option String)
  | totpLogin (mfaUserId : Option Nat) (code backupCode : Option String)

inductive Credential where
  | password (password : String)
  | secondFactor (userId : Nat) (row : TotpRow) (code backupCode : Option String)
  deriving DecidableEq

/-- A credential to verify for a username. -/
structure Check where
  endpoint : Endpoint
  identifier : String
  clientIp : String
  credential : Credential
  deriving DecidableEq

/-- Where a request stands; `table` is what its limit check read, and when. -/
inductive Phase where
  | idle
  | limiting (check : Check)
  | verifying (check : Check) (table : List Attempt) (checkedAt : Nat)
  | recording (check : Check) (success : Bool) (response : Response)
  | ended (response : Response)
  deriving DecidableEq

structure Failure where
  request : Nat
  username : String
  evaluatedAt : Nat

structure State where
  now : Nat
  accounts : Totp.State
  attempts : List Attempt
  phase : Nat → Phase
  failures : List Failure

inductive Event where
  | begin (request : Nat) (origin : Origin) (asked : Request)
  | limit (request : Nat) (dbOk : Bool)
  | evaluate (request : Nat) (lookupOk statusOk : Bool) (stamp : Nat)
  | record (request : Nat) (dbOk : Bool)
  | fail (request : Nat)
  | wait (micros : Nat)
  | others (accounts : Totp.State)

def State.setPhase (state : State) (request : Nat) (phase : Phase) : State :=
  { state with phase := Function.update state.phase request phase }

inductive Verdict where
  | passed (response : Response)
  | malformed (response : Response)
  | failed (response : Response)

def Verdict.isFailed : Verdict → Bool
  | .failed _ => true
  | _ => false

section Requests
variable (env : Env)

def opens (accounts : Totp.State) (origin : Origin) (now : Nat) : Request → Phase
  | .loginPost username password =>
      if password.length < env.totp.passwordMinLength then .ended (.error 401 "invalid_credentials")
      else .limiting
        ⟨.loginPost, env.strip username, getClientIp env origin, .password password⟩
  | .totpStepUp session code backupCode =>
      match currentUserId accounts session with
      | none => .ended (.error 401 "not_authenticated")
      | some userId =>
          match accounts.users.find? (·.id == userId) with
          | none => .ended (.error 404 "user_not_found")
          | some user =>
              match (accounts.totp userId).filter (·.enabled) with
              | none => .ended (.error 400 "totp_not_setup")
              | some row => .limiting ⟨.totpStepUp, user.username, getClientIp env origin,
                  .secondFactor userId row code backupCode⟩
  | .totpLogin mfaUserId code backupCode =>
      match mfaUserId with
      | none => .ended (.error 401 "invalid_mfa_token")
      | some userId =>
          match accounts.users.find? (·.id == userId) with
          | none => .ended (.error 404 "user_not_found")
          | some user =>
              match (accounts.totp userId).filter (·.enabled) with
              | none => .ended (.error 400 "totp_not_enabled")
              | some row => .verifying ⟨.totpLogin, user.username, getClientIp env origin,
                  .secondFactor userId row code backupCode⟩ [] now

def judge (accounts : Totp.State) (check : Check) (lookupOk statusOk : Bool) (stamp : Nat) :
    Totp.State × Verdict :=
  match check.credential with
  | .password password =>
      match if lookupOk then accounts.users.find? (·.username == check.identifier) else none with
      | none => (accounts, .failed (.error 401 "invalid_credentials"))
      | some user =>
          if !env.totp.passwordOk password (user.passwordHash.getD env.totp.dummyHash) ||
              !user.isActive || env.totp.commonPasswords.contains password then
            (accounts, .failed (.error 401 "invalid_credentials"))
          else match if statusOk then checkTotpEnabled accounts check.identifier else none with
            | some userId => (accounts, .passed (.mfaRequired userId))
            | none => (accounts, .passed (.session user.id))
  | .secondFactor userId row code backupCode =>
      match verifyTotpOrBackup env.totp accounts userId row code backupCode stamp with
      | (next, none) =>
          (next, .passed (if check.endpoint.limited then .ok else .session userId))
      | (next, some key) =>
          if key = "code_or_backup_code_required" then (next, .malformed (.error 400 key))
          else (next, .failed (.error 401 key))

def limit (state : State) (request : Nat) (dbOk : Bool) : State :=
  match state.phase request with
  | .limiting check =>
      if checkRateLimit env state.attempts state.now check.identifier (some check.clientIp)
          dbOk then
        state.setPhase request
          (.ended (.error 429 "Too many failed login attempts; please wait before retrying"))
      else
        state.setPhase request
          (.verifying check (if dbOk then state.attempts else []) state.now)
  | _ => state

def evaluate (state : State) (request : Nat) (lookupOk statusOk : Bool) (stamp : Nat) : State :=
  match state.phase request with
  | .verifying check _ _ =>
      match judge env state.accounts check lookupOk statusOk stamp with
      | (accounts, .malformed response) =>
          { state.setPhase request (.ended response) with accounts }
      | (accounts, .passed response) =>
          { state.setPhase request
              (if check.endpoint.limited then .recording check true response else .ended response) with
            accounts }
      | (accounts, .failed response) =>
          { state.setPhase request
              (if check.endpoint.limited then .recording check false response
                else .ended response) with
            accounts
            failures := state.failures ++ [⟨request, check.identifier, state.now⟩] }
  | _ => state

def record (state : State) (request : Nat) (dbOk : Bool) : State :=
  match state.phase request with
  | .recording check success response =>
      { state.setPhase request (.ended response) with
        attempts := recordLoginAttempt env state.attempts request state.now check.identifier success
          (some check.clientIp) dbOk }
  | _ => state

def step (state : State) : Event → State
  | .begin request origin asked =>
      if state.phase request = .idle then
        state.setPhase request (opens env state.accounts origin state.now asked)
      else state
  | .limit request dbOk => limit env state request dbOk
  | .evaluate request lookupOk statusOk stamp => evaluate env state request lookupOk statusOk stamp
  | .record request dbOk => record env state request dbOk
  | .fail request =>
      match state.phase request with
      | .idle => state
      | _ => state.setPhase request (.ended (.error 500 "internal_error"))
  | .wait micros => { state with now := state.now + micros }
  | .others accounts => { state with accounts }

/-- No request has begun and no attempt is recorded. -/
def resting (accounts : Totp.State) (now : Nat) : State := ⟨now, accounts, [], fun _ => .idle, []⟩

def within (failures : List Failure) (username : String) (since : Nat) : List Failure :=
  failures.filter fun failure => failure.username == username &&
    decide (since ≤ failure.evaluatedAt) && decide (failure.evaluatedAt < since + rateWindow)

def AtMostFive (state : State) : Prop :=
  ∀ username since, (within state.failures username since).length ≤ rateMaxFailuresPerUser

/-- No failure of the last window escapes a request whose credential fails: each was recorded
before its limit check.  A request without a limit check has read nothing. -/
def seen (state : State) : Event → Bool
  | .evaluate request lookupOk statusOk stamp =>
      match state.phase request with
      | .verifying check table _ =>
          !(judge env state.accounts check lookupOk statusOk stamp).2.isFailed ||
            state.failures.all fun failure =>
              failure.username != check.identifier ||
                !decide (state.now < failure.evaluatedAt + rateWindow) ||
                table.any fun row => row.request == failure.request && !row.success
      | _ => true
  | _ => true

end Requests

/-- The credential of the request has been checked. -/
def Phase.judged : Phase → Bool
  | .recording _ _ _ => true
  | .ended _ => true
  | _ => false

structure Inv (state : State) : Prop where
  once : (state.failures.map (·.request)).Nodup
  judged : ∀ failure ∈ state.failures, (state.phase failure.request).judged = true
  rows : ∀ row ∈ state.attempts, row.success = false → ∃ failure ∈ state.failures,
    failure.request = row.request ∧ failure.username = row.identifier ∧
      failure.evaluatedAt ≤ row.attemptedAt
  pending : ∀ request check response, state.phase request = .recording check false response →
    ∃ failure ∈ state.failures, failure.request = request ∧
      failure.username = check.identifier ∧ failure.evaluatedAt ≤ state.now
  tables : ∀ request check table checkedAt,
    state.phase request = .verifying check table checkedAt →
      (∀ row ∈ table, row ∈ state.attempts) ∧ checkedAt ≤ state.now ∧
        (failuresOf table check.identifier checkedAt).length < rateMaxFailuresPerUser
  bound : AtMostFive state

section Steps
variable {env : Env} {state : State} {request : Nat}

theorem Inv.setPhase (inv : Inv state) {phase : Phase}
    (judged : (state.phase request).judged = true → phase.judged = true)
    (pending : ∀ check response, phase = .recording check false response →
      ∃ failure ∈ state.failures, failure.request = request ∧
        failure.username = check.identifier ∧ failure.evaluatedAt ≤ state.now)
    (tables : ∀ check table checkedAt, phase = .verifying check table checkedAt →
      (∀ row ∈ table, row ∈ state.attempts) ∧ checkedAt ≤ state.now ∧
        (failuresOf table check.identifier checkedAt).length < rateMaxFailuresPerUser) :
    Inv (state.setPhase request phase) := by
  have self : (state.setPhase request phase).phase request = phase := Function.update_self ..
  have rest : ∀ other, other ≠ request →
      (state.setPhase request phase).phase other = state.phase other :=
    fun other apart => Function.update_of_ne apart ..
  refine ⟨inv.once, ?_, inv.rows, ?_, ?_, inv.bound⟩
  · intro failure member
    by_cases acting : failure.request = request
    · rw [acting, self]
      exact judged (acting ▸ inv.judged failure member)
    · rw [rest _ acting]
      exact inv.judged failure member
  · intro other check response isRecording
    by_cases acting : other = request
    · rw [acting, self] at isRecording
      rw [acting]
      exact pending check response isRecording
    · rw [rest other acting] at isRecording
      exact inv.pending other check response isRecording
  · intro other check table checkedAt isVerifying
    by_cases acting : other = request
    · rw [acting, self] at isVerifying
      exact tables check table checkedAt isVerifying
    · rw [rest other acting] at isVerifying
      exact inv.tables other check table checkedAt isVerifying

theorem Inv.close (inv : Inv state) {phase : Phase} (judged : phase.judged = true)
    (passed : ∀ check response, phase ≠ .recording check false response) :
    Inv (state.setPhase request phase) := by
  refine inv.setPhase (fun _ => judged) (fun check response same => ?_)
    fun check table checkedAt same => ?_
  · exact absurd same (passed check response)
  · rw [same] at judged
    cases judged

theorem Inv.others (inv : Inv state) (accounts : Totp.State) :
    Inv { state with accounts } :=
  ⟨inv.once, inv.judged, inv.rows, inv.pending, inv.tables, inv.bound⟩

theorem Inv.begin (inv : Inv state) (isIdle : state.phase request = .idle) (origin : Origin)
    (asked : Request) :
    Inv (state.setPhase request (opens env state.accounts origin state.now asked)) := by
  have fresh : (state.phase request).judged = false := by rw [isIdle]; rfl
  have opened : (∀ check response, opens env state.accounts origin state.now asked ≠
      .recording check false response) ∧ ∀ check table checkedAt,
        opens env state.accounts origin state.now asked = .verifying check table checkedAt →
          table = [] ∧ checkedAt = state.now := by
    unfold opens
    cases asked with
    | loginPost username password =>
        simp only
        split
        · simp
        · simp
    | totpStepUp session code backupCode =>
        simp only
        split
        · simp
        split
        · simp
        split
        · simp
        · simp
    | totpLogin mfaUserId code backupCode =>
        simp only
        split
        · simp
        split
        · simp
        split
        · simp
        · simp only [ne_eq, reduceCtorEq, not_false_eq_true, implies_true, true_and,
            Phase.verifying.injEq]
          rintro check table checkedAt ⟨-, rfl, rfl⟩
          exact ⟨rfl, rfl⟩
  refine inv.setPhase (fun was => ?_) (fun check response same => ?_)
    fun check table checkedAt same => ?_
  · rw [fresh] at was
    cases was
  · exact absurd same (opened.1 check response)
  · obtain ⟨rfl, rfl⟩ := opened.2 check table checkedAt same
    exact ⟨fun row member => absurd member List.not_mem_nil, Nat.le_refl _, Nat.zero_lt_succ 4⟩

theorem Inv.limit (inv : Inv state) (dbOk : Bool) :
    Inv (LoginLimits.limit env state request dbOk) := by
  unfold LoginLimits.limit
  cases phase : state.phase request with
  | limiting check =>
      simp only
      by_cases limited : checkRateLimit env state.attempts state.now check.identifier
          (some check.clientIp) dbOk = true
      · rw [if_pos limited]
        exact inv.close rfl (by simp)
      · rw [if_neg limited]
        refine inv.setPhase (fun was => ?_) (by simp) fun other table checkedAt same => ?_
        · rw [phase] at was
          cases was
        · cases same
          refine ⟨fun row member => ?_, Nat.le_refl _, ?_⟩
          · split at member
            · exact member
            · cases member
          · cases dbOk with
            | false => exact Nat.zero_lt_succ 4
            | true =>
                by_contra many
                refine limited ?_
                rw [checkRateLimit, if_neg (by simp), if_pos (by simpa using many)]
  | idle | verifying check table checkedAt | recording check success response
  | ended response => exact inv

theorem Inv.few (inv : Inv state) {check : Check} {table : List Attempt} {checkedAt : Nat}
    (phase : state.phase request = .verifying check table checkedAt)
    (counted : ∀ failure ∈ state.failures, failure.username = check.identifier →
      state.now < failure.evaluatedAt + rateWindow →
      ∃ row ∈ table, row.request = failure.request ∧ row.success = false)
    {since : Nat} (inWindow : state.now < since + rateWindow) :
    (within state.failures check.identifier since).length < rateMaxFailuresPerUser := by
  obtain ⟨sub, before, few⟩ := inv.tables request check table checkedAt phase
  have distinct : ((within state.failures check.identifier since).map (·.request)).Nodup :=
    inv.once.sublist ((List.filter_sublist).map _)
  have listed : (within state.failures check.identifier since).map (·.request) ⊆
      (failuresOf table check.identifier checkedAt).map (·.request) := by
    intro id member
    obtain ⟨failure, inside, rfl⟩ := List.mem_map.mp member
    simp only [within, List.mem_filter, Bool.and_eq_true, beq_iff_eq, decide_eq_true_eq] at inside
    obtain ⟨isFailure, ⟨isUser, low⟩, high⟩ := inside
    obtain ⟨row, inTable, isRequest, failed⟩ := counted failure isFailure isUser (by omega)
    obtain ⟨other, otherIn, sameRequest, identifier, earlier⟩ := inv.rows row (sub row inTable) failed
    have same : other = failure :=
      List.inj_on_of_nodup_map inv.once otherIn isFailure (sameRequest.trans isRequest)
    subst same
    refine List.mem_map.mpr ⟨row, ?_, isRequest⟩
    simp only [failuresOf, List.mem_filter, Bool.and_eq_true, beq_iff_eq, decide_eq_true_eq,
      Bool.not_eq_true']
    exact ⟨inTable, ⟨identifier.symm.trans isUser, by omega⟩, failed⟩
  have fits := List.Nodup.length_le_of_subset distinct listed
  rw [List.length_map, List.length_map] at fits
  omega

theorem Inv.fail (inv : Inv state) {check : Check} {table : List Attempt} {checkedAt : Nat}
    {phase : Phase} (verifying : state.phase request = .verifying check table checkedAt)
    (counted : ∀ failure ∈ state.failures, failure.username = check.identifier →
      state.now < failure.evaluatedAt + rateWindow →
      ∃ row ∈ table, row.request = failure.request ∧ row.success = false)
    (judged : phase.judged = true)
    (recording : ∀ other response, phase = .recording other false response → other = check)
    (accounts : Totp.State) :
    Inv { state.setPhase request phase with
      accounts
      failures := state.failures ++ [⟨request, check.identifier, state.now⟩] } := by
  have self : Function.update state.phase request phase request = phase := Function.update_self ..
  have fresh : ∀ failure ∈ state.failures, failure.request ≠ request := by
    intro failure member same
    have was := inv.judged failure member
    rw [same, verifying] at was
    cases was
  refine ⟨?_, ?_, ?_, ?_, ?_, ?_⟩
  · rw [List.map_append, List.nodup_append]
    refine ⟨inv.once, List.nodup_singleton _, fun id member other isNew => ?_⟩
    obtain ⟨failure, inFailures, rfl⟩ := List.mem_map.mp member
    rw [List.map_singleton, List.mem_singleton] at isNew
    rw [isNew]
    exact fresh failure inFailures
  · intro failure member
    rcases List.mem_append.mp member with old | isNew
    · simp only [State.setPhase, Function.update_of_ne (fresh failure old)]
      exact inv.judged failure old
    · rw [List.mem_singleton.mp isNew]
      simp only [State.setPhase, self]
      exact judged
  · intro row member failed
    obtain ⟨failure, inFailures, rest⟩ := inv.rows row member failed
    exact ⟨failure, List.mem_append_left _ inFailures, rest⟩
  · intro other otherCheck response isRecording
    simp only [State.setPhase] at isRecording
    by_cases acting : other = request
    · rw [acting, self] at isRecording
      cases recording otherCheck response isRecording
      exact ⟨_, List.mem_append_right _ (List.mem_singleton_self _), acting.symm, rfl,
        Nat.le_refl _⟩
    · rw [Function.update_of_ne acting] at isRecording
      obtain ⟨failure, inFailures, rest⟩ := inv.pending other otherCheck response isRecording
      exact ⟨failure, List.mem_append_left _ inFailures, rest⟩
  · intro other otherCheck otherTable otherAt isVerifying
    simp only [State.setPhase] at isVerifying
    by_cases acting : other = request
    · rw [acting, self] at isVerifying
      rw [isVerifying] at judged
      cases judged
    · rw [Function.update_of_ne acting] at isVerifying
      exact inv.tables other otherCheck otherTable otherAt isVerifying
  · intro username since
    change (within (state.failures ++ [⟨request, check.identifier, state.now⟩]) username
      since).length ≤ _
    rw [within, List.filter_append, List.length_append, List.filter_cons, List.filter_nil]
    have old := inv.bound username since
    rw [within] at old
    split
    · rename_i counts
      simp only [Bool.and_eq_true, beq_iff_eq, decide_eq_true_eq] at counts
      have few := inv.few verifying counted counts.2
      rw [counts.1.1, within] at few
      rw [List.length_singleton]
      omega
    · rw [List.length_nil]
      omega

theorem Inv.evaluate (inv : Inv state) {lookupOk statusOk : Bool} {stamp : Nat}
    (isSeen : seen env state (.evaluate request lookupOk statusOk stamp) = true) :
    Inv (LoginLimits.evaluate env state request lookupOk statusOk stamp) := by
  unfold LoginLimits.evaluate
  unfold seen at isSeen
  cases phase : state.phase request with
  | verifying check table checkedAt =>
      simp only [phase] at isSeen ⊢
      cases judgement : judge env state.accounts check lookupOk statusOk stamp with
      | mk accounts verdict =>
        rw [judgement] at isSeen
        cases verdict with
        | passed response =>
            simp only
            refine (inv.close ?_ ?_).others accounts
            · split <;> rfl
            · intro other response'
              split <;> simp
        | malformed response => exact (inv.close rfl (by simp)).others accounts
        | failed response =>
            simp only [Verdict.isFailed, Bool.not_true, Bool.false_or, List.all_eq_true] at isSeen
            refine inv.fail phase (fun failure member isUser inWindow => ?_) ?_ ?_ accounts
            · have escaped := isSeen failure member
              simp only [isUser, bne_self_eq_false, inWindow, decide_true, Bool.not_true,
                Bool.false_or, List.any_eq_true, Bool.and_eq_true, beq_iff_eq,
                Bool.not_eq_true'] at escaped
              exact escaped
            · split <;> rfl
            · intro other response'
              split
              · intro same
                cases same
                rfl
              · intro same
                cases same
  | idle | limiting check | recording check success response | ended response => exact inv

theorem Inv.record (inv : Inv state) (dbOk : Bool) :
    Inv (LoginLimits.record env state request dbOk) := by
  unfold LoginLimits.record
  cases phase : state.phase request with
  | recording check success response =>
      simp only
      have closed : Inv (state.setPhase request (.ended response)) := inv.close rfl (by simp)
      have rows : recordLoginAttempt env state.attempts request state.now check.identifier success
          (some check.clientIp) dbOk = state.attempts ∨
          ∃ address, recordLoginAttempt env state.attempts request state.now check.identifier success
            (some check.clientIp) dbOk =
              state.attempts ++ [⟨request, check.identifier, state.now, success, address⟩] := by
        cases dbOk with
        | false => exact Or.inl rfl
        | true =>
            cases address : env.inet check.clientIp with
            | none =>
                refine Or.inl ?_
                simp only [recordLoginAttempt, address, Bool.not_true, Bool.false_eq_true, if_false]
            | some parsed =>
                refine Or.inr ⟨some parsed, ?_⟩
                simp only [recordLoginAttempt, address, Bool.not_true, Bool.false_eq_true, if_false]
      rcases rows with same | ⟨address, grows⟩
      · rw [same]
        exact closed
      · rw [grows]
        refine ⟨closed.once, closed.judged, ?_, closed.pending, ?_, closed.bound⟩
        · intro row member failed
          rcases List.mem_append.mp member with old | isNew
          · exact inv.rows row old failed
          · rw [List.mem_singleton.mp isNew] at failed ⊢
            cases failed
            exact inv.pending request check response phase
        · intro other otherCheck table checkedAt isVerifying
          obtain ⟨sub, rest⟩ := closed.tables other otherCheck table checkedAt isVerifying
          exact ⟨fun row member => List.mem_append_left _ (sub row member), rest⟩
  | idle | limiting check | verifying check table checkedAt | ended response => exact inv

theorem Inv.step (inv : Inv state) {event : Event} (isSeen : seen env state event = true) :
    Inv (LoginLimits.step env state event) := by
  cases event with
  | begin request origin asked =>
      simp only [LoginLimits.step]
      by_cases isIdle : state.phase request = .idle
      · rw [if_pos isIdle]
        exact inv.begin isIdle origin asked
      · rw [if_neg isIdle]
        exact inv
  | limit request dbOk => exact inv.limit dbOk
  | evaluate request lookupOk statusOk stamp => exact inv.evaluate isSeen
  | record request dbOk => exact inv.record dbOk
  | fail request =>
      simp only [LoginLimits.step]
      split
      · exact inv
      · exact inv.close rfl (by simp)
  | wait micros =>
      refine ⟨inv.once, inv.judged, inv.rows, ?_, ?_, inv.bound⟩
      · intro request check response isRecording
        obtain ⟨failure, member, isRequest, isUser, before⟩ :=
          inv.pending request check response isRecording
        exact ⟨failure, member, isRequest, isUser, Nat.le_trans before (Nat.le_add_right _ _)⟩
      · intro request check table checkedAt isVerifying
        obtain ⟨sub, before, few⟩ := inv.tables request check table checkedAt isVerifying
        exact ⟨sub, Nat.le_trans before (Nat.le_add_right _ _), few⟩
  | others accounts => exact inv.others accounts

end Steps

theorem inv_resting (accounts : Totp.State) (now : Nat) : Inv (resting accounts now) := by
  refine ⟨List.nodup_nil, ?_, ?_, ?_, ?_, ?_⟩
  · intro failure member
    cases member
  · intro row member
    cases member
  · intro request check response isRecording
    cases isRecording
  · intro request check table checkedAt isVerifying
    cases isVerifying
  · intro username since
    exact Nat.zero_le _

/-- In every interleaving in which no failure of the window escapes a request whose credential
fails, at most five failures of a username lie in any window. -/
theorem run_atMostFive (env : Env) (accounts : Totp.State) (now : Nat) (events : List Event)
    (allSeen : AllSteps (step env) (fun state event => seen env state event = true)
      (resting accounts now) events) :
    AtMostFive (run (step env) (resting accounts now) events) :=
  (run_preserves_guarded (step env) (fun state event => seen env state event = true) Inv
    (fun _ _ isSeen inv => inv.step isSeen) events _ allSeen (inv_resting accounts now)).bound

/-- `10.0.0.1` is a trusted proxy; `unknown` is no address. -/
def proxied : Env :=
  { totp := Totp.plainEnv, strip := id, trustedPeer := (· == "10.0.0.1")
    inet := fun text => if text == "unknown" then none else some text }

def direct : Origin := ⟨some "203.0.113.7", ""⟩

def wrongPassword (origin : Origin) (request : Nat) : List Event :=
  [.begin request origin (.loginPost "anna" "wrong"), .limit request true,
    .evaluate request true true 0, .record request true, .wait 1000000]

def wrongCode (request : Nat) : List Event :=
  [.begin request direct (.totpLogin (some 1) (some "0000") none), .evaluate request true true 0]

/-- Six logins pass the limit check before one of them is recorded. -/
def overlapping : List Event :=
  ((List.range 6).flatMap fun request =>
    [.begin request direct (.loginPost "anna" "wrong"), .limit request true]) ++
  (List.range 6).flatMap fun request => [.evaluate request true true 0, .record request true]

theorem one_by_one :
    let state := run (step proxied) (resting Totp.annaEnrolled 0)
      ((List.range 7).flatMap (wrongPassword direct))
    AtMostFive state ∧ state.failures.length = 5 := by
  have allSeen : AllSteps (step proxied) (fun state event => seen proxied state event = true)
      (resting Totp.annaEnrolled 0) ((List.range 7).flatMap (wrongPassword direct)) := by
    decide +kernel
  exact ⟨run_atMostFive proxied Totp.annaEnrolled 0 _ allSeen, by decide +kernel⟩

/-- Six codes at `totp_login`, six overlapping logins, and six logins one by one with a forwarded
client that is no address. -/
theorem sixth_failure :
    let reached := run (step proxied) (resting Totp.annaEnrolled 0)
    ¬ AtMostFive (reached ((List.range 6).flatMap wrongCode)) ∧
      ¬ AtMostFive (reached overlapping) ∧
      ¬ AtMostFive (reached
        ((List.range 6).flatMap (wrongPassword ⟨some "10.0.0.1", "unknown"⟩))) := by
  refine ⟨fun few => ?_, fun few => ?_, fun few => ?_⟩
  · exact absurd (few "anna" 0) (by decide +kernel)
  · exact absurd (few "anna" 0) (by decide +kernel)
  · exact absurd (few "anna" 0) (by decide +kernel)

end OdooSemantic.WebUi.LoginLimits
