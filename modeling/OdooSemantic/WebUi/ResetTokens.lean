import Mathlib.Data.List.Nodup
import OdooSemantic.Lib.Run

/-!
# Password reset tokens

The admin link and the self-serve task issue reset tokens into `email_verifications`; one
redeemer reads them.  The table keeps two columns for the hash: its key `token`, and
`token_hash`, which only one of the issuers fills.
-/

set_option autoImplicit false

namespace OdooSemantic.WebUi.ResetTokens

open Lib.Run

inductive Purpose where
  | emailVerify
  | passwordReset
  deriving DecidableEq

/-- A row of `email_verifications`. -/
structure TokenRow where
  token : String
  userId : Nat
  purpose : Purpose
  tokenHash : Option String
  expiresAt : Nat
  usedAt : Option Nat
  createdAt : Nat
  deriving DecidableEq

inductive Violation where
  | notNull
  | unique

/-- An INSERT under the primary key `token`. -/
def insertRow (rows : List TokenRow) (token : Option String) (row : String → TokenRow) :
    Except Violation (List TokenRow) :=
  match token with
  | none => .error .notNull
  | some token =>
      if rows.any (·.token == token) then .error .unique else .ok (rows ++ [row token])

section Tokens
variable (sha256 : String → String)

/-- `create_password_reset_token`: the first INSERT leaves `token` out. -/
def createPasswordResetToken (rows : List TokenRow) (userId ttlSeconds : Nat) (rawToken : String)
    (now : Nat) : Except Violation String × List TokenRow :=
  let tokenHash := sha256 rawToken
  let row := fun token =>
    { token, userId, purpose := .passwordReset, tokenHash := some tokenHash
      expiresAt := now + ttlSeconds, usedAt := none, createdAt := now }
  match insertRow rows none row with
  | .ok rows => (.ok rawToken, rows)
  | .error _ =>
      match insertRow rows (some tokenHash) row with
      | .ok rows => (.ok rawToken, rows)
      | .error violation => (.error violation, rows)

/-- What `_process_forgot_password` finds for an e-mail. -/
structure ForgottenUser where
  id : Nat
  emailVerified : Bool

/-- `_process_forgot_password`: the token that is mailed, if any. -/
def processForgotPassword (rows : List TokenRow) (user : Option ForgottenUser) (rawToken : String)
    (now : Nat) : Option String × List TokenRow :=
  match user.filter (·.emailVerified) with
  | none => (none, rows)
  | some user =>
      match insertRow rows (some (sha256 rawToken)) fun token =>
          { token, userId := user.id, purpose := .passwordReset, tokenHash := none
            expiresAt := now + 24 * 3600, usedAt := none, createdAt := now } with
      | .ok rows => (some rawToken, rows)
      | .error _ => (none, rows)

/-- The verification token of `register` and of `resend_verification`. -/
def issueVerification (rows : List TokenRow) (userId : Nat) (rawToken : String)
    (ttlHours now : Nat) : List TokenRow :=
  match insertRow rows (some (sha256 rawToken)) fun token =>
      { token, userId, purpose := .emailVerify, tokenHash := none
        expiresAt := now + ttlHours * 3600, usedAt := none, createdAt := now } with
  | .ok rows => rows
  | .error _ => rows

/-- `resend_verification`: at most three tokens an hour for an unverified user. -/
def resendVerification (rows : List TokenRow) (userId : Option Nat) (rawToken : String)
    (ttlHours now : Nat) : List TokenRow :=
  match userId with
  | none => rows
  | some userId =>
      let sent := rows.filter fun row =>
        row.userId == userId && row.purpose == .emailVerify && decide (now < row.createdAt + 3600)
      if 3 ≤ sent.length then rows else issueVerification sha256 rows userId rawToken ttlHours now

def markUsed (rows : List TokenRow) (guard : TokenRow → Bool) (now : Nat) : List TokenRow :=
  rows.map fun row => if guard row then { row with usedAt := some now } else row

/-- `verify_email` burns the verification token of a user that exists. -/
def verifyEmail (rows : List TokenRow) (rawToken : String) (userExists : Bool) (now : Nat) :
    List TokenRow :=
  let tokenHash := sha256 rawToken
  match rows.find? fun row => row.token == tokenHash && row.purpose == .emailVerify with
  | none => rows
  | some row =>
      if row.usedAt.isSome || decide (row.expiresAt < now) || !userExists then rows
      else markUsed rows (·.token == tokenHash) now

def verifyPasswordResetToken (rows : List TokenRow) (rawToken : String) (now : Nat) :
    Except String (Option Nat) :=
  match rows.find? fun row =>
      row.tokenHash == some (sha256 rawToken) && row.purpose == .passwordReset with
  | none => .ok none
  | some row =>
      if row.usedAt.isSome then .error "used"
      else if row.expiresAt < now then .error "expired"
      else .ok (some row.userId)

/-- `consume_password_reset_token`, one transaction under the lock of the row. -/
def consumePasswordResetToken (rows : List TokenRow) (rawToken : String) (now : Nat) :
    Except String (Option Nat) × List TokenRow :=
  let tokenHash := sha256 rawToken
  match rows.find? fun row => row.tokenHash == some tokenHash && row.purpose == .passwordReset with
  | none => (.ok none, rows)
  | some row =>
      if row.usedAt.isSome then (.error "used", rows)
      else if row.expiresAt < now then (.error "expired", rows)
      else (.ok (some row.userId), markUsed rows (·.tokenHash == some tokenHash) now)

inductive Op where
  | createPasswordResetToken (userId ttlSeconds : Nat) (rawToken : String) (now : Nat)
  | processForgotPassword (user : Option ForgottenUser) (rawToken : String) (now : Nat)
  | register (userId : Nat) (rawToken : String) (ttlHours now : Nat)
  | resendVerification (userId : Option Nat) (rawToken : String) (ttlHours now : Nat)
  | verifyEmail (rawToken : String) (userExists : Bool) (now : Nat)
  | consume (rawToken : String) (now : Nat)

def step (rows : List TokenRow) : Op → List TokenRow
  | .createPasswordResetToken userId ttlSeconds rawToken now =>
      (createPasswordResetToken sha256 rows userId ttlSeconds rawToken now).2
  | .processForgotPassword user rawToken now =>
      (processForgotPassword sha256 rows user rawToken now).2
  | .register userId rawToken ttlHours now =>
      issueVerification sha256 rows userId rawToken ttlHours now
  | .resendVerification userId rawToken ttlHours now =>
      resendVerification sha256 rows userId rawToken ttlHours now
  | .verifyEmail rawToken userExists now => verifyEmail sha256 rows rawToken userExists now
  | .consume rawToken now => (consumePasswordResetToken sha256 rows rawToken now).2

inductive Issuer where
  | adminLink
  | selfServe
  deriving DecidableEq

structure Issued where
  issuer : Issuer
  rawToken : String
  userId : Nat
  expiresAt : Nat
  deriving DecidableEq

def issued (rows : List TokenRow) : Op → Option Issued
  | .createPasswordResetToken userId ttlSeconds rawToken now =>
      (createPasswordResetToken sha256 rows userId ttlSeconds rawToken now).1.toOption.map
        fun rawToken => ⟨.adminLink, rawToken, userId, now + ttlSeconds⟩
  | .processForgotPassword user rawToken now =>
      (processForgotPassword sha256 rows user rawToken now).1.bind fun rawToken =>
        user.map fun user => ⟨.selfServe, rawToken, user.id, now + 24 * 3600⟩
  | _ => none

def redeems (rows : List TokenRow) (rawToken : String) : Op → Bool
  | .consume other now =>
      sha256 other == sha256 rawToken &&
        (consumePasswordResetToken sha256 rows other now).1.toOption.join.isSome
  | _ => false

end Tokens

/-- The key holds, and a row that fills both columns fills them alike. -/
structure Keyed (rows : List TokenRow) : Prop where
  nodup : (rows.map (·.token)).Nodup
  sameHash : ∀ row ∈ rows, ∀ tokenHash, row.tokenHash = some tokenHash → row.token = tokenHash

theorem Keyed.eq_of_token {rows : List TokenRow} (keyed : Keyed rows) {first second : TokenRow}
    (firstIn : first ∈ rows) (secondIn : second ∈ rows) (same : first.token = second.token) :
    first = second :=
  List.inj_on_of_nodup_map keyed.nodup firstIn secondIn same

/-- What one operation does: nothing, one row more, or one use of a token. -/
inductive Change (sha256 : String → String) (rows : List TokenRow) (op : Op) :
    List TokenRow → Prop where
  | same : Change sha256 rows op rows
  | inserted (row : TokenRow) (new : ∀ old ∈ rows, old.token ≠ row.token)
      (sameHash : ∀ tokenHash, row.tokenHash = some tokenHash → row.token = tokenHash) :
      Change sha256 rows op (rows ++ [row])
  | verified (used : TokenRow) (now : Nat) (member : used ∈ rows)
      (purpose : used.purpose = .emailVerify) :
      Change sha256 rows op (markUsed rows (·.token == used.token) now)
  | redeemed (rawToken : String) (now : Nat) (redeems' : redeems sha256 rows rawToken op = true) :
      Change sha256 rows op (markUsed rows (·.tokenHash == some (sha256 rawToken)) now)

section Changes
variable {sha256 : String → String} {rows : List TokenRow}

theorem insertRow_cases {next : List TokenRow} {token : String} {row : String → TokenRow}
    (inserts : insertRow rows (some token) row = .ok next) :
    next = rows ++ [row token] ∧ ∀ old ∈ rows, old.token ≠ token := by
  unfold insertRow at inserts
  simp only at inserts
  split at inserts
  · cases inserts
  · rename_i new
    cases inserts
    refine ⟨rfl, fun old member same => new ?_⟩
    exact List.any_eq_true.mpr ⟨old, member, by simp [same]⟩

/-- Only the second INSERT of `create_password_reset_token` can succeed. -/
theorem createPasswordResetToken_cases (userId ttlSeconds : Nat) (rawToken : String) (now : Nat) :
    (∃ violation, createPasswordResetToken sha256 rows userId ttlSeconds rawToken now =
      (.error violation, rows)) ∨
    createPasswordResetToken sha256 rows userId ttlSeconds rawToken now = (.ok rawToken, rows ++
        [{ token := sha256 rawToken, userId, purpose := .passwordReset
           tokenHash := some (sha256 rawToken), expiresAt := now + ttlSeconds, usedAt := none
           createdAt := now }]) ∧
      ∀ old ∈ rows, old.token ≠ sha256 rawToken := by
  unfold createPasswordResetToken
  simp only [insertRow]
  split
  · rename_i inserts
    split at inserts
    · cases inserts
    · rename_i new
      cases inserts
      exact Or.inr ⟨rfl, fun old member same => new (List.any_eq_true.mpr ⟨old, member, by simp [same]⟩)⟩
  · exact Or.inl ⟨_, rfl⟩

theorem processForgotPassword_cases (user : Option ForgottenUser) (rawToken : String) (now : Nat) :
    processForgotPassword sha256 rows user rawToken now = (none, rows) ∨
    ∃ found, user = some found ∧
      processForgotPassword sha256 rows user rawToken now = (some rawToken, rows ++
        [{ token := sha256 rawToken, userId := found.id, purpose := .passwordReset, tokenHash := none
           expiresAt := now + 24 * 3600, usedAt := none, createdAt := now }]) ∧
      ∀ old ∈ rows, old.token ≠ sha256 rawToken := by
  unfold processForgotPassword
  cases known : user.filter (·.emailVerified) with
  | none => exact Or.inl rfl
  | some found =>
      simp only
      split
      · rename_i next inserts
        obtain ⟨rfl, new⟩ := insertRow_cases inserts
        exact Or.inr ⟨found, (Option.filter_eq_some_iff.mp known).1, rfl, new⟩
      · exact Or.inl rfl

theorem issueVerification_change (op : Op) (userId : Nat) (rawToken : String) (ttlHours now : Nat) :
    Change sha256 rows op (issueVerification sha256 rows userId rawToken ttlHours now) := by
  unfold issueVerification
  split
  · rename_i next inserts
    obtain ⟨rfl, new⟩ := insertRow_cases inserts
    exact .inserted _ new fun tokenHash filled => by cases filled
  · exact .same

theorem step_change (op : Op) : Change sha256 rows op (step sha256 rows op) := by
  cases op with
  | createPasswordResetToken userId ttlSeconds rawToken now =>
      simp only [step]
      rcases createPasswordResetToken_cases userId ttlSeconds rawToken now with
        ⟨violation, refused⟩ | ⟨inserts, new⟩
      · rw [refused]
        exact .same
      · rw [inserts]
        exact .inserted _ new fun tokenHash filled => Option.some.inj filled
  | processForgotPassword user rawToken now =>
      simp only [step]
      rcases processForgotPassword_cases user rawToken now with refused | ⟨found, -, inserts, new⟩
      · rw [refused]
        exact .same
      · rw [inserts]
        exact .inserted _ new fun tokenHash filled => by cases filled
  | register userId rawToken ttlHours now => exact issueVerification_change _ userId rawToken ttlHours now
  | resendVerification userId rawToken ttlHours now =>
      simp only [step, resendVerification]
      cases userId with
      | none => exact .same
      | some userId =>
          simp only
          split
          · exact .same
          · exact issueVerification_change _ userId rawToken ttlHours now
  | verifyEmail rawToken userExists now =>
      simp only [step, verifyEmail]
      split
      · exact .same
      · rename_i used found
        have matched := List.find?_some found
        simp only [Bool.and_eq_true, beq_iff_eq] at matched
        split
        · exact .same
        · rw [← matched.1]
          exact .verified used now (List.mem_of_find?_eq_some found) matched.2
  | consume rawToken now =>
      cases outcome : consumePasswordResetToken sha256 rows rawToken now with
      | mk result next =>
          simp only [step, outcome]
          unfold consumePasswordResetToken at outcome
          simp only at outcome
          split at outcome
          · cases outcome
            exact .same
          · rename_i row found
            split at outcome
            · cases outcome
              exact .same
            · rename_i unused
              split at outcome
              · cases outcome
                exact .same
              · rename_i unexpired
                cases outcome
                refine .redeemed rawToken now ?_
                simp [redeems, consumePasswordResetToken, found, unused, unexpired, Except.toOption]

theorem markUsed_token (guard : TokenRow → Bool) (now : Nat) :
    (markUsed rows guard now).map (·.token) = rows.map (·.token) := by
  unfold markUsed
  rw [List.map_map]
  refine List.map_congr_left fun row _ => ?_
  simp only [Function.comp_apply]
  split <;> rfl

theorem Keyed.markUsed (keyed : Keyed rows) (guard : TokenRow → Bool) (now : Nat) :
    Keyed (markUsed rows guard now) := by
  refine ⟨by rw [markUsed_token]; exact keyed.nodup, fun row member tokenHash filled => ?_⟩
  obtain ⟨old, oldIn, rfl⟩ := List.mem_map.mp member
  split at filled
  · rename_i guarded
    rw [if_pos guarded]
    exact keyed.sameHash old oldIn tokenHash filled
  · rename_i unguarded
    rw [if_neg unguarded]
    exact keyed.sameHash old oldIn tokenHash filled

theorem Keyed.step (keyed : Keyed rows) (op : Op) : Keyed (ResetTokens.step sha256 rows op) := by
  have change := @step_change sha256 rows op
  generalize ResetTokens.step sha256 rows op = next at change
  cases change with
  | same => exact keyed
  | inserted row new sameHash =>
      refine ⟨?_, ?_⟩
      · rw [List.map_append, List.nodup_append]
        refine ⟨keyed.nodup, List.nodup_singleton _, ?_⟩
        intro token old token' new' same
        obtain ⟨oldRow, oldIn, rfl⟩ := List.mem_map.mp old
        rw [List.map_singleton, List.mem_singleton] at new'
        exact new oldRow oldIn (same.trans new')
      · intro other member tokenHash filled
        rcases List.mem_append.mp member with old | isNew
        · exact keyed.sameHash other old tokenHash filled
        · rw [List.mem_singleton.mp isNew] at filled ⊢
          exact sameHash tokenHash filled
  | verified used now member purpose | redeemed rawToken now redeems' => exact keyed.markUsed _ now

structure Stands (sha256 : String → String) (link : Issued) (row : TokenRow) : Prop where
  token : row.token = sha256 link.rawToken
  purpose : row.purpose = .passwordReset
  tokenHash : row.tokenHash =
    if link.issuer = .adminLink then some (sha256 link.rawToken) else none
  userId : row.userId = link.userId
  expiresAt : row.expiresAt = link.expiresAt
  unused : row.usedAt = none

theorem issued_stands {op : Op} {token : Issued} (issues : issued sha256 rows op = some token) :
    ∃ row ∈ step sha256 rows op, Stands sha256 token row := by
  cases op with
  | createPasswordResetToken userId ttlSeconds rawToken now =>
      simp only [issued, step] at issues ⊢
      rcases createPasswordResetToken_cases userId ttlSeconds rawToken now with
        ⟨violation, refused⟩ | ⟨inserts, -⟩
      · rw [refused] at issues
        cases issues
      · rw [inserts] at issues ⊢
        cases issues
        exact ⟨_, List.mem_append_right _ List.mem_cons_self, rfl, rfl, rfl, rfl, rfl, rfl⟩
  | processForgotPassword user rawToken now =>
      simp only [issued, step] at issues ⊢
      rcases processForgotPassword_cases user rawToken now with refused | ⟨found, rfl, inserts, -⟩
      · rw [refused] at issues
        cases issues
      · rw [inserts] at issues ⊢
        cases issues
        exact ⟨_, List.mem_append_right _ List.mem_cons_self, rfl, rfl, rfl, rfl, rfl, rfl⟩
  | register userId rawToken ttlHours now | resendVerification userId rawToken ttlHours now
  | verifyEmail rawToken userExists now | consume rawToken now => cases issues

theorem mem_markUsed {row : TokenRow} {guard : TokenRow → Bool} {now : Nat} (member : row ∈ rows)
    (spared : guard row = false) : row ∈ markUsed rows guard now :=
  List.mem_map.mpr ⟨row, member, by simp [spared]⟩

theorem stands_step {token : Issued} {row : TokenRow} (keyed : Keyed rows) (member : row ∈ rows)
    (stands : Stands sha256 token row) {op : Op}
    (kept : redeems sha256 rows token.rawToken op = false) : row ∈ step sha256 rows op := by
  have change := @step_change sha256 rows op
  generalize step sha256 rows op = next at change
  cases change with
  | same => exact member
  | inserted other new sameHash => exact List.mem_append_left _ member
  | verified used now usedIn purpose =>
      refine mem_markUsed member ?_
      -- the key is the same for no two rows, and this row is no verification token
      by_contra same
      simp only [Bool.not_eq_false, beq_iff_eq] at same
      rw [← keyed.eq_of_token member usedIn same, stands.purpose] at purpose
      cases purpose
  | redeemed rawToken now redeems' =>
      refine mem_markUsed member ?_
      by_contra same
      simp only [Bool.not_eq_false, beq_iff_eq] at same
      have tokenHash := stands.tokenHash
      rw [same] at tokenHash
      split at tokenHash
      · cases op with
        | consume other at' =>
            simp only [redeems, Bool.and_eq_true, beq_iff_eq] at redeems'
            have sameRaw : sha256 other = sha256 token.rawToken :=
              redeems'.1.trans (Option.some.inj tokenHash)
            simp [redeems, sameRaw, redeems'.2] at kept
        | _ => cases redeems'
      · cases tokenHash

theorem redeem_stands {token : Issued} {row : TokenRow} (keyed : Keyed rows) (member : row ∈ rows)
    (stands : Stands sha256 token row) {now : Nat} (unexpired : now ≤ token.expiresAt) :
    (consumePasswordResetToken sha256 rows token.rawToken now).1 = .ok (some token.userId) ↔
      token.issuer = .adminLink := by
  have only : ∀ other ∈ rows, other.tokenHash = some (sha256 token.rawToken) → other = row := by
    intro other otherIn filled
    have sameToken := keyed.sameHash other otherIn _ filled
    exact keyed.eq_of_token otherIn member (sameToken.trans stands.token.symm)
  unfold consumePasswordResetToken
  simp only
  cases found : rows.find? fun other =>
      other.tokenHash == some (sha256 token.rawToken) && other.purpose == .passwordReset with
  | none =>
      have notAdmin : token.issuer ≠ .adminLink := by
        intro admin
        have skipped := List.find?_eq_none.mp found row member
        simp [stands.tokenHash, admin, stands.purpose] at skipped
      simp [notAdmin]
  | some other =>
      have matched := List.find?_some found
      simp only [Bool.and_eq_true, beq_iff_eq] at matched
      have same := only other (List.mem_of_find?_eq_some found) matched.1
      subst same
      have admin : token.issuer = .adminLink := by
        have tokenHash := stands.tokenHash
        rw [matched.1] at tokenHash
        by_contra notAdmin
        rw [if_neg notAdmin] at tokenHash
        cases tokenHash
      have inTime : ¬ other.expiresAt < now := by rw [stands.expiresAt]; omega
      simp [stands.unused, inTime, stands.userId, admin]

end Changes

/-- In every run, a reset token that was issued and not redeemed redeems before its expiry for
its user if and only if the admin link issued it. -/
theorem redeems_iff_admin_link (sha256 : String → String) (before : List Op) (issuing : Op)
    (token : Issued) (issues : issued sha256 (run (step sha256) [] before) issuing = some token)
    (after : List Op)
    (kept : AllSteps (step sha256) (fun rows op => redeems sha256 rows token.rawToken op = false)
      (run (step sha256) [] (before ++ [issuing])) after)
    (now : Nat) (unexpired : now ≤ token.expiresAt) :
    (consumePasswordResetToken sha256 (run (step sha256) [] (before ++ issuing :: after))
        token.rawToken now).1 = .ok (some token.userId) ↔ token.issuer = .adminLink := by
  have keyed : ∀ ops, Keyed (run (step sha256) [] ops) :=
    run_preserves (step sha256) Keyed (fun rows op keyed => keyed.step op) []
      ⟨List.nodup_nil, fun row member => absurd member List.not_mem_nil⟩
  obtain ⟨row, member, stands⟩ := issued_stands issues
  have issuedRows : run (step sha256) [] (before ++ [issuing]) =
      step sha256 (run (step sha256) [] before) issuing := by simp
  rw [← issuedRows] at member
  have stillThere := run_preserves_guarded (step sha256)
    (fun rows op => redeems sha256 rows token.rawToken op = false)
    (fun rows => Keyed rows ∧ row ∈ rows)
    (fun rows op notRedeemed holds =>
      ⟨holds.1.step op, stands_step holds.1 holds.2 stands notRedeemed⟩)
    after _ kept ⟨keyed _, member⟩
  have wholeRun : run (step sha256) [] (before ++ issuing :: after) =
      run (step sha256) (run (step sha256) [] (before ++ [issuing])) after := by simp
  rw [wholeRun]
  exact redeem_stands stillThere.1 stillThere.2 stands unexpired

def digest (rawToken : String) : String := "sha256:" ++ rawToken

def adminIssues : Op := .createPasswordResetToken 7 3600 "raw-admin" 100

def selfServeIssues : Op := .processForgotPassword (some ⟨7, true⟩) "raw-self" 100

def otherTokens : List Op :=
  [.register 8 "raw-verify" 24 110, .verifyEmail "raw-verify" true 120,
    .processForgotPassword (some ⟨9, true⟩) "raw-other" 130, .consume "raw-other" 140]

theorem admin_link_redeems :
    (consumePasswordResetToken digest
        (run (step digest) [] ([.register 7 "raw-first" 24 90] ++ adminIssues :: otherTokens))
        "raw-admin" 200).1 = .ok (some 7) :=
  (redeems_iff_admin_link digest [.register 7 "raw-first" 24 90] adminIssues
    ⟨.adminLink, "raw-admin", 7, 3700⟩ (by decide +kernel) otherTokens (by decide +kernel) 200
    (by decide)).mpr rfl

/-- The self-serve link never redeems: its row leaves `token_hash` empty. -/
theorem self_serve_not_found :
    issued digest [] selfServeIssues = some ⟨.selfServe, "raw-self", 7, 86500⟩ ∧
      (consumePasswordResetToken digest (run (step digest) [] [selfServeIssues]) "raw-self" 200).1 =
        .ok none ∧
      verifyPasswordResetToken digest (run (step digest) [] [selfServeIssues]) "raw-self" 200 =
        .ok none := by
  decide +kernel

end OdooSemantic.WebUi.ResetTokens
