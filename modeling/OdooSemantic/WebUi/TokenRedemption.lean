import OdooSemantic.Lib.RowLocks
import OdooSemantic.WebUi.ResetTokens

/-!
# Redeeming tokens at the same time

`consume_password_reset_token` and `verify_email` lock the row of a token, check it, mark it
used and commit.  Other calls run between any two statements, and a call may fail at each.
-/

set_option autoImplicit false

namespace OdooSemantic.WebUi.TokenRedemption

open Lib.Run Lib.RowLocks WebUi.ResetTokens

/-! ## Calls and their statements -/

/-- `hashlib.sha256` as hex digits, and `str.strip`. -/
structure Env where
  sha256 : String → String
  strip : String → String

inductive Endpoint where
  | consumePasswordResetToken
  | verifyEmail
  deriving DecidableEq

structure Request where
  endpoint : Endpoint
  token : String
  deriving DecidableEq

/-- The columns of `webui_users` that are read or written. -/
structure UserRow where
  id : Nat
  username : String
  emailVerified : Bool

inductive Outcome where
  | blank
  | unknown
  | used
  | expired
  | userMissing
  | redeemed (userId : Nat)
  | internalError
  | failed
  deriving DecidableEq

/-- Where a call stands between two statements; `stamp` is `NOW()` of its transaction. -/
inductive Phase where
  | idle
  | begun (request : Request)
  | locked (request : Request) (stamp : Nat) (row : TokenRow)
  | checked (request : Request) (stamp : Nat) (row : TokenRow)
  | marked (request : Request) (stamp : Nat) (row : TokenRow) (places : List Nat)
  | committed (request : Request) (row : TokenRow)
  | ended (request : Request) (outcome : Outcome)
  deriving DecidableEq

/-- What is committed, who holds which row of `email_verifications`, and the calls. -/
structure State where
  rows : List TokenRow
  users : List UserRow
  locks : List Lock
  phase : Nat → Phase

inductive Event where
  | begin (call : Nat) (request : Request)
  | act (call now : Nat)
  | fail (call : Nat)
  | issue (op : Op)
  | others (users : List UserRow)

def selected (rows : List TokenRow) (clause : TokenRow → Bool) : List Nat :=
  (List.range rows.length).filter fun place => rows[place]?.any clause

def markPlaces (rows : List TokenRow) (places : List Nat) (stamp : Nat) : List TokenRow :=
  rows.mapIdx fun place row => if place ∈ places then { row with usedAt := some stamp } else row

/-- `FOR UPDATE` and UPDATE wait while another transaction holds a row they select. -/
def granted (locks : List Lock) (call : Nat) (places : List Nat) : Bool :=
  places.all fun place => grantable locks call place .update

def hold (locks : List Lock) (call : Nat) (places : List Nat) : List Lock :=
  acquire locks call (places.map fun place => (place, .update))

def State.setPhase (state : State) (call : Nat) (phase : Phase) : State :=
  { state with phase := Function.update state.phase call phase }

/-- The transaction is over: its locks go. -/
def State.leave (state : State) (call : Nat) (phase : Phase) : State :=
  { state.setPhase call phase with locks := release state.locks call }

section Statements
variable (env : Env)

def Request.tokenHash (request : Request) : String :=
  match request.endpoint with
  | .consumePasswordResetToken => env.sha256 request.token
  | .verifyEmail => env.sha256 (env.strip request.token)

def Request.purpose (request : Request) : Purpose :=
  match request.endpoint with
  | .consumePasswordResetToken => .passwordReset
  | .verifyEmail => .emailVerify

/-- The WHERE clause of the UPDATE. -/
def Request.marks (request : Request) (row : TokenRow) : Bool :=
  match request.endpoint with
  | .consumePasswordResetToken => row.tokenHash == some (request.tokenHash env)
  | .verifyEmail => row.token == request.tokenHash env

/-- The WHERE clause of the SELECT. -/
def Request.finds (request : Request) (row : TokenRow) : Bool :=
  request.marks env row && row.purpose == request.purpose

/-- `verify_email` looks the user up; a reset token is redeemed without. -/
def Request.lacksUser (request : Request) (users : List UserRow) (userId : Nat) : Bool :=
  match request.endpoint with
  | .consumePasswordResetToken => false
  | .verifyEmail => !users.any (·.id == userId)

/-- `verify_email` marks the user verified. -/
def Request.verified (request : Request) (users : List UserRow) (userId : Nat) : List UserRow :=
  match request.endpoint with
  | .consumePasswordResetToken => users
  | .verifyEmail =>
      users.map fun user => if user.id = userId then { user with emailVerified := true } else user

/-- `verify_email` has a session to create after its commit. -/
def Request.afterCommit (request : Request) (row : TokenRow) : Phase :=
  match request.endpoint with
  | .consumePasswordResetToken => .ended request (.redeemed row.userId)
  | .verifyEmail => .committed request row

/-- `verify_email` refuses a blank token before it asks the database. -/
def Request.opens (request : Request) : Phase :=
  if request.endpoint = .verifyEmail ∧ env.strip request.token = "" then .ended request .blank
  else .begun request

def act (state : State) (call now : Nat) : State :=
  match state.phase call with
  | .begun request =>
      let places := selected state.rows (request.finds env)
      if granted state.locks call places then
        match state.rows.find? (request.finds env) with
        | none => state.leave call (.ended request .unknown)
        | some row =>
            { state.setPhase call (.locked request now row) with
              locks := hold state.locks call places }
      else state
  | .locked request stamp row =>
      if row.usedAt.isSome then state.leave call (.ended request .used)
      else if row.expiresAt < now then state.leave call (.ended request .expired)
      else if request.lacksUser state.users row.userId then
        state.leave call (.ended request .userMissing)
      else state.setPhase call (.checked request stamp row)
  | .checked request stamp row =>
      let places := selected state.rows (request.marks env)
      if granted state.locks call places then
        { state.setPhase call (.marked request stamp row places) with
          locks := hold state.locks call places }
      else state
  | .marked request stamp row places =>
      { state.leave call (request.afterCommit row) with
        rows := markPlaces state.rows places stamp
        users := request.verified state.users row.userId }
  | .committed request row => state.setPhase call (.ended request (.redeemed row.userId))
  | _ => state

/-- An exception or a crash: before the commit the transaction is rolled back, after it the
session is missing. -/
def fail (state : State) (call : Nat) : State :=
  match state.phase call with
  | .begun request => state.leave call (.ended request .failed)
  | .locked request _ _ => state.leave call (.ended request .failed)
  | .checked request _ _ => state.leave call (.ended request .failed)
  | .marked request _ _ _ => state.leave call (.ended request .failed)
  | .committed request _ => state.setPhase call (.ended request .internalError)
  | _ => state

def issues : Op → Bool
  | .verifyEmail _ _ _ => false
  | .consume _ _ => false
  | _ => true

def step (state : State) : Event → State
  | .begin call request =>
      if state.phase call = .idle then state.setPhase call (request.opens env) else state
  | .act call now => act env state call now
  | .fail call => fail state call
  | .issue op =>
      if issues op then { state with rows := ResetTokens.step env.sha256 state.rows op } else state
  | .others users => { state with users }

end Statements

/-- No token is issued and no call has begun. -/
def resting : State := ⟨[], [], [], fun _ => .idle⟩

def Phase.consumed : Phase → Option Request
  | .committed request _ => some request
  | .ended request (.redeemed _) => some request
  | .ended request .internalError => some request
  | _ => none

def Phase.held : Phase → Option (Request × TokenRow)
  | .locked request _ row => some (request, row)
  | .checked request _ row => some (request, row)
  | .marked request _ row _ => some (request, row)
  | _ => none

def alone (env : Env) (state : State) (call : Nat) (request : Request) (now : Nat) : State :=
  run (step env) state
    [.begin call request, .act call now, .act call now, .act call now, .act call now, .act call now]

def Redeems (env : Env) (state : State) (call : Nat) (request : Request) (row : TokenRow)
    (now : Nat) : Prop :=
  (alone env state call request now).phase call = .ended request (.redeemed row.userId)

section Places
variable {rows : List TokenRow} {clause : TokenRow → Bool} {place other stamp : Nat}
  {places : List Nat} {row : TokenRow}

theorem mem_selected :
    place ∈ selected rows clause ↔ ∃ row, rows[place]? = some row ∧ clause row = true := by
  rw [selected, List.mem_filter, List.mem_range, Option.any_eq_true]
  constructor
  · rintro ⟨-, row, found, meets⟩
    exact ⟨row, found, meets⟩
  · rintro ⟨row, found, meets⟩
    exact ⟨(List.getElem?_eq_some_iff.mp found).1, row, found, meets⟩

theorem place_unique (keyed : Keyed rows) {first second : TokenRow}
    (atPlace : rows[place]? = some first) (atOther : rows[other]? = some second)
    (same : first.token = second.token) : place = other := by
  have inRange : place < (rows.map (·.token)).length := by
    rw [List.length_map]
    exact (List.getElem?_eq_some_iff.mp atPlace).1
  refine (List.getElem?_inj inRange keyed.nodup).mp ?_
  rw [List.getElem?_map, List.getElem?_map, atPlace, atOther, Option.map_some, Option.map_some, same]

theorem getElem?_markPlaces : (markPlaces rows places stamp)[place]? =
    rows[place]?.map fun row =>
      if place ∈ places then { row with usedAt := some stamp } else row := by
  rw [markPlaces, List.getElem?_mapIdx]

theorem mem_markPlaces : row ∈ markPlaces rows places stamp ↔ ∃ place old,
    rows[place]? = some old ∧
      (if place ∈ places then { old with usedAt := some stamp } else old) = row := by
  rw [List.mem_iff_getElem?]
  simp only [getElem?_markPlaces, Option.map_eq_some_iff]

theorem keyed_markPlaces (keyed : Keyed rows) (places : List Nat) (stamp : Nat) :
    Keyed (markPlaces rows places stamp) := by
  have tokens : (markPlaces rows places stamp).map (·.token) =
      rows.map (·.token) := by
    refine List.ext_getElem? fun place => ?_
    rw [List.getElem?_map, List.getElem?_map, getElem?_markPlaces, Option.map_map]
    refine congrArg (Option.map · _) (funext fun row => ?_)
    simp only [Function.comp_apply]
    split <;> rfl
  refine ⟨tokens ▸ keyed.nodup, fun row member tokenHash filled => ?_⟩
  obtain ⟨place, old, found, rfl⟩ := mem_markPlaces.mp member
  have oldIn := List.mem_of_getElem? found
  split at filled
  · rename_i isMarked
    rw [if_pos isMarked]
    exact keyed.sameHash old oldIn tokenHash filled
  · rename_i unmarked
    rw [if_neg unmarked]
    exact keyed.sameHash old oldIn tokenHash filled

end Places

section Locking
variable {locks : List Lock} {call : Nat} {places : List Nat} {lock : Lock}

theorem mem_hold : lock ∈ hold locks call places ↔
    (lock.owner = call ∧ lock.mode = .update ∧ lock.row ∈ places) ∨ lock ∈ locks := by
  rw [hold, mem_acquire]
  refine or_congr_left (and_congr_right fun _ => ?_)
  rw [List.mem_map]
  constructor
  · rintro ⟨place, member, same⟩
    obtain ⟨isRow, isUpdate⟩ := Prod.mk.inj same
    exact ⟨isUpdate.symm, isRow ▸ member⟩
  · rintro ⟨isUpdate, member⟩
    exact ⟨lock.row, member, by rw [isUpdate]⟩

theorem compatible_hold (compatible : Compatible locks) (isGranted : granted locks call places = true) :
    Compatible (hold locks call places) := by
  refine compatible.acquire fun want wanted => ?_
  obtain ⟨place, member, rfl⟩ := List.mem_map.mp wanted
  exact List.all_eq_true.mp isGranted place member

end Locking

def Phase.passed : Phase → Option TokenRow
  | .checked _ _ row => some row
  | .marked _ _ row _ => some row
  | _ => none

structure Inv (env : Env) (state : State) : Prop where
  keyed : Keyed state.rows
  compatible : Compatible state.locks
  owned : ∀ lock ∈ state.locks, ∃ request row,
    (state.phase lock.owner).held = some (request, row) ∧ state.rows[lock.row]? = some row
  held : ∀ call request row, (state.phase call).held = some (request, row) →
    request.finds env row = true ∧
      ∃ place, state.rows[place]? = some row ∧ (⟨call, place, .update⟩ : Lock) ∈ state.locks
  unused : ∀ call row, (state.phase call).passed = some row → row.usedAt = none
  places : ∀ call request stamp row places, state.phase call = .marked request stamp row places →
    (∀ place ∈ places, state.rows[place]? = some row) ∧
      ∃ place ∈ places, state.rows[place]? = some row
  consumed : ∀ call request, (state.phase call).consumed = some request → ∃ row ∈ state.rows,
    row.token = request.tokenHash env ∧ row.purpose = request.purpose ∧ row.usedAt.isSome = true
  used : ∀ row ∈ state.rows, row.usedAt.isSome = true → ∃ call request,
    (state.phase call).consumed = some request ∧ request.tokenHash env = row.token
  once : ∀ first second request other, (state.phase first).consumed = some request →
    (state.phase second).consumed = some other →
    request.tokenHash env = other.tokenHash env → first = second

section Steps
variable {env : Env} {state : State} {call : Nat} {request : Request} {row : TokenRow}

theorem marks_token (keyed : Keyed state.rows) (member : row ∈ state.rows)
    (marks : request.marks env row = true) : row.token = request.tokenHash env := by
  cases endpoint : request.endpoint with
  | consumePasswordResetToken =>
      simp only [Request.marks, endpoint, beq_iff_eq] at marks
      exact keyed.sameHash row member _ marks
  | verifyEmail =>
      simp only [Request.marks, endpoint, beq_iff_eq] at marks
      exact marks

theorem finds_iff : request.finds env row = true ↔
    request.marks env row = true ∧ row.purpose = request.purpose := by
  rw [Request.finds, Bool.and_eq_true, beq_iff_eq]

theorem selected_row (keyed : Keyed state.rows) (member : row ∈ state.rows)
    (finds : request.finds env row = true) {clause : TokenRow → Bool}
    (marks : ∀ other, clause other = true → request.marks env other = true) {place : Nat}
    (isSelected : place ∈ selected state.rows clause) : state.rows[place]? = some row := by
  obtain ⟨other, found, meets⟩ := mem_selected.mp isSelected
  have otherIn := List.mem_of_getElem? found
  have first := marks_token keyed otherIn (marks other meets)
  have second := marks_token keyed member (finds_iff.mp finds).1
  rw [found, keyed.eq_of_token otherIn member (first.trans second.symm)]

theorem Inv.setPhase (inv : Inv env state) {phase : Phase}
    (held : phase.held = (state.phase call).held)
    (consumed : phase.consumed = (state.phase call).consumed)
    (unused : ∀ row, phase.passed = some row → row.usedAt = none)
    (unmarked : ∀ request stamp row places, phase ≠ .marked request stamp row places) :
    Inv env (state.setPhase call phase) := by
  have heldOf : ∀ other, ((state.setPhase call phase).phase other).held =
      (state.phase other).held := by
    intro other
    by_cases acting : other = call
    · subst acting
      simp only [State.setPhase, Function.update_self, held]
    · simp only [State.setPhase, Function.update_of_ne acting]
  have consumedOf : ∀ other, ((state.setPhase call phase).phase other).consumed =
      (state.phase other).consumed := by
    intro other
    by_cases acting : other = call
    · subst acting
      simp only [State.setPhase, Function.update_self, consumed]
    · simp only [State.setPhase, Function.update_of_ne acting]
  refine ⟨inv.keyed, inv.compatible, ?_, ?_, ?_, ?_, ?_, ?_, ?_⟩
  · simp only [heldOf]
    exact inv.owned
  · simp only [heldOf]
    exact inv.held
  · intro other row passed
    by_cases acting : other = call
    · subst acting
      simp only [State.setPhase, Function.update_self] at passed
      exact unused row passed
    · simp only [State.setPhase, Function.update_of_ne acting] at passed
      exact inv.unused other row passed
  · intro other request stamp row places isMarked
    by_cases acting : other = call
    · subst acting
      simp only [State.setPhase, Function.update_self] at isMarked
      exact absurd isMarked (unmarked request stamp row places)
    · simp only [State.setPhase, Function.update_of_ne acting] at isMarked
      exact inv.places other request stamp row places isMarked
  · simp only [consumedOf]
    exact inv.consumed
  · simp only [consumedOf]
    exact inv.used
  · simp only [consumedOf]
    exact inv.once

theorem Inv.leave (inv : Inv env state) {phase : Phase} (held : phase.held = none)
    (passed : phase.passed = none) (consumed : phase.consumed = none)
    (was : (state.phase call).consumed = none) : Inv env (state.leave call phase) := by
  have self : (state.leave call phase).phase call = phase := Function.update_self ..
  have rest : ∀ other, other ≠ call → (state.leave call phase).phase other = state.phase other :=
    fun other apart => Function.update_of_ne apart ..
  have consumedOf : ∀ other, ((state.leave call phase).phase other).consumed =
      (state.phase other).consumed := by
    intro other
    by_cases acting : other = call
    · rw [acting, self, consumed, was]
    · rw [rest other acting]
  refine ⟨inv.keyed, inv.compatible.release call, ?_, ?_, ?_, ?_, ?_, ?_, ?_⟩
  · intro lock member
    obtain ⟨old, apart⟩ := mem_release.mp member
    rw [rest _ apart]
    exact inv.owned lock old
  · intro other request row isHeld
    by_cases acting : other = call
    · rw [acting, self, held] at isHeld
      cases isHeld
    · rw [rest other acting] at isHeld
      obtain ⟨finds, place, found, locked⟩ := inv.held other request row isHeld
      exact ⟨finds, place, found, mem_release.mpr ⟨locked, acting⟩⟩
  · intro other row isPassed
    by_cases acting : other = call
    · rw [acting, self, passed] at isPassed
      cases isPassed
    · rw [rest other acting] at isPassed
      exact inv.unused other row isPassed
  · intro other request stamp row places isMarked
    by_cases acting : other = call
    · rw [acting, self] at isMarked
      rw [isMarked] at held
      cases held
    · rw [rest other acting] at isMarked
      exact inv.places other request stamp row places isMarked
  · simp only [consumedOf]
    exact inv.consumed
  · simp only [consumedOf]
    exact inv.used
  · simp only [consumedOf]
    exact inv.once

theorem Inv.hold (inv : Inv env state) {phase : Phase} {places : List Nat}
    (isGranted : granted state.locks call places = true)
    (finds : request.finds env row = true)
    (held : phase.held = some (request, row))
    (all : ∀ place ∈ places, state.rows[place]? = some row)
    (one : ∃ place ∈ places, state.rows[place]? = some row)
    (passed : ∀ other, phase.passed = some other → other.usedAt = none)
    (marked : ∀ request stamp row others, phase = .marked request stamp row others →
      others = places)
    (before : ∀ other, (state.phase call).held = some other → other = (request, row))
    (consumed : phase.consumed = none) (was : (state.phase call).consumed = none) :
    Inv env { state.setPhase call phase with locks := hold state.locks call places } := by
  have consumedOf : ∀ other, (Function.update state.phase call phase other).consumed =
      (state.phase other).consumed := by
    intro other
    by_cases acting : other = call
    · rw [acting, Function.update_self, consumed, was]
    · rw [Function.update_of_ne acting]
  refine ⟨inv.keyed, compatible_hold inv.compatible isGranted, ?_, ?_, ?_, ?_, ?_, ?_, ?_⟩
  · intro lock member
    simp only [State.setPhase]
    rcases mem_hold.mp member with ⟨own, -, inPlaces⟩ | old
    · rw [own, Function.update_self]
      exact ⟨request, row, held, all _ inPlaces⟩
    · by_cases acting : lock.owner = call
      · obtain ⟨other, otherRow, isHeld, found⟩ := inv.owned lock old
        rw [acting] at isHeld ⊢
        cases before _ isHeld
        rw [Function.update_self]
        exact ⟨request, row, held, found⟩
      · rw [Function.update_of_ne acting]
        exact inv.owned lock old
  · intro other otherRequest otherRow isHeld
    simp only [State.setPhase] at isHeld ⊢
    by_cases acting : other = call
    · rw [acting, Function.update_self, held] at isHeld
      cases isHeld
      obtain ⟨place, inPlaces, found⟩ := one
      exact ⟨finds, place, found, mem_hold.mpr (Or.inl ⟨acting, rfl, inPlaces⟩)⟩
    · rw [Function.update_of_ne acting] at isHeld
      obtain ⟨otherFinds, place, found, locked⟩ := inv.held other otherRequest otherRow isHeld
      exact ⟨otherFinds, place, found, mem_hold.mpr (Or.inr locked)⟩
  · intro other otherRow isPassed
    simp only [State.setPhase] at isPassed
    by_cases acting : other = call
    · rw [acting, Function.update_self] at isPassed
      exact passed otherRow isPassed
    · rw [Function.update_of_ne acting] at isPassed
      exact inv.unused other otherRow isPassed
  · intro other otherRequest stamp otherRow others isMarked
    simp only [State.setPhase] at isMarked ⊢
    by_cases acting : other = call
    · rw [acting, Function.update_self] at isMarked
      cases marked otherRequest stamp otherRow others isMarked
      rw [isMarked] at held
      cases held
      exact ⟨all, one⟩
    · rw [Function.update_of_ne acting] at isMarked
      exact inv.places other otherRequest stamp otherRow others isMarked
  · simp only [State.setPhase, consumedOf]
    exact inv.consumed
  · simp only [State.setPhase, consumedOf]
    exact inv.used
  · simp only [State.setPhase, consumedOf]
    exact inv.once

theorem Inv.spared (inv : Inv env state) {stamp other : Nat} {otherRequest : Request}
    {otherRow : TokenRow} {places : List Nat}
    (isMarked : state.phase call = .marked request stamp row places) (apart : other ≠ call)
    (isHeld : (state.phase other).held = some (otherRequest, otherRow)) {place : Nat}
    (found : state.rows[place]? = some otherRow) : place ∉ places := by
  intro member
  obtain ⟨-, otherPlace, atOther, locked⟩ := inv.held other otherRequest otherRow isHeld
  obtain ⟨-, ownPlace, atOwn, ownLocked⟩ := inv.held call request row (by rw [isMarked]; rfl)
  have same : some otherRow = some row :=
    found.symm.trans ((inv.places call request stamp row places isMarked).1 place member)
  have one : ownPlace = otherPlace := by
    refine place_unique inv.keyed atOwn atOther ?_
    rw [Option.some.inj same]
  exact inv.compatible.free ownLocked _ locked apart one.symm

theorem Inv.commit (inv : Inv env state) {stamp : Nat} {places : List Nat} {users : List UserRow}
    (isMarked : state.phase call = .marked request stamp row places) :
    Inv env { state.leave call (request.afterCommit row) with
      rows := markPlaces state.rows places stamp
      users } := by
  have none : row.usedAt = none := inv.unused call row (by rw [isMarked]; rfl)
  obtain ⟨finds, -⟩ := inv.held call request row (by rw [isMarked]; rfl)
  obtain ⟨all, own, ownIn, atOwn⟩ := inv.places call request stamp row places isMarked
  have member := List.mem_of_getElem? atOwn
  have rowToken := marks_token inv.keyed member (finds_iff.mp finds).1
  have before : (state.phase call).consumed = Option.none := by rw [isMarked]; rfl
  have consumed : (request.afterCommit row).consumed = some request := by
    unfold Request.afterCommit
    cases request.endpoint with
    | consumePasswordResetToken | verifyEmail => rfl
  have held : (request.afterCommit row).held = Option.none ∧
      (request.afterCommit row).passed = Option.none := by
    unfold Request.afterCommit
    cases request.endpoint with
    | consumePasswordResetToken | verifyEmail => exact ⟨rfl, rfl⟩
  have keyed : Keyed (markPlaces state.rows places stamp) := keyed_markPlaces inv.keyed places stamp
  -- nobody has committed for this token yet
  have fresh : ∀ other otherRequest, (state.phase other).consumed = some otherRequest →
      otherRequest.tokenHash env ≠ request.tokenHash env := by
    intro other otherRequest isConsumed same
    obtain ⟨otherRow, otherIn, token, -, isUsed⟩ := inv.consumed other otherRequest isConsumed
    have sameRow := inv.keyed.eq_of_token otherIn member (token.trans (same.trans rowToken.symm))
    rw [sameRow, none] at isUsed
    cases isUsed
  have stays : ∀ (place : Nat) (old : TokenRow), state.rows[place]? = some old → ∃ new,
      (markPlaces state.rows places stamp)[place]? = some new ∧ new.token = old.token ∧
        new.purpose = old.purpose ∧ (old.usedAt.isSome = true → new.usedAt.isSome = true) ∧
        (place ∉ places → new = old) := by
    intro place old found
    rw [getElem?_markPlaces, found, Option.map_some]
    by_cases inPlaces : place ∈ places
    · exact ⟨_, rfl, by simp [inPlaces], by simp [inPlaces], by simp [inPlaces],
        fun out => absurd inPlaces out⟩
    · exact ⟨old, by simp [inPlaces], rfl, rfl, fun isUsed => isUsed, fun _ => rfl⟩
  refine ⟨keyed, inv.compatible.release call, ?_, ?_, ?_, ?_, ?_, ?_, ?_⟩
  all_goals simp only [State.leave, State.setPhase]
  · intro lock inLocks
    obtain ⟨old, apart⟩ := mem_release.mp inLocks
    obtain ⟨otherRequest, otherRow, isHeld, found⟩ := inv.owned lock old
    rw [Function.update_of_ne apart]
    obtain ⟨new, atNew, -, -, -, same⟩ := stays lock.row otherRow found
    refine ⟨otherRequest, otherRow, isHeld, ?_⟩
    rw [atNew, same (inv.spared isMarked apart isHeld found)]
  · intro other otherRequest otherRow isHeld
    by_cases acting : other = call
    · rw [acting, Function.update_self, held.1] at isHeld
      cases isHeld
    · rw [Function.update_of_ne acting] at isHeld
      obtain ⟨otherFinds, place, found, locked⟩ := inv.held other otherRequest otherRow isHeld
      obtain ⟨new, atNew, -, -, -, same⟩ := stays place otherRow found
      refine ⟨otherFinds, place, ?_, mem_release.mpr ⟨locked, acting⟩⟩
      rw [atNew, same (inv.spared isMarked acting isHeld found)]
  · intro other otherRow isPassed
    by_cases acting : other = call
    · rw [acting, Function.update_self, held.2] at isPassed
      cases isPassed
    · rw [Function.update_of_ne acting] at isPassed
      exact inv.unused other otherRow isPassed
  · intro other otherRequest otherStamp otherRow others otherMarked
    by_cases acting : other = call
    · rw [acting, Function.update_self] at otherMarked
      rw [otherMarked] at held
      cases held.1
    · rw [Function.update_of_ne acting] at otherMarked
      have isHeld : (state.phase other).held = some (otherRequest, otherRow) := by
        rw [otherMarked]
        rfl
      have moved : ∀ place : Nat, state.rows[place]? = some otherRow →
          (markPlaces state.rows places stamp)[place]? = some otherRow := by
        intro place found
        obtain ⟨new, atNew, -, -, -, same⟩ := stays place otherRow found
        rw [atNew, same (inv.spared isMarked acting isHeld found)]
      obtain ⟨otherAll, place, inOthers, found⟩ :=
        inv.places other otherRequest otherStamp otherRow others otherMarked
      exact ⟨fun place inOthers => moved place (otherAll place inOthers), place, inOthers,
        moved place found⟩
  · intro other otherRequest isConsumed
    by_cases acting : other = call
    · rw [acting, Function.update_self, consumed] at isConsumed
      cases isConsumed
      refine ⟨{ row with usedAt := some stamp }, mem_markPlaces.mpr ⟨own, row, atOwn, if_pos ownIn⟩,
        rowToken, (finds_iff.mp finds).2, rfl⟩
    · rw [Function.update_of_ne acting] at isConsumed
      obtain ⟨otherRow, otherIn, token, purpose, isUsed⟩ :=
        inv.consumed other otherRequest isConsumed
      obtain ⟨place, found⟩ := List.mem_iff_getElem?.mp otherIn
      obtain ⟨new, atNew, newToken, newPurpose, newUsed, -⟩ := stays place otherRow found
      exact ⟨new, List.mem_of_getElem? atNew, newToken.trans token, newPurpose.trans purpose,
        newUsed isUsed⟩
  · intro other otherIn isUsed
    obtain ⟨place, old, found, rfl⟩ := mem_markPlaces.mp otherIn
    by_cases inPlaces : place ∈ places
    · have same : some old = some row := found.symm.trans (all place inPlaces)
      cases same
      refine ⟨call, request, by rw [Function.update_self, consumed], ?_⟩
      rw [if_pos inPlaces]
      exact rowToken.symm
    · rw [if_neg inPlaces] at isUsed ⊢
      obtain ⟨first, otherRequest, isConsumed, token⟩ :=
        inv.used old (List.mem_of_getElem? found) isUsed
      have apart : first ≠ call := by
        intro same
        rw [same, before] at isConsumed
        cases isConsumed
      exact ⟨first, otherRequest, by rw [Function.update_of_ne apart, isConsumed], token⟩
  · intro first second firstRequest secondRequest firstConsumed secondConsumed same
    by_cases isFirst : first = call
    · rw [isFirst, Function.update_self, consumed] at firstConsumed
      cases firstConsumed
      by_cases isSecond : second = call
      · rw [isFirst, isSecond]
      · rw [Function.update_of_ne isSecond] at secondConsumed
        exact absurd same.symm (fresh second secondRequest secondConsumed)
    · rw [Function.update_of_ne isFirst] at firstConsumed
      by_cases isSecond : second = call
      · rw [isSecond, Function.update_self, consumed] at secondConsumed
        cases secondConsumed
        exact absurd same (fresh first firstRequest firstConsumed)
      · rw [Function.update_of_ne isSecond] at secondConsumed
        exact inv.once first second firstRequest secondRequest firstConsumed secondConsumed same

theorem issue_rows (sha256 : String → String) (rows : List TokenRow) {op : Op}
    (isIssue : issues op = true) : ResetTokens.step sha256 rows op = rows ∨
      ∃ new : TokenRow, ResetTokens.step sha256 rows op = rows ++ [new] ∧ new.usedAt = none ∧
        ∀ old ∈ rows, old.token ≠ new.token := by
  have verification : ∀ userId rawToken ttlHours now,
      issueVerification sha256 rows userId rawToken ttlHours now = rows ∨
      ∃ new : TokenRow, issueVerification sha256 rows userId rawToken ttlHours now =
          rows ++ [new] ∧ new.usedAt = none ∧ ∀ old ∈ rows, old.token ≠ new.token := by
    intro userId rawToken ttlHours now
    unfold issueVerification
    split
    · rename_i inserts
      obtain ⟨rfl, new⟩ := insertRow_cases inserts
      exact Or.inr ⟨_, rfl, rfl, new⟩
    · exact Or.inl rfl
  cases op with
  | createPasswordResetToken userId ttlSeconds rawToken now =>
      simp only [ResetTokens.step]
      rcases createPasswordResetToken_cases userId ttlSeconds rawToken now with
        ⟨violation, refused⟩ | ⟨inserts, new⟩
      · rw [refused]
        exact Or.inl rfl
      · rw [inserts]
        exact Or.inr ⟨_, rfl, rfl, new⟩
  | processForgotPassword user rawToken now =>
      simp only [ResetTokens.step]
      rcases processForgotPassword_cases user rawToken now with refused | ⟨found, -, inserts, new⟩
      · rw [refused]
        exact Or.inl rfl
      · rw [inserts]
        exact Or.inr ⟨_, rfl, rfl, new⟩
  | register userId rawToken ttlHours now => exact verification userId rawToken ttlHours now
  | resendVerification userId rawToken ttlHours now =>
      simp only [ResetTokens.step, resendVerification]
      cases userId with
      | none => exact Or.inl rfl
      | some userId =>
          simp only
          split
          · exact Or.inl rfl
          · exact verification userId rawToken ttlHours now
  | verifyEmail rawToken userExists now | consume rawToken now => cases isIssue

theorem Inv.issue (inv : Inv env state) {op : Op} (isIssue : issues op = true) :
    Inv env { state with rows := ResetTokens.step env.sha256 state.rows op } := by
  have keyed : Keyed (ResetTokens.step env.sha256 state.rows op) := inv.keyed.step op
  rcases issue_rows env.sha256 state.rows isIssue with same | ⟨new, grows, isUnused, fresh⟩
  · rw [same]
    exact inv
  rw [grows] at keyed ⊢
  have stays : ∀ {place : Nat} {row : TokenRow}, state.rows[place]? = some row →
      (state.rows ++ [new])[place]? = some row := by
    intro place row found
    rw [List.getElem?_append_left (List.getElem?_eq_some_iff.mp found).1, found]
  refine ⟨keyed, inv.compatible, ?_, ?_, inv.unused, ?_, ?_, ?_, inv.once⟩
  · intro lock member
    obtain ⟨request, row, isHeld, found⟩ := inv.owned lock member
    exact ⟨request, row, isHeld, stays found⟩
  · intro call request row isHeld
    obtain ⟨finds, place, found, locked⟩ := inv.held call request row isHeld
    exact ⟨finds, place, stays found, locked⟩
  · intro call request stamp row places isMarked
    obtain ⟨all, place, member, found⟩ := inv.places call request stamp row places isMarked
    exact ⟨fun other inPlaces => stays (all other inPlaces), place, member, stays found⟩
  · intro call request isConsumed
    obtain ⟨row, member, rest⟩ := inv.consumed call request isConsumed
    exact ⟨row, List.mem_append_left _ member, rest⟩
  · intro row member isUsed
    rcases List.mem_append.mp member with old | isNew
    · exact inv.used row old isUsed
    · rw [List.mem_singleton.mp isNew, isUnused] at isUsed
      cases isUsed

theorem Inv.act (inv : Inv env state) (call now : Nat) :
    Inv env (TokenRedemption.act env state call now) := by
  cases phase : state.phase call with
  | idle | ended request outcome =>
      simp only [TokenRedemption.act, phase]
      exact inv
  | committed request row =>
      simp only [TokenRedemption.act, phase]
      refine inv.setPhase (by rw [phase]; rfl) (by rw [phase]; rfl) (fun _ passed => ?_) (by simp)
      cases passed
  | begun request =>
      simp only [TokenRedemption.act, phase]
      have was : (state.phase call).consumed = none := by rw [phase]; rfl
      by_cases isGranted :
          granted state.locks call (selected state.rows (request.finds env)) = true
      · rw [if_pos isGranted]
        cases found : state.rows.find? (request.finds env) with
        | none => exact inv.leave rfl rfl rfl was
        | some row =>
            have member := List.mem_of_find?_eq_some found
            have finds : request.finds env row = true := List.find?_some found
            obtain ⟨place, atPlace⟩ := List.mem_iff_getElem?.mp member
            refine inv.hold isGranted finds rfl (fun other isSelected => ?_)
              ⟨place, mem_selected.mpr ⟨row, atPlace, finds⟩, atPlace⟩ (by simp [Phase.passed])
              (by simp) (by simp [phase, Phase.held]) rfl was
            exact selected_row inv.keyed member finds
              (fun other finds => (finds_iff.mp finds).1) isSelected
      · rw [if_neg isGranted]
        exact inv
  | locked request stamp row =>
      simp only [TokenRedemption.act, phase]
      have was : (state.phase call).consumed = none := by rw [phase]; rfl
      by_cases isUsed : row.usedAt.isSome = true
      · rw [if_pos isUsed]
        exact inv.leave rfl rfl rfl was
      by_cases isExpired : row.expiresAt < now
      · rw [if_neg isUsed, if_pos isExpired]
        exact inv.leave rfl rfl rfl was
      by_cases lacks : request.lacksUser state.users row.userId = true
      · rw [if_neg isUsed, if_neg isExpired, if_pos lacks]
        exact inv.leave rfl rfl rfl was
      · rw [if_neg isUsed, if_neg isExpired, if_neg lacks]
        refine inv.setPhase (by rw [phase]; rfl) (by rw [phase]; rfl) (fun other passed => ?_)
          (by simp)
        cases passed
        simpa using isUsed
  | checked request stamp row =>
      simp only [TokenRedemption.act, phase]
      by_cases isGranted :
          granted state.locks call (selected state.rows (request.marks env)) = true
      · rw [if_pos isGranted]
        have isHeld : (state.phase call).held = some (request, row) := by rw [phase]; rfl
        obtain ⟨finds, place, atPlace, -⟩ := inv.held call request row isHeld
        have member := List.mem_of_getElem? atPlace
        have unused : row.usedAt = none := inv.unused call row (by rw [phase]; rfl)
        refine inv.hold isGranted finds rfl (fun other isSelected => ?_)
          ⟨place, mem_selected.mpr ⟨row, atPlace, (finds_iff.mp finds).1⟩, atPlace⟩ ?_ ?_ ?_ rfl
          (by rw [phase]; rfl)
        · exact selected_row inv.keyed member finds (fun other marks => marks) isSelected
        · intro other passed
          cases passed
          exact unused
        · intro other otherStamp otherRow others same
          cases same
          rfl
        · intro other was
          rw [isHeld] at was
          exact (Option.some.inj was).symm
      · rw [if_neg isGranted]
        exact inv
  | marked request stamp row places =>
      simp only [TokenRedemption.act, phase]
      exact inv.commit phase

theorem Inv.fail (inv : Inv env state) (call : Nat) : Inv env (TokenRedemption.fail state call) := by
  cases phase : state.phase call with
  | idle | ended request outcome =>
      simp only [TokenRedemption.fail, phase]
      exact inv
  | committed request row =>
      simp only [TokenRedemption.fail, phase]
      refine inv.setPhase (by rw [phase]; rfl) (by rw [phase]; rfl) (fun _ passed => ?_) (by simp)
      cases passed
  | begun request | locked request stamp row | checked request stamp row
  | marked request stamp row places =>
      simp only [TokenRedemption.fail, phase]
      exact inv.leave rfl rfl rfl (by rw [phase]; rfl)

theorem Inv.step (inv : Inv env state) (event : Event) :
    Inv env (TokenRedemption.step env state event) := by
  cases event with
  | begin call request =>
      simp only [TokenRedemption.step]
      by_cases isIdle : state.phase call = .idle
      · rw [if_pos isIdle, Request.opens]
        by_cases isBlank : request.endpoint = .verifyEmail ∧ env.strip request.token = ""
        · rw [if_pos isBlank]
          refine inv.setPhase (by rw [isIdle]; rfl) (by rw [isIdle]; rfl) (fun _ passed => ?_)
            (by simp)
          cases passed
        · rw [if_neg isBlank]
          refine inv.setPhase (by rw [isIdle]; rfl) (by rw [isIdle]; rfl) (fun _ passed => ?_)
            (by simp)
          cases passed
      · rw [if_neg isIdle]
        exact inv
  | act call now => exact inv.act call now
  | fail call => exact inv.fail call
  | issue op =>
      simp only [TokenRedemption.step]
      by_cases isIssue : issues op = true
      · rw [if_pos isIssue]
        exact inv.issue isIssue
      · rw [if_neg isIssue]
        exact inv
  | others users => exact ⟨inv.keyed, inv.compatible, inv.owned, inv.held, inv.unused, inv.places,
      inv.consumed, inv.used, inv.once⟩

theorem Inv.granted (inv : Inv env state) (member : row ∈ state.rows)
    (finds : request.finds env row = true)
    (free : ∀ other otherRequest, (state.phase other).held ≠ some (otherRequest, row))
    {clause : TokenRow → Bool} (marks : ∀ other, clause other = true →
      request.marks env other = true) (locks : List Lock)
    (others : ∀ lock ∈ locks, lock.owner ≠ call → lock ∈ state.locks) :
    TokenRedemption.granted locks call (selected state.rows clause) = true := by
  refine List.all_eq_true.mpr fun place isSelected => grantable_iff.mpr ?_
  intro other otherIn apart same
  obtain ⟨otherRequest, otherRow, isHeld, found⟩ := inv.owned other (others other otherIn apart)
  rw [same, selected_row inv.keyed member finds marks isSelected] at found
  cases found
  exact absurd isHeld (free other.owner otherRequest)

theorem Inv.redeems (inv : Inv env state) {now : Nat} (member : row ∈ state.rows)
    (unused : row.usedAt = none) (finds : request.finds env row = true)
    (free : ∀ other otherRequest, (state.phase other).held ≠ some (otherRequest, row))
    (isIdle : state.phase call = .idle) (opens : request.opens env = .begun request)
    (inTime : now ≤ row.expiresAt) (user : request.lacksUser state.users row.userId = false) :
    Redeems env state call request row now := by
  have found : state.rows.find? (request.finds env) = some row := by
    cases result : state.rows.find? (request.finds env) with
    | none => exact absurd finds (List.find?_eq_none.mp result row member)
    | some other =>
        have otherIn := List.mem_of_find?_eq_some result
        have otherFinds : request.finds env other = true := List.find?_some result
        have first := marks_token inv.keyed otherIn (finds_iff.mp otherFinds).1
        have second := marks_token inv.keyed member (finds_iff.mp finds).1
        rw [inv.keyed.eq_of_token otherIn member (first.trans second.symm)]
  have reads : TokenRedemption.granted state.locks call
      (selected state.rows (request.finds env)) = true :=
    inv.granted member finds free (fun _ finds => (finds_iff.mp finds).1) _ fun _ old _ => old
  have writes : TokenRedemption.granted
      (TokenRedemption.hold state.locks call (selected state.rows (request.finds env))) call
      (selected state.rows (request.marks env)) = true := by
    refine inv.granted member finds free (fun _ marks => marks) _ fun lock isHeld apart => ?_
    rcases mem_hold.mp isHeld with ⟨own, -⟩ | old
    · exact absurd own apart
    · exact old
  have notExpired : ¬ row.expiresAt < now := by omega
  unfold Redeems alone
  simp only [run_cons, run_nil, TokenRedemption.step, isIdle, if_true, opens]
  -- begun, locked, checked, marked and the commit
  simp only [TokenRedemption.act, State.setPhase, State.leave, Function.update_self, reads, found,
    if_true, unused, Option.isSome_none, Bool.false_eq_true, if_false, notExpired, user, writes,
    Function.update_idem]
  cases endpoint : request.endpoint with
  | consumePasswordResetToken | verifyEmail => simp [Request.afterCommit, endpoint]

end Steps

structure SingleUse (env : Env) (state : State) : Prop where
  once : ∀ first second request other, (state.phase first).consumed = some request →
    (state.phase second).consumed = some other →
    request.tokenHash env = other.tokenHash env → first = second
  purpose : ∀ call request, (state.phase call).consumed = some request →
    (∃ row ∈ state.rows, row.token = request.tokenHash env) ∧
      ∀ row ∈ state.rows, row.token = request.tokenHash env → row.purpose = request.purpose
  left : ∀ row ∈ state.rows, (∀ call request, (state.phase call).consumed = some request →
      request.tokenHash env ≠ row.token) →
    ∀ request, request.finds env row = true → request.opens env = .begun request →
      (∀ call other, (state.phase call).held ≠ some (other, row)) →
      ∀ call now, state.phase call = .idle → now ≤ row.expiresAt →
        request.lacksUser state.users row.userId = false → Redeems env state call request row now

theorem Inv.singleUse {env : Env} {state : State} (inv : Inv env state) : SingleUse env state := by
  refine ⟨inv.once, fun call request isConsumed => ?_, ?_⟩
  · obtain ⟨row, member, token, purpose, -⟩ := inv.consumed call request isConsumed
    refine ⟨⟨row, member, token⟩, fun other otherIn same => ?_⟩
    rw [inv.keyed.eq_of_token otherIn member (same.trans token.symm), purpose]
  · intro row member never request finds opens free call now isIdle inTime user
    refine inv.redeems member ?_ finds free isIdle opens inTime user
    by_contra isUsed
    obtain ⟨first, other, isConsumed, token⟩ :=
      inv.used row member (Option.isSome_iff_ne_none.mpr isUsed)
    exact never first other isConsumed token

theorem inv_resting (env : Env) : Inv env resting := by
  refine ⟨⟨List.nodup_nil, ?_⟩, ?_, ?_, ?_, ?_, ?_, ?_, ?_, ?_⟩
  · intro row member
    cases member
  · intro lock member
    cases member
  · intro lock member
    cases member
  · intro call request row isHeld
    cases isHeld
  · intro call row passed
    cases passed
  · intro call request stamp row places isMarked
    cases isMarked
  · intro call request isConsumed
    cases isConsumed
  · intro row member
    cases member
  · intro first second request other isConsumed
    cases isConsumed

/-- After every interleaving of issuers, redeeming calls and their failures. -/
theorem run_singleUse (env : Env) (events : List Event) :
    SingleUse env (run (step env) resting events) :=
  (run_preserves (step env) (Inv env) (fun _ event inv => inv.step event) resting
    (inv_resting env) events).singleUse

def digestEnv : Env := ⟨digest, fun token => token⟩

def verification : Request := ⟨.verifyEmail, "raw-verify"⟩

def sessionFails : List Event :=
  [.issue (.register 8 "raw-verify" 24 100), .others [⟨8, "ana", false⟩], .begin 0 verification,
    .act 0 110, .act 0 111, .act 0 112, .act 0 113, .fail 0]

/-- A call that fails to create a session leaves its token used. -/
theorem session_fails_used :
    let state := run (step digestEnv) resting sessionFails
    state.phase 0 = .ended verification .internalError ∧
      (alone digestEnv state 1 verification 120).phase 1 = .ended verification .used := by
  decide +kernel

end OdooSemantic.WebUi.TokenRedemption
