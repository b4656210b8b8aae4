import Mathlib.Data.List.Nodup
import OdooSemantic.Lib.Run

/-!
# The last active admin

Deactivation, demotion and erasure of a user lock the user's row, count the other
active admins and write; a deletion has no guard.  The transactions interleave
statement by statement under read committed.
-/

set_option autoImplicit false

namespace OdooSemantic.WebUi.Admins

open Lib.Run

structure WebUser where
  id : Nat
  username : String
  passwordHash : Option String
  email : Option String
  isAdmin : Bool
  isActive : Bool
  mfaEnabled : Bool
  deriving DecidableEq

def WebUser.activeAdmin (user : WebUser) : Bool := user.isAdmin && user.isActive

/-- The guarded operations: `set_user_active(False)`, `set_user_admin(False)` and
`purge_user_account`. -/
inductive Op where
  | deactivate (userId : Nat)
  | demote (userId : Nat)
  | purge (userId : Nat)
  deriving DecidableEq

def Op.userId : Op → Nat
  | .deactivate userId => userId
  | .demote userId => userId
  | .purge userId => userId

def Op.set (user : WebUser) : Op → WebUser
  | .deactivate _ => { user with isActive := false }
  | .demote _ => { user with isAdmin := false }
  | .purge userId =>
      { user with
        isActive := false, passwordHash := none, mfaEnabled := false, email := none
        username := "deleted-user-" ++ toString userId }

def applyOp (op : Op) (users : List WebUser) : List WebUser :=
  users.map fun user => if user.id = op.userId then op.set user else user

/-- `count(*) … WHERE is_admin = TRUE AND is_active = TRUE AND id != …`. -/
def otherAdminCount (users : List WebUser) (userId : Nat) : Nat :=
  (users.filter fun user => user.activeAdmin && user.id != userId).length

def hasUser (users : List WebUser) (userId : Nat) : Bool :=
  users.any (·.id == userId)

def Op.counts (isAdmin : Bool) : Op → Bool
  | .demote _ => true
  | _ => isAdmin

/-- Where a transaction stands between two statements. -/
inductive Phase where
  | idle
  | begun (op : Op)
  | locked (op : Op) (isAdmin : Bool)
  | guarded (op : Op)
  | written (op : Op)
  | ended
  deriving DecidableEq

def Phase.holds : Phase → Option Nat
  | .locked op _ => some op.userId
  | .guarded op => some op.userId
  | .written op => some op.userId
  | _ => none

/-- The row of a transaction that has passed its guard and not ended. -/
def Phase.pending : Phase → Option Nat
  | .guarded op => some op.userId
  | .written op => some op.userId
  | _ => none

structure State where
  users : List WebUser
  started : Nat
  phase : Nat → Phase

def lockedByOther (state : State) (transaction userId : Nat) : Bool :=
  (List.range state.started).any fun other =>
    other != transaction && (state.phase other).holds == some userId

def advance (state : State) (transaction : Nat) : Phase → Option Phase
  | .begun op =>
      if hasUser state.users op.userId && lockedByOther state transaction op.userId then none
      else some (.locked op
        ((state.users.find? (·.id == op.userId)).any (·.isAdmin)))
  | .locked op isAdmin =>
      if op.counts isAdmin && otherAdminCount state.users op.userId == 0 then some .ended
      else some (.guarded op)
  | .guarded (.demote userId) =>
      if hasUser state.users userId then some (.written (.demote userId)) else some .ended
  | .guarded op => some (.written op)
  | .written _ => some .ended
  | _ => none

def published (users : List WebUser) : Phase → List WebUser
  | .written op => applyOp op users
  | _ => users

inductive Event where
  | begin (op : Op)
  | act (transaction : Nat) (fails : Bool)
  | delete (username : String)

/-- `delete_user` waits for the lock of the row it deletes. -/
def deletes (state : State) (username : String) (user : WebUser) : Bool :=
  user.username == username &&
    !((List.range state.started).any fun other => (state.phase other).holds == some user.id)

def step (state : State) : Event → State
  | .begin op =>
      { state with
        started := state.started + 1
        phase := Function.update state.phase state.started (.begun op) }
  | .act transaction true =>
      if state.phase transaction = .idle then state
      else { state with phase := Function.update state.phase transaction .ended }
  | .act transaction false =>
      match advance state transaction (state.phase transaction) with
      | none => state
      | some next =>
          { state with
            users := published state.users (state.phase transaction)
            phase := Function.update state.phase transaction next }
  | .delete username =>
      { state with users := state.users.filter fun user => !deletes state username user }

/-- An active admin stays whom no other transaction that has passed its guard is about to
remove. -/
def spared (state : State) (transaction : Option Nat) (gone : WebUser → Bool) : Bool :=
  state.users.any fun user => user.activeAdmin && !gone user &&
    (List.range state.started).all fun other =>
      some other == transaction || (state.phase other).pending != some user.id

/-- A guard of an active admin passes, and an active admin is deleted, only while another
one is spared. -/
def apart (state : State) : Event → Bool
  | .act transaction false =>
      match state.phase transaction with
      | .locked op isAdmin =>
          !(state.users.any fun user => user.activeAdmin && user.id == op.userId) ||
            (op.counts isAdmin && otherAdminCount state.users op.userId == 0) ||
            spared state (some transaction) (·.id == op.userId)
      | _ => true
  | .delete username =>
      !(state.users.any fun user => user.activeAdmin && deletes state username user) ||
        spared state none (deletes state username)
  | _ => true

structure Safe (state : State) : Prop where
  ids : (state.users.map (·.id)).Nodup
  admin : ∃ user ∈ state.users, user.activeAdmin = true ∧
    ∀ transaction, (state.phase transaction).pending ≠ some user.id
  begun : ∀ transaction, state.started ≤ transaction → state.phase transaction = .idle

theorem applyOp_ids (op : Op) (users : List WebUser) :
    (applyOp op users).map (·.id) = users.map (·.id) := by
  unfold applyOp
  rw [List.map_map]
  apply List.map_congr_left
  intro user _
  simp only [Function.comp_apply]
  split
  · cases op <;> rfl
  · rfl

theorem published_ids (users : List WebUser) (phase : Phase) :
    (published users phase).map (·.id) = users.map (·.id) := by
  cases phase with
  | written op => exact applyOp_ids op users
  | _ => rfl

theorem mem_published {users : List WebUser} {phase : Phase} {user : WebUser}
    (member : user ∈ users) (other : phase.pending ≠ some user.id) :
    user ∈ published users phase := by
  cases phase with
  | written op =>
      have apart : user.id ≠ op.userId := fun same => other (by rw [same]; rfl)
      refine List.mem_map.mpr ⟨user, member, ?_⟩
      rw [if_neg apart]
  | idle | begun op | locked op isAdmin | guarded op | ended => exact member

theorem eq_of_id {users : List WebUser} (ids : (users.map (·.id)).Nodup) {first second : WebUser}
    (firstIn : first ∈ users) (secondIn : second ∈ users) (same : first.id = second.id) :
    first = second :=
  List.inj_on_of_nodup_map ids firstIn secondIn same

theorem spared_spec {state : State} (safe : Safe state) {transaction : Option Nat}
    {gone : WebUser → Bool} (isSpared : spared state transaction gone = true) :
    ∃ user ∈ state.users, user.activeAdmin = true ∧ gone user = false ∧
      ∀ other, some other ≠ transaction → (state.phase other).pending ≠ some user.id := by
  obtain ⟨user, userIn, holds⟩ := List.any_eq_true.mp isSpared
  simp only [Bool.and_eq_true, Bool.not_eq_true', bne_iff_ne, List.all_eq_true, Bool.or_eq_true,
    beq_iff_eq] at holds
  obtain ⟨⟨admin, other⟩, free⟩ := holds
  refine ⟨user, userIn, admin, other, fun transaction' apart => ?_⟩
  by_cases early : transaction' < state.started
  · rcases free transaction' (List.mem_range.mpr early) with same | notPending
    · exact absurd same apart
    · exact notPending
  · rw [safe.begun transaction' (Nat.le_of_not_lt early)]
    intro pending
    cases pending

theorem advance_pending {state : State} {transaction : Nat} {phase next : Phase} {userId : Nat}
    (advanced : advance state transaction phase = some next) (pending : next.pending = some userId) :
    phase.pending = some userId ∨ ∃ op isAdmin, phase = .locked op isAdmin ∧ op.userId = userId ∧
      (op.counts isAdmin && otherAdminCount state.users op.userId == 0) = false := by
  cases phase with
  | idle | ended => cases advanced
  | begun op =>
      simp only [advance] at advanced
      split at advanced
      · cases advanced
      · cases advanced
        cases pending
  | locked op isAdmin =>
      simp only [advance] at advanced
      split at advanced
      · cases advanced
        cases pending
      · rename_i passes
        cases advanced
        exact Or.inr ⟨op, isAdmin, rfl, Option.some.inj pending, by simpa using passes⟩
  | guarded op =>
      left
      cases op with
      | demote target =>
          simp only [advance] at advanced
          split at advanced
          · cases advanced
            exact pending
          · cases advanced
            cases pending
      | deactivate target | purge target =>
          cases advanced
          exact pending
  | written op =>
      cases advanced
      cases pending

theorem begun_act {state : State} (safe : Safe state) {transaction : Nat} {next : Phase}
    (advanced : advance state transaction (state.phase transaction) = some next) (other : Nat)
    (late : state.started ≤ other) :
    Function.update state.phase transaction next other = .idle := by
  by_cases acting : other = transaction
  · subst acting
    rw [safe.begun other late] at advanced
    cases advanced
  · rw [Function.update_of_ne acting]
    exact safe.begun other late

theorem Safe.act {state : State} {transaction : Nat} (safe : Safe state)
    (condition : apart state (.act transaction false) = true) :
    Safe (step state (.act transaction false)) := by
  cases advanced : advance state transaction (state.phase transaction) with
  | none =>
      simp only [step, advanced]
      exact safe
  | some next =>
      simp only [step, advanced]
      refine ⟨by rw [published_ids]; exact safe.ids, ?_, begun_act safe advanced⟩
      obtain ⟨user, userIn, admin, free⟩ := safe.admin
      -- the admin stays unless this transaction passes its guard for that row
      by_cases entering : next.pending = some user.id
      · rcases advance_pending advanced entering with already | ⟨op, isAdmin, phase, target, passes⟩
        · exact absurd already (free transaction)
        · have isTarget : (state.users.any fun other =>
              other.activeAdmin && other.id == op.userId) = true :=
            List.any_eq_true.mpr ⟨user, userIn, by simp [admin, target]⟩
          simp only [apart, phase, isTarget, passes, Bool.not_true, Bool.false_or] at condition
          obtain ⟨other, otherIn, otherAdmin, elsewhere, otherFree⟩ := spared_spec safe condition
          refine ⟨other, ?_, otherAdmin, ?_⟩
          · rw [phase]
            exact otherIn
          · intro transaction'
            by_cases acting : transaction' = transaction
            · subst acting
              simp only [Function.update_self, entering]
              intro same
              simp [target, Option.some.inj same] at elsewhere
            · simp only [Function.update_of_ne acting]
              exact otherFree transaction' fun same => acting (Option.some.inj same)
      · refine ⟨user, mem_published userIn (free transaction), admin, ?_⟩
        intro transaction'
        by_cases acting : transaction' = transaction
        · subst acting
          simp only [Function.update_self]
          exact entering
        · simp only [Function.update_of_ne acting]
          exact free transaction'

theorem Safe.delete {state : State} {username : String} (safe : Safe state)
    (condition : apart state (.delete username) = true) :
    Safe (step state (.delete username)) := by
  have rows : (step state (.delete username)).users =
      state.users.filter fun user => !deletes state username user := rfl
  refine ⟨?_, ?_, safe.begun⟩
  · rw [rows]
    exact safe.ids.sublist (List.filter_sublist.map _)
  · rw [rows]
    obtain ⟨user, userIn, admin, free⟩ := safe.admin
    by_cases deleted : deletes state username user = true
    · have isTarget : (state.users.any fun other =>
          other.activeAdmin && deletes state username other) = true :=
        List.any_eq_true.mpr ⟨user, userIn, by simp [admin, deleted]⟩
      simp only [apart, isTarget, Bool.not_true, Bool.false_or] at condition
      obtain ⟨other, otherIn, otherAdmin, stays, otherFree⟩ := spared_spec safe condition
      refine ⟨other, List.mem_filter.mpr ⟨otherIn, by simp [stays]⟩, otherAdmin, ?_⟩
      exact fun transaction => otherFree transaction fun same => by cases same
    · exact ⟨user, List.mem_filter.mpr ⟨userIn, by simpa using deleted⟩, admin, free⟩

theorem Safe.step {state : State} {event : Event} (safe : Safe state)
    (condition : apart state event = true) : Safe (step state event) := by
  cases event with
  | delete username => exact safe.delete condition
  | begin op =>
      refine ⟨safe.ids, ?_, ?_⟩
      · obtain ⟨user, userIn, admin, free⟩ := safe.admin
        refine ⟨user, userIn, admin, fun transaction => ?_⟩
        simp only [Admins.step]
        by_cases starting : transaction = state.started
        · subst starting
          simp only [Function.update_self]
          exact fun pending => by cases pending
        · simp only [Function.update_of_ne starting]
          exact free transaction
      · intro transaction late
        simp only [Admins.step] at late ⊢
        rw [Function.update_of_ne (by omega)]
        exact safe.begun transaction (by omega)
  | act transaction fails =>
      cases fails with
      | false => exact safe.act condition
      | true =>
          simp only [Admins.step]
          split
          · exact safe
          · rename_i busy
            refine ⟨safe.ids, ?_, ?_⟩
            · obtain ⟨user, userIn, admin, free⟩ := safe.admin
              refine ⟨user, userIn, admin, fun other => ?_⟩
              by_cases acting : other = transaction
              · subst acting
                simp only [Function.update_self]
                exact fun pending => by cases pending
              · simp only [Function.update_of_ne acting]
                exact free other
            · intro other late
              by_cases acting : other = transaction
              · subst acting
                exact absurd (safe.begun other late) busy
              · simp only [Function.update_of_ne acting]
                exact safe.begun other late

/-- From users with an active admin, an active admin stays in every run in which a guard of
an active admin passes, and an active admin is deleted, only while another one is spared. -/
theorem active_admin_stays (users : List WebUser) (ids : (users.map (·.id)).Nodup)
    (admin : ∃ user ∈ users, user.activeAdmin = true) (events : List Event)
    (condition : AllSteps step (fun state event => apart state event = true)
      ⟨users, 0, fun _ => .idle⟩ events) :
    ∃ user ∈ (run step ⟨users, 0, fun _ => .idle⟩ events).users, user.activeAdmin = true := by
  have initial : Safe ⟨users, 0, fun _ => .idle⟩ := by
    obtain ⟨user, userIn, isAdmin⟩ := admin
    exact ⟨ids, ⟨user, userIn, isAdmin, fun _ pending => by cases pending⟩, fun _ _ => rfl⟩
  obtain ⟨user, userIn, isAdmin, -⟩ := (run_preserves_guarded step
    (fun state event => apart state event = true) Safe
    (fun state event guard safe => safe.step guard) events _ condition initial).admin
  exact ⟨user, userIn, isAdmin⟩

def adminUser (id : Nat) (username : String) : WebUser :=
  { id, username, passwordHash := some "hash", email := none, isAdmin := true, isActive := true
    mfaEnabled := false }

def twoAdmins : List WebUser := [adminUser 1 "anna", adminUser 2 "binh"]

/-- One transaction ends before the next one begins: the second is refused. -/
def oneAfterAnother : List Event :=
  [.begin (.deactivate 1)] ++ List.replicate 4 (.act 0 false) ++
    [.begin (.demote 2)] ++ List.replicate 4 (.act 1 false)

/-- Both transactions count the other admin before one of them commits. -/
def crossing : List Event :=
  [.begin (.deactivate 1), .begin (.demote 2)] ++ List.replicate 2 (.act 0 false) ++
    List.replicate 2 (.act 1 false) ++ List.replicate 2 (.act 0 false) ++
      List.replicate 2 (.act 1 false)

theorem binh_stays :
    ∃ user ∈ (run step ⟨twoAdmins, 0, fun _ => .idle⟩ oneAfterAnother).users,
      user.activeAdmin = true := by
  have condition : AllSteps step (fun state event => apart state event = true)
      ⟨twoAdmins, 0, fun _ => .idle⟩ oneAfterAnother := by decide +kernel
  exact active_admin_stays twoAdmins (by decide) ⟨adminUser 1 "anna", by decide, rfl⟩
    oneAfterAnother condition

/-- Two crossing transactions leave no active admin, and so does one deletion. -/
theorem crossing_leaves_no_admin :
    (∃ user ∈ twoAdmins, user.activeAdmin = true) ∧
      (∀ user ∈ (run step ⟨twoAdmins, 0, fun _ => .idle⟩ crossing).users,
        user.activeAdmin = false) ∧
      (run step ⟨[adminUser 1 "anna"], 0, fun _ => .idle⟩ [.delete "anna"]).users = [] := by
  decide +kernel

end OdooSemantic.WebUi.Admins
