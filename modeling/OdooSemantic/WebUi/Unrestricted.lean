import OdooSemantic.Lib.Table
import OdooSemantic.WebUi.Admins

/-!
# Unrestricted keys

A key without a tenant reads everything and belongs to an admin or to nobody.  Minting,
reassignment and reactivation read who is an admin and write later, each in statements of their
own; a demotion looks for such keys of its user and binds them before it commits.
-/

set_option autoImplicit false

namespace OdooSemantic.WebUi.Unrestricted

open Lib Lib.Run
open WebUi.Admins (WebUser hasUser otherAdminCount)

structure Key where
  id : Nat
  userId : Option Nat
  tenantId : Option Nat
  active : Bool
  deriving DecidableEq

/-- Active without a tenant. -/
def Key.unrestricted (key : Key) : Bool := key.active && key.tenantId == none

structure Store where
  users : List WebUser
  keys : Table Key

namespace Store
variable (store : Store)

def isAdmin (userId : Nat) : Bool := (store.users.find? (·.id == userId)).any (·.isAdmin)

def key? (keyId : Nat) : Option Key := store.keys.rows.find? fun key => key.id == keyId

def unrestrictedOf (userId : Nat) : List Nat :=
  (store.keys.rows.filter fun key => key.unrestricted && key.userId == some userId).map (·.id)

def updateKey (keyId : Nat) (set : Key → Key) : Store :=
  { store with keys := store.keys.updateWhere (·.id == keyId) set }

def insertKey (userId tenantId : Option Nat) : Store :=
  { store with keys := store.keys.insert fun id => { id, userId, tenantId, active := true } }

def setAdmin (userId : Nat) (isAdmin : Bool) : Store :=
  { store with
    users := store.users.map fun user => if user.id = userId then { user with isAdmin } else user }

/-- `UPDATE api_keys SET tenant_id` of the rows a demotion matched, if it resolved a tenant. -/
def bindKeys (matched : List Nat) : Option Nat → Store
  | none => store
  | some tenantId =>
      { store with
        keys := store.keys.updateWhere (fun key => matched.contains key.id)
          fun key => { key with tenantId := some tenantId } }

end Store

/-! ## Operations -/

inductive Op where
  | create (userId : Option Nat)
  | assign (keyId : Nat) (newUserId : Option Nat)
  | reactivate (keyId : Nat)
  | demote (userId : Nat)

/-- Where an operation stands between two statements, with what it read. -/
inductive Phase where
  | idle
  | begun (op : Op)
  | creating (userId : Option Nat) (isAdmin : Bool)
  | assigning (keyId : Nat) (newUserId : Option Nat)
  | assignSeen (keyId : Nat) (newUserId : Option Nat) (unrestricted : Bool)
  | assignReady (keyId : Nat) (newUserId : Option Nat) (unrestricted scope : Bool)
  | reactivating (keyId : Nat) (owner : Option Nat) (unbound : Bool)
  | reactivateReady (keyId : Nat) (owner : Option Nat) (unbound scope : Bool)
  | locked (userId : Nat)
  | counted (userId : Nat)
  | looked (userId : Nat) (hasUnrestricted : Bool)
  | resolved (userId : Nat) (tenantId : Option Nat)
  | flagged (userId : Nat) (tenantId : Option Nat)
  | demoted (userId : Nat) (tenantId : Option Nat) (matched : List Nat)
  | ended

namespace Phase

/-- The row of `webui_users` a demotion holds. -/
def holds : Phase → Option Nat
  | .locked userId => some userId
  | .counted userId => some userId
  | .looked userId _ => some userId
  | .resolved userId _ => some userId
  | .flagged userId _ => some userId
  | .demoted userId _ _ => some userId
  | _ => none

/-- The rows of `api_keys` a demotion holds. -/
def holdsKeys : Phase → List Nat
  | .demoted _ _ matched => matched
  | _ => []

def looking : Phase → Option Nat
  | .looked userId _ => some userId
  | .resolved userId _ => some userId
  | .flagged userId _ => some userId
  | .demoted userId _ _ => some userId
  | _ => none

end Phase

structure State where
  store : Store
  started : Nat
  phase : Nat → Phase

namespace State
variable (state : State) (transaction : Nat)

def others (test : Phase → Bool) : Bool :=
  (List.range state.started).any fun other => other != transaction && test (state.phase other)

/-- A foreign key check, and every write of the row, waits for a demotion of the user. -/
def userLocked (userId : Nat) : Bool :=
  state.others transaction fun phase => phase.holds == some userId

def keyLocked (keyId : Nat) : Bool :=
  state.others transaction fun phase => phase.holdsKeys.contains keyId

/-- A demotion of the user is between its look at the keys and its commit. -/
def underway (userId : Nat) : Bool :=
  state.others transaction fun phase => phase.looking == some userId

def mintTenant (isAdmin : Bool) (resolver : Option Nat) : Option (Option Nat) :=
  if isAdmin then some none else resolver.map some

/-- The tenant an update sets, if it sets one; nothing when the resolver raises. -/
def scoping (scope : Bool) (resolver : Option Nat) : Option (Key → Key) :=
  if scope then resolver.map fun tenantId key => { key with tenantId := some tenantId }
  else some id

/-- The tables and the phase after the next statement; none while it waits for a lock.  The
resolver's outcome is read by the statement after it. -/
def advance (resolver : Option Nat) : Phase → Option (Store × Phase)
  | .begun (.create userId) =>
      some (state.store, .creating userId (userId.any state.store.isAdmin))
  | .creating userId isAdmin =>
      if userId.any (state.userLocked transaction) then none
      else
        match mintTenant isAdmin resolver with
        | none => some (state.store, .ended)
        | some tenantId =>
            if userId.all (hasUser state.store.users) then
              some (state.store.insertKey userId tenantId, .ended)
            else some (state.store, .ended)
  | .begun (.assign keyId newUserId) =>
      if newUserId.all (hasUser state.store.users) then
        some (state.store, .assigning keyId newUserId)
      else some (state.store, .ended)
  | .assigning keyId newUserId =>
      match state.store.key? keyId with
      | none => some (state.store, .ended)
      | some key => some (state.store, .assignSeen keyId newUserId key.unrestricted)
  | .assignSeen keyId newUserId unrestricted =>
      some (state.store, .assignReady keyId newUserId unrestricted
        (unrestricted && newUserId.any fun userId => !state.store.isAdmin userId))
  | .assignReady keyId newUserId _ scope =>
      if state.keyLocked transaction keyId ||
          ((state.store.key? keyId).any fun key => key.userId != newUserId) &&
            newUserId.any (state.userLocked transaction) then none
      else
        match scoping scope resolver with
        | none => some (state.store, .ended)
        | some bind =>
            some (state.store.updateKey keyId fun key => bind { key with userId := newUserId },
              .ended)
  | .begun (.reactivate keyId) =>
      match state.store.key? keyId with
      | none => some (state.store, .ended)
      | some key => some (state.store, .reactivating keyId key.userId (key.tenantId == none))
  | .reactivating keyId owner unbound =>
      some (state.store, .reactivateReady keyId owner unbound
        (unbound && owner.any fun userId => !state.store.isAdmin userId))
  | .reactivateReady keyId _ _ scope =>
      if state.keyLocked transaction keyId then none
      else
        match scoping scope resolver with
        | none => some (state.store, .ended)
        | some bind =>
            some (state.store.updateKey keyId fun key => bind { key with active := true }, .ended)
  | .begun (.demote userId) =>
      if hasUser state.store.users userId && state.userLocked transaction userId then none
      else some (state.store, .locked userId)
  | .locked userId =>
      if otherAdminCount state.store.users userId == 0 then some (state.store, .ended)
      else some (state.store, .counted userId)
  | .counted userId =>
      some (state.store, .looked userId !(state.store.unrestrictedOf userId).isEmpty)
  | .looked userId hasUnrestricted =>
      if hasUnrestricted then
        match resolver with
        | none => some (state.store, .ended)
        | some tenantId => some (state.store, .resolved userId (some tenantId))
      else some (state.store, .resolved userId none)
  | .resolved userId tenantId =>
      if hasUser state.store.users userId then some (state.store, .flagged userId tenantId)
      else some (state.store, .ended)
  | .flagged userId tenantId =>
      some (state.store, .demoted userId tenantId
        (if tenantId.isSome then state.store.unrestrictedOf userId else []))
  | .demoted userId tenantId matched =>
      some ((state.store.setAdmin userId false).bindKeys matched tenantId, .ended)
  | .idle => none
  | .ended => none

def setPhase (next : Phase) : State :=
  { state with phase := Function.update state.phase transaction next }

end State

inductive Event where
  | begin (op : Op)
  | act (transaction : Nat) (resolver : Option Nat)
  | fail (transaction : Nat)
  | deactivate (keyId : Nat)
  | promote (userId : Nat)

/-- A statement that fails ends its operation; only `is_admin_session` catches and says no. -/
def failed (phase : Phase) : Phase :=
  match phase with
  | .idle => .idle
  | .begun (.create userId) => .creating userId false
  | _ => .ended

def step (state : State) : Event → State
  | .begin op =>
      { state with
        started := state.started + 1
        phase := Function.update state.phase state.started (.begun op) }
  | .act transaction resolver =>
      match state.advance transaction resolver (state.phase transaction) with
      | none => state
      | some (store, next) => { state.setPhase transaction next with store }
  | .fail transaction => state.setPhase transaction (failed (state.phase transaction))
  | .deactivate keyId =>
      if state.keyLocked state.started keyId then state
      else { state with store := state.store.updateKey keyId fun key => { key with active := false } }
  | .promote userId =>
      if state.userLocked state.started userId then state
      else { state with store := state.store.setAdmin userId true }

/-- No operation has begun. -/
def initial (store : Store) : State := { store, started := 0, phase := fun _ => .idle }

/-- No active key without a tenant is owned by a user who is no admin. -/
def Lawful (store : Store) : Prop :=
  ∀ key ∈ store.keys.rows, key.unrestricted = true → ∀ user ∈ store.users,
    key.userId = some user.id → user.isAdmin = true

/-- What made an operation leave the tenant out still holds when it writes: the user is still an
admin, the assigned key is still inactive or bound, the reactivated key still has the owner it
was read with; and no demotion of that owner is under way. -/
def stillExempt (state : State) : Event → Bool
  | .act transaction _ =>
      match state.phase transaction with
      | .creating userId true => userId.all state.store.isAdmin
      | .assignReady keyId newUserId unrestricted false =>
          if unrestricted then newUserId.all state.store.isAdmin
          else (state.store.key? keyId).all fun key => !key.unrestricted
      | .reactivateReady keyId owner true false =>
          ((state.store.key? keyId).all fun key => key.userId == owner) &&
            owner.all fun userId =>
              state.store.isAdmin userId && !state.underway transaction userId
      | _ => true
  | _ => true

/-- A demotion that has looked accounts for the unrestricted keys of its user: it will bind those
it matched, and where it is past its update or found none there are no others. -/
def Phase.covers : Phase → Option (Nat × List Nat)
  | .looked userId false => some (userId, [])
  | .resolved userId none => some (userId, [])
  | .flagged userId none => some (userId, [])
  | .demoted userId none _ => some (userId, [])
  | .demoted userId (some _) matched => some (userId, matched)
  | _ => none

/-- The key a reactivation read with a tenant. -/
def Phase.sawBound : Phase → Option Nat
  | .reactivating keyId _ false => some keyId
  | .reactivateReady keyId _ false _ => some keyId
  | _ => none

structure Phase.Sound (store : Store) (phase : Phase) : Prop where
  covers : ∀ userId matched, phase.covers = some (userId, matched) → ∀ key ∈ store.keys.rows,
    key.unrestricted = true → key.userId = some userId → key.id ∈ matched
  bound : ∀ keyId, phase.sawBound = some keyId → ∃ key ∈ store.keys.rows,
    key.id = keyId ∧ key.tenantId.isSome = true

structure Sound (state : State) : Prop where
  ids : (state.store.users.map (·.id)).Nodup
  keyed : Table.Keyed Key.id state.store.keys
  lawful : Lawful state.store
  begun : ∀ transaction, state.started ≤ transaction → state.phase transaction = .idle
  phases : ∀ transaction, (state.phase transaction).Sound state.store

section Reads
variable {state : State} {store : Store} {transaction : Nat}

variable {userId : Nat} {matched : List Nat}

theorem isAdmin_spec (ids : (store.users.map (·.id)).Nodup)
    (admin : store.isAdmin userId = true) : ∀ user ∈ store.users, user.id = userId →
      user.isAdmin = true := by
  intro user userIn same
  simp only [Store.isAdmin, Option.any_eq_true] at admin
  obtain ⟨found, foundEq, isAdmin⟩ := admin
  have foundId : found.id = userId := by simpa using List.find?_some foundEq
  rw [Admins.eq_of_id ids userIn (List.mem_of_find?_eq_some foundEq) (same.trans foundId.symm)]
  exact isAdmin

theorem others_of {test : Phase → Bool} (sound : Sound state) {other : Nat}
    (apart : other ≠ transaction) (idle : test .idle = false)
    (holds : test (state.phase other) = true) : state.others transaction test = true := by
  refine List.any_eq_true.mpr ⟨other, ?_, ?_⟩
  · by_contra late
    rw [sound.begun other (by simpa using late), idle] at holds
    cases holds
  · simp [apart, holds]

theorem covers_looking {phase : Phase}
    (covers : phase.covers = some (userId, matched)) : phase.looking = some userId := by
  unfold Phase.covers at covers
  split at covers
  · cases covers; rfl
  · cases covers; rfl
  · cases covers; rfl
  · cases covers; rfl
  · cases covers; rfl
  · cases covers

theorem looking_holds {phase : Phase} (looking : phase.looking = some userId) :
    phase.holds = some userId := by
  unfold Phase.looking at looking
  split at looking
  · cases looking; rfl
  · cases looking; rfl
  · cases looking; rfl
  · cases looking; rfl
  · cases looking

theorem userLocked_of_covers (sound : Sound state) {other userId : Nat}
    (apart : other ≠ transaction) (covers : (state.phase other).covers = some (userId, matched)) :
    state.userLocked transaction userId = true :=
  others_of sound apart rfl (by simp [looking_holds (covers_looking covers)])

theorem underway_of_covers (sound : Sound state) {other userId : Nat}
    (apart : other ≠ transaction) (covers : (state.phase other).covers = some (userId, matched)) :
    state.underway transaction userId = true :=
  others_of sound apart rfl (by simp [covers_looking covers])

theorem unrestricted_iff (key : Key) :
    key.unrestricted = true ↔ key.active = true ∧ key.tenantId = none := by
  simp [Key.unrestricted]

theorem key?_some {keyId : Nat} {key : Key} (found : store.key? keyId = some key) :
    key ∈ store.keys.rows ∧ key.id = keyId :=
  ⟨List.mem_of_find?_eq_some found, by simpa using List.find?_some found⟩

end Reads

/-! ## What a write of the tables keeps -/

def Quiet (before after : Store) (userId : Nat) : Prop :=
  ∀ key ∈ after.keys.rows, key.unrestricted = true → key.userId = some userId →
    ∃ old ∈ before.keys.rows, old.id = key.id ∧ old.unrestricted = true ∧
      old.userId = some userId

def KeepsTenants (before after : Store) : Prop :=
  ∀ old ∈ before.keys.rows, old.tenantId.isSome = true →
    ∃ key ∈ after.keys.rows, key.id = old.id ∧ key.tenantId.isSome = true

theorem Phase.Sound.mono {phase : Phase} {before after : Store} (sound : phase.Sound before)
    (quiet : ∀ userId matched, phase.covers = some (userId, matched) → Quiet before after userId)
    (tenants : KeepsTenants before after) : phase.Sound after := by
  refine ⟨?_, ?_⟩
  · intro userId matched covers key keyIn unrestricted owned
    obtain ⟨old, oldIn, same, oldUnrestricted, oldOwned⟩ :=
      quiet userId matched covers key keyIn unrestricted owned
    rw [← same]
    exact sound.covers userId matched covers old oldIn oldUnrestricted oldOwned
  · intro keyId saw
    obtain ⟨old, oldIn, sameId, bound⟩ := sound.bound keyId saw
    obtain ⟨key, keyIn, same, stillBound⟩ := tenants old oldIn bound
    exact ⟨key, keyIn, same.trans sameId, stillBound⟩

theorem Phase.Sound.plain {store : Store} {phase : Phase} (covers : phase.covers = none)
    (bound : phase.sawBound = none) : phase.Sound store := by
  refine ⟨?_, ?_⟩
  · intro userId matched covered
    rw [covers] at covered
    cases covered
  · intro keyId saw
    rw [bound] at saw
    cases saw

section Writes
variable {store : Store}

variable {keyId : Nat} {set : Key → Key}

theorem keepsTenants_update
    (same_id : ∀ key, (set key).id = key.id)
    (keeps : ∀ key, key.tenantId.isSome = true → (set key).tenantId.isSome = true) :
    KeepsTenants store (store.updateKey keyId set) := by
  intro old oldIn bound
  refine ⟨_, Table.mem_updateWhere.mpr ⟨old, oldIn, rfl⟩, ?_⟩
  split
  · exact ⟨same_id old, keeps old bound⟩
  · exact ⟨rfl, bound⟩

theorem quiet_update {keyId userId : Nat} (same_id : ∀ key, (set key).id = key.id)
    (written : ∀ key ∈ store.keys.rows, key.id = keyId → (set key).unrestricted = true →
      (set key).userId = some userId → key.unrestricted = true ∧ key.userId = some userId) :
    Quiet store (store.updateKey keyId set) userId := by
  intro key keyIn unrestricted owned
  obtain ⟨old, oldIn, rfl⟩ := Table.mem_updateWhere.mp keyIn
  refine ⟨old, oldIn, ?_⟩
  by_cases hit : (old.id == keyId) = true
  · rw [if_pos hit] at unrestricted owned ⊢
    exact ⟨(same_id old).symm, written old oldIn (by simpa using hit) unrestricted owned⟩
  · rw [if_neg hit] at unrestricted owned ⊢
    exact ⟨rfl, unrestricted, owned⟩

theorem lawful_update (lawful : Lawful store)
    (written : ∀ key ∈ store.keys.rows, key.id = keyId → (set key).unrestricted = true →
      ∀ user ∈ store.users, (set key).userId = some user.id → user.isAdmin = true) :
    Lawful (store.updateKey keyId set) := by
  intro key keyIn unrestricted user userIn owned
  obtain ⟨old, oldIn, rfl⟩ := Table.mem_updateWhere.mp keyIn
  by_cases hit : (old.id == keyId) = true
  · rw [if_pos hit] at unrestricted owned
    exact written old oldIn (by simpa using hit) unrestricted user userIn owned
  · rw [if_neg hit] at unrestricted owned
    exact lawful old oldIn unrestricted user userIn owned

theorem quiet_restricting (same_id : ∀ key, (set key).id = key.id)
    (restricts : ∀ key, (set key).unrestricted = false) (userId : Nat) :
    Quiet store (store.updateKey keyId set) userId := by
  refine quiet_update same_id ?_
  intro key _ _ unrestricted
  rw [restricts key] at unrestricted
  cases unrestricted

theorem lawful_restricting (lawful : Lawful store)
    (restricts : ∀ key, (set key).unrestricted = false) : Lawful (store.updateKey keyId set) := by
  refine lawful_update lawful ?_
  intro key _ _ unrestricted
  rw [restricts key] at unrestricted
  cases unrestricted

theorem bound_restricted {key : Key} (bound : key.tenantId.isSome = true) :
    key.unrestricted = false := by
  by_contra unrestricted
  obtain ⟨-, noTenant⟩ := (unrestricted_iff _).mp (by simpa using unrestricted)
  rw [noTenant] at bound
  cases bound

end Writes

namespace Sound
variable {state : State} {transaction : Nat} {store : Store} {next : Phase}

theorem write (sound : Sound state) (early : transaction < state.started)
    (ids : (store.users.map (·.id)).Nodup) (keyed : Table.Keyed Key.id store.keys)
    (lawful : Lawful store) (nextSound : next.Sound store)
    (quiet : ∀ other, other ≠ transaction → ∀ userId matched,
      (state.phase other).covers = some (userId, matched) → Quiet state.store store userId)
    (tenants : KeepsTenants state.store store) :
    Sound { state.setPhase transaction next with store } := by
  refine ⟨ids, keyed, lawful, ?_, ?_⟩
  · intro other late
    have apart : other ≠ transaction := by
      rintro rfl
      exact absurd late (Nat.not_le.mpr early)
    simp only [State.setPhase, Function.update_of_ne apart]
    exact sound.begun other late
  · refine (Function.forall_update_iff state.phase fun _ phase => phase.Sound store).mpr
      ⟨nextSound, ?_⟩
    intro other acting
    exact (sound.phases other).mono (quiet other acting) tenants

theorem read (sound : Sound state) (early : transaction < state.started)
    (nextSound : next.Sound state.store) :
    Sound { state.setPhase transaction next with store := state.store } :=
  sound.write early sound.ids sound.keyed sound.lawful nextSound
    (fun _ _ _ _ _ key keyIn unrestricted owned => ⟨key, keyIn, rfl, unrestricted, owned⟩)
    (fun key keyIn bound => ⟨key, keyIn, rfl, bound⟩)

theorem ended (store : Store) : Phase.ended.Sound store := .plain rfl rfl

theorem insert (sound : Sound state) (early : transaction < state.started)
    {userId tenantId : Option Nat}
    (free : userId.any (state.userLocked transaction) = false)
    (exempt : tenantId = none → userId.all state.store.isAdmin = true) :
    Sound { state.setPhase transaction .ended with
      store := state.store.insertKey userId tenantId } := by
  have keyed : Table.Keyed Key.id (state.store.insertKey userId tenantId).keys := by
    simp only [Store.insertKey]
    exact sound.keyed.insert fun _ => rfl
  refine sound.write early sound.ids keyed ?_ (ended _) ?_ ?_
  · intro key keyIn unrestricted user userIn owned
    rcases List.mem_append.mp keyIn with old | new
    · exact sound.lawful key old unrestricted user userIn owned
    · obtain rfl := List.mem_singleton.mp new
      obtain ⟨-, noTenant⟩ := (unrestricted_iff _).mp unrestricted
      have admin := exempt noTenant
      simp only at owned
      rw [owned, Option.all_some] at admin
      exact isAdmin_spec sound.ids admin user userIn rfl
  · intro other apart covered matched covers key keyIn unrestricted owned
    rcases List.mem_append.mp keyIn with old | new
    · exact ⟨key, old, rfl, unrestricted, owned⟩
    · obtain rfl := List.mem_singleton.mp new
      simp only at owned
      rw [owned, Option.any_some, userLocked_of_covers sound apart covers] at free
      cases free
  · intro old oldIn bound
    exact ⟨old, List.mem_append_left _ oldIn, rfl, bound⟩

variable {scope : Bool} {resolver : Option Nat} {bind : Key → Key} {keyId : Nat} {userId : Nat}

theorem scoping_cases
    (decided : State.scoping scope resolver = some bind) :
    (scope = false ∧ bind = id) ∨
      (scope = true ∧ ∃ tenantId, bind = fun key => { key with tenantId := some tenantId }) := by
  cases scope with
  | false => exact Or.inl ⟨rfl, (Option.some.inj decided).symm⟩
  | true =>
      obtain ⟨tenantId, -, rfl⟩ := Option.map_eq_some_iff.mp decided
      exact Or.inr ⟨rfl, tenantId, rfl⟩

theorem binds (sound : Sound state) (early : transaction < state.started) (keyId : Nat)
    {set : Key → Key} (same_id : ∀ key, (set key).id = key.id)
    (bound : ∀ key, (set key).tenantId.isSome = true) :
    Sound { state.setPhase transaction .ended with store := state.store.updateKey keyId set } := by
  have restricts := fun key => bound_restricted (bound key)
  exact sound.write early sound.ids (sound.keyed.updateWhere same_id)
    (lawful_restricting sound.lawful restricts) (ended _)
    (fun _ _ userId _ _ => quiet_restricting same_id restricts userId)
    (keepsTenants_update same_id fun key _ => bound key)

theorem assign (sound : Sound state) (early : transaction < state.started)
    {newUserId : Option Nat}
    (decided : State.scoping scope resolver = some bind)
    (free : ∀ key ∈ state.store.keys.rows, key.id = keyId → key.userId ≠ newUserId →
      newUserId.any (state.userLocked transaction) = false)
    (exempt : scope = false → newUserId.all state.store.isAdmin = true ∨
      ∀ key ∈ state.store.keys.rows, key.id = keyId → key.unrestricted = false) :
    Sound { state.setPhase transaction .ended with
      store := state.store.updateKey keyId fun key => bind { key with userId := newUserId } } := by
  rcases scoping_cases decided with ⟨rfl, rfl⟩ | ⟨-, tenantId, rfl⟩
  · refine sound.write early sound.ids (sound.keyed.updateWhere fun _ => rfl) ?_ (ended _) ?_
      (keepsTenants_update (fun _ => rfl) fun _ bound => bound)
    · refine lawful_update sound.lawful ?_
      intro key keyIn same unrestricted user userIn owned
      rcases exempt rfl with admin | restricted
      · have owner : newUserId = some user.id := owned
        rw [owner, Option.all_some] at admin
        exact isAdmin_spec sound.ids admin user userIn rfl
      · have was : key.unrestricted = true := unrestricted
        rw [restricted key keyIn same] at was
        cases was
    · intro other apart covered matched covers
      refine quiet_update (fun _ => rfl) ?_
      intro key keyIn same unrestricted owned
      have owner : newUserId = some covered := owned
      refine ⟨unrestricted, ?_⟩
      by_contra changed
      have clear := free key keyIn same (owner ▸ changed)
      rw [owner, Option.any_some, userLocked_of_covers sound apart covers] at clear
      cases clear
  · exact sound.binds early keyId (fun _ => rfl) (fun _ => rfl)

theorem reactivate (sound : Sound state) (early : transaction < state.started)
    (decided : State.scoping scope resolver = some bind)
    (exempt : scope = false → ∀ key ∈ state.store.keys.rows, key.id = keyId →
      key.tenantId.isSome = true ∨ key.userId.all (fun userId =>
        state.store.isAdmin userId && !state.underway transaction userId) = true) :
    Sound { state.setPhase transaction .ended with
      store := state.store.updateKey keyId fun key => bind { key with active := true } } := by
  rcases scoping_cases decided with ⟨rfl, rfl⟩ | ⟨-, tenantId, rfl⟩
  · refine sound.write early sound.ids (sound.keyed.updateWhere fun _ => rfl) ?_ (ended _) ?_
      (keepsTenants_update (fun _ => rfl) fun _ bound => bound)
    · refine lawful_update sound.lawful ?_
      intro key keyIn same unrestricted user userIn owned
      obtain ⟨-, noTenant⟩ := (unrestricted_iff _).mp unrestricted
      have none : key.tenantId = none := noTenant
      have owner : key.userId = some user.id := owned
      rcases exempt rfl key keyIn same with bound | admin
      · rw [none] at bound
        cases bound
      · simp only [owner, Option.all_some, Bool.and_eq_true] at admin
        exact isAdmin_spec sound.ids admin.1 user userIn rfl
    · intro other apart covered matched covers
      refine quiet_update (fun _ => rfl) ?_
      intro key keyIn same unrestricted owned
      obtain ⟨-, noTenant⟩ := (unrestricted_iff _).mp unrestricted
      have none : key.tenantId = none := noTenant
      have owner : key.userId = some covered := owned
      rcases exempt rfl key keyIn same with bound | admin
      · rw [none] at bound
        cases bound
      · simp [owner, underway_of_covers sound apart covers] at admin
  · exact sound.binds early keyId (fun _ => rfl) (fun _ => rfl)

theorem mem_setAdmin {users : Store} {isAdmin : Bool} {user : WebUser} :
    user ∈ (users.setAdmin userId isAdmin).users ↔
      ∃ old ∈ users.users, (if old.id = userId then { old with isAdmin } else old) = user := by
  simp [Store.setAdmin]

theorem setAdmin_ids (users : Store) (userId : Nat) (isAdmin : Bool) :
    (users.setAdmin userId isAdmin).users.map (·.id) = users.users.map (·.id) := by
  simp only [Store.setAdmin, List.map_map]
  apply List.map_congr_left
  intro user _
  simp only [Function.comp_apply]
  split <;> rfl

theorem bindKeys_users (matched : List Nat) (tenantId : Option Nat) :
    (store.bindKeys matched tenantId).users = store.users := by
  cases tenantId with
  | none | some tenantId => rfl

theorem bindKeys_keyed (keyed : Table.Keyed Key.id store.keys) (matched : List Nat)
    (tenantId : Option Nat) : Table.Keyed Key.id (store.bindKeys matched tenantId).keys := by
  cases tenantId with
  | none => exact keyed
  | some tenantId => exact keyed.updateWhere fun _ => rfl

theorem bindKeys_unrestricted {matched : List Nat} {tenantId : Option Nat} {key : Key}
    (keyIn : key ∈ (store.bindKeys matched tenantId).keys.rows)
    (unrestricted : key.unrestricted = true) :
    key ∈ store.keys.rows ∧ (tenantId.isSome = true → key.id ∉ matched) := by
  cases tenantId with
  | none => exact ⟨keyIn, fun some => by cases some⟩
  | some tenantId =>
      obtain ⟨old, oldIn, rfl⟩ := Table.mem_updateWhere.mp keyIn
      by_cases hit : matched.contains old.id = true
      · rw [if_pos hit] at unrestricted
        obtain ⟨-, noTenant⟩ := (unrestricted_iff _).mp unrestricted
        cases noTenant
      · rw [if_neg hit]
        exact ⟨oldIn, fun _ member => hit (by simpa using member)⟩

theorem bindKeys_keeps (matched : List Nat) (tenantId : Option Nat) :
    KeepsTenants store (store.bindKeys matched tenantId) := by
  intro old oldIn bound
  cases tenantId with
  | none => exact ⟨old, oldIn, rfl, bound⟩
  | some tenantId =>
      refine ⟨_, Table.mem_updateWhere.mpr ⟨old, oldIn, rfl⟩, ?_⟩
      split
      · exact ⟨rfl, rfl⟩
      · exact ⟨rfl, bound⟩

theorem demote (sound : Sound state) (early : transaction < state.started)
    {tenantId : Option Nat} {matched : List Nat}
    (phase : state.phase transaction = .demoted userId tenantId matched) :
    Sound { state.setPhase transaction .ended with
      store := (state.store.setAdmin userId false).bindKeys matched tenantId } := by
  have covers := (sound.phases transaction).covers
  rw [phase] at covers
  have keyed : Table.Keyed Key.id (state.store.setAdmin userId false).keys := sound.keyed
  have keeps : KeepsTenants (state.store.setAdmin userId false)
      ((state.store.setAdmin userId false).bindKeys matched tenantId) :=
    bindKeys_keeps matched tenantId
  refine sound.write early ?_ (bindKeys_keyed keyed matched tenantId) ?_ (ended _) ?_ keeps
  · rw [bindKeys_users, setAdmin_ids]
    exact sound.ids
  · intro key keyIn unrestricted user userIn owned
    obtain ⟨old, spared⟩ := bindKeys_unrestricted keyIn unrestricted
    rw [bindKeys_users] at userIn
    obtain ⟨before, beforeIn, rfl⟩ := mem_setAdmin.mp userIn
    by_cases target : before.id = userId
    · rw [if_pos target] at owned
      have mine : key.userId = some userId := owned.trans (congrArg some target)
      cases tenantId with
      | none => exact absurd (covers userId [] rfl key old unrestricted mine) List.not_mem_nil
      | some tenantId =>
          exact absurd (covers userId matched rfl key old unrestricted mine) (spared rfl)
    · rw [if_neg target] at owned ⊢
      exact sound.lawful key old unrestricted before beforeIn owned
  · intro other _ covered _ _ key keyIn unrestricted owned
    exact ⟨key, (bindKeys_unrestricted keyIn unrestricted).1, rfl, unrestricted, owned⟩

theorem tables (sound : Sound state) (ids : (store.users.map (·.id)).Nodup)
    (keyed : Table.Keyed Key.id store.keys) (lawful : Lawful store)
    (quiet : ∀ userId, Quiet state.store store userId) (tenants : KeepsTenants state.store store) :
    Sound { state with store } :=
  ⟨ids, keyed, lawful, sound.begun,
    fun transaction => (sound.phases transaction).mono (fun userId _ _ => quiet userId) tenants⟩

theorem deactivate (sound : Sound state) (keyId : Nat) :
    Sound { state with
      store := state.store.updateKey keyId fun key => { key with active := false } } := by
  have restricts : ∀ key : Key, ({ key with active := false } : Key).unrestricted = false :=
    fun _ => rfl
  refine sound.tables sound.ids (sound.keyed.updateWhere fun _ => rfl) ?_ ?_
    (keepsTenants_update (fun _ => rfl) fun _ bound => bound)
  · exact lawful_restricting sound.lawful restricts
  · exact quiet_restricting (fun _ => rfl) restricts

theorem promote (sound : Sound state) (userId : Nat) :
    Sound { state with store := state.store.setAdmin userId true } := by
  refine sound.tables ?_ sound.keyed ?_ ?_ (fun key keyIn bound => ⟨key, keyIn, rfl, bound⟩)
  · rw [setAdmin_ids]
    exact sound.ids
  · intro key keyIn unrestricted user userIn owned
    obtain ⟨before, beforeIn, rfl⟩ := mem_setAdmin.mp userIn
    by_cases target : before.id = userId
    · rw [if_pos target]
    · rw [if_neg target] at owned ⊢
      exact sound.lawful key keyIn unrestricted before beforeIn owned
  · intro covered key keyIn unrestricted owned
    exact ⟨key, keyIn, rfl, unrestricted, owned⟩

theorem mem_unrestrictedOf {key : Key} (keyIn : key ∈ store.keys.rows)
    (unrestricted : key.unrestricted = true) (owned : key.userId = some userId) :
    key.id ∈ store.unrestrictedOf userId :=
  List.mem_map_of_mem (List.mem_filter.mpr ⟨keyIn, by simp [unrestricted, owned]⟩)

theorem same_covers {phase : Phase} (sound : phase.Sound store) (covers : next.covers = phase.covers)
    (saw : next.sawBound = none) : next.Sound store := by
  refine ⟨?_, ?_⟩
  · rw [covers]
    exact sound.covers
  · intro keyId some
    rw [saw] at some
    cases some

theorem begins (sound : Sound state) (early : transaction < state.started) {op : Op}
    (advanced : state.advance transaction resolver (.begun op) = some (store, next)) :
    Sound { state.setPhase transaction next with store } := by
  cases op with
  | create userId =>
      cases advanced
      exact sound.read early (.plain rfl rfl)
  | assign keyId newUserId =>
      dsimp only [State.advance] at advanced
      split at advanced
      · cases advanced
        exact sound.read early (.plain rfl rfl)
      · cases advanced
        exact sound.read early (ended _)
  | reactivate keyId =>
      dsimp only [State.advance] at advanced
      split at advanced
      · cases advanced
        exact sound.read early (ended _)
      · rename_i key lookup
        cases advanced
        obtain ⟨keyIn, sameId⟩ := key?_some lookup
        refine sound.read early ⟨fun _ _ covers => (by cases covers), ?_⟩
        intro seen saw
        cases tenant : key.tenantId with
        | none => simp [Phase.sawBound, tenant] at saw
        | some tenantId =>
            simp only [Phase.sawBound, tenant] at saw
            cases saw
            exact ⟨key, keyIn, sameId, by rw [tenant]; rfl⟩
  | demote userId =>
      dsimp only [State.advance] at advanced
      split at advanced
      · cases advanced
      · cases advanced
        exact sound.read early (.plain rfl rfl)

theorem mints (sound : Sound state) (early : transaction < state.started) {userId : Option Nat}
    {isAdmin : Bool}
    (still : isAdmin = true → userId.all state.store.isAdmin = true)
    (advanced : state.advance transaction resolver (.creating userId isAdmin) =
      some (store, next)) :
    Sound { state.setPhase transaction next with store } := by
  dsimp only [State.advance] at advanced
  split at advanced
  · cases advanced
  · rename_i free
    split at advanced
    · cases advanced
      exact sound.read early (ended _)
    · rename_i tenantId minted
      split at advanced
      · cases advanced
        refine sound.insert early (by simpa using free) ?_
        rintro rfl
        cases isAdmin with
        | true => exact still rfl
        | false => simp [State.mintTenant] at minted
      · cases advanced
        exact sound.read early (ended _)

theorem assigns (sound : Sound state) (early : transaction < state.started)
    {newUserId : Option Nat} {unrestricted scope : Bool}
    (still : scope = false → newUserId.all state.store.isAdmin = true ∨
      ∀ key ∈ state.store.keys.rows, key.id = keyId → key.unrestricted = false)
    (advanced : state.advance transaction resolver
      (.assignReady keyId newUserId unrestricted scope) = some (store, next)) :
    Sound { state.setPhase transaction next with store } := by
  dsimp only [State.advance] at advanced
  split at advanced
  · cases advanced
  · rename_i clear
    split at advanced
    · cases advanced
      exact sound.read early (ended _)
    · rename_i bind decided
      cases advanced
      refine sound.assign early decided ?_ still
      intro key keyIn same changed
      subst same
      have waits : ¬ (state.keyLocked transaction key.id = true ∨
          newUserId.any (state.userLocked transaction) = true) := by
        simpa [show state.store.key? key.id = some key from sound.keyed.find? keyIn,
          changed] using clear
      exact Bool.not_eq_true _ ▸ fun locked => waits (Or.inr locked)

theorem reactivates (sound : Sound state) (early : transaction < state.started)
    {owner : Option Nat} {unbound scope : Bool}
    (still : scope = false → ∀ key ∈ state.store.keys.rows, key.id = keyId →
      key.tenantId.isSome = true ∨ key.userId.all (fun userId =>
        state.store.isAdmin userId && !state.underway transaction userId) = true)
    (advanced : state.advance transaction resolver (.reactivateReady keyId owner unbound scope) =
      some (store, next)) :
    Sound { state.setPhase transaction next with store } := by
  dsimp only [State.advance] at advanced
  split at advanced
  · cases advanced
  · split at advanced
    · cases advanced
      exact sound.read early (ended _)
    · rename_i bind decided
      cases advanced
      exact sound.reactivate early decided still

theorem demotes (sound : Sound state) (early : transaction < state.started)
    {phase : Phase} (stands : state.phase transaction = phase)
    (holds : phase.holds = some userId)
    (advanced : state.advance transaction resolver phase = some (store, next)) :
    Sound { state.setPhase transaction next with store } := by
  have before := sound.phases transaction
  rw [stands] at before
  cases phase with
  | locked userId =>
      dsimp only [State.advance] at advanced
      split at advanced
      · cases advanced
        exact sound.read early (ended _)
      · cases advanced
        exact sound.read early (.plain rfl rfl)
  | counted userId =>
      cases advanced
      refine sound.read early ⟨?_, fun _ saw => (by cases saw)⟩
      intro covered matched covers key keyIn unrestricted owned
      cases listed : (state.store.unrestrictedOf userId).isEmpty with
      | false => simp [Phase.covers, listed] at covers
      | true =>
          simp only [Phase.covers, listed, Bool.not_true, Option.some.injEq,
            Prod.mk.injEq] at covers
          obtain ⟨rfl, rfl⟩ := covers
          rw [← List.isEmpty_iff.mp listed]
          exact mem_unrestrictedOf keyIn unrestricted owned
  | looked userId hasUnrestricted =>
      dsimp only [State.advance] at advanced
      split at advanced
      · split at advanced
        · cases advanced
          exact sound.read early (ended _)
        · cases advanced
          exact sound.read early (.plain rfl rfl)
      · rename_i none_there
        cases advanced
        obtain rfl : hasUnrestricted = false := by simpa using none_there
        exact sound.read early (same_covers before rfl rfl)
  | resolved userId tenantId =>
      dsimp only [State.advance] at advanced
      split at advanced
      · cases advanced
        cases tenantId with
        | none => exact sound.read early (same_covers before rfl rfl)
        | some tenantId => exact sound.read early (.plain rfl rfl)
      · cases advanced
        exact sound.read early (ended _)
  | flagged userId tenantId =>
      cases advanced
      cases tenantId with
      | none => exact sound.read early (same_covers before rfl rfl)
      | some tenantId =>
          refine sound.read early ⟨?_, fun _ saw => (by cases saw)⟩
          intro covered matched covers key keyIn unrestricted owned
          cases covers
          exact mem_unrestrictedOf keyIn unrestricted owned
  | demoted userId tenantId matched =>
      cases advanced
      exact sound.demote early stands
  | _ => cases holds

theorem act (sound : Sound state)
    (exempt : stillExempt state (.act transaction resolver) = true) :
    Sound (step state (.act transaction resolver)) := by
  simp only [step]
  cases advanced : state.advance transaction resolver (state.phase transaction) with
  | none => exact sound
  | some result =>
      obtain ⟨store, next⟩ := result
      have early : transaction < state.started := by
        by_contra late
        rw [sound.begun transaction (Nat.le_of_not_lt late)] at advanced
        cases advanced
      have before := sound.phases transaction
      have found : ∀ {key : Key}, key ∈ state.store.keys.rows →
          state.store.key? key.id = some key := fun keyIn => sound.keyed.find? keyIn
      simp only
      cases phase : state.phase transaction with
      | idle | ended => rw [phase] at advanced; cases advanced
      | begun op => exact sound.begins early (phase ▸ advanced)
      | creating userId isAdmin =>
          refine sound.mints early ?_ (phase ▸ advanced)
          rintro rfl
          simpa [stillExempt, phase] using exempt
      | assigning keyId newUserId =>
          rw [phase] at advanced
          dsimp only [State.advance] at advanced
          split at advanced
          · cases advanced
            exact sound.read early (ended _)
          · cases advanced
            exact sound.read early (.plain rfl rfl)
      | assignSeen keyId newUserId unrestricted =>
          rw [phase] at advanced
          cases advanced
          exact sound.read early (.plain rfl rfl)
      | assignReady keyId newUserId unrestricted scope =>
          refine sound.assigns early ?_ (phase ▸ advanced)
          rintro rfl
          simp only [stillExempt, phase] at exempt
          split at exempt
          · exact Or.inl exempt
          · refine Or.inr ?_
            rintro key keyIn rfl
            simpa [found keyIn] using exempt
      | reactivating keyId owner unbound =>
          rw [phase] at advanced before
          cases advanced
          refine sound.read early ⟨fun _ _ covers => (by cases covers), ?_⟩
          intro seen saw
          refine before.bound seen ?_
          cases unbound with
          | true => cases saw
          | false => exact saw
      | reactivateReady keyId owner unbound scope =>
          refine sound.reactivates early ?_ (phase ▸ advanced)
          rintro rfl key keyIn rfl
          cases unbound with
          | false =>
              rw [phase] at before
              obtain ⟨seen, seenIn, same, bound⟩ := before.bound key.id rfl
              rw [sound.keyed.eq_of_id seenIn keyIn same] at bound
              exact Or.inl bound
          | true =>
              simp only [stillExempt, phase, found keyIn, Option.all_some, Bool.and_eq_true,
                beq_iff_eq] at exempt
              rw [exempt.1]
              exact Or.inr exempt.2
      | locked userId | counted userId | looked userId hasUnrestricted
      | resolved userId tenantId | flagged userId tenantId | demoted userId tenantId matched => exact sound.demotes early phase rfl (phase ▸ advanced)

theorem fail (sound : Sound state) (transaction : Nat) :
    Sound (state.setPhase transaction (failed (state.phase transaction))) := by
  by_cases early : transaction < state.started
  · refine sound.read early ?_
    cases state.phase transaction with
    | begun op => cases op <;> exact .plain rfl rfl
    | _ => exact .plain rfl rfl
  · have idle := sound.begun transaction (Nat.le_of_not_lt early)
    have same : state.setPhase transaction (failed (state.phase transaction)) = state := by
      rw [idle, failed, ← idle, State.setPhase, Function.update_eq_self]
    rw [same]
    exact sound

theorem begin (sound : Sound state) (op : Op) : Sound (step state (.begin op)) := by
  refine ⟨sound.ids, sound.keyed, sound.lawful, ?_, ?_⟩
  · intro other late
    have later : state.started < other := late
    have apart : other ≠ state.started := Nat.ne_of_gt later
    simp only [step, Function.update_of_ne apart]
    exact sound.begun other (Nat.le_of_lt later)
  · exact (Function.forall_update_iff state.phase fun _ phase => phase.Sound state.store).mpr
      ⟨.plain rfl rfl, fun other _ => sound.phases other⟩

theorem step (sound : Sound state) {event : Event} (exempt : stillExempt state event = true) :
    Sound (step state event) := by
  cases event with
  | begin op => exact sound.begin op
  | act transaction resolver => exact sound.act exempt
  | fail transaction => exact sound.fail transaction
  | deactivate keyId =>
      simp only [Unrestricted.step]
      split
      · exact sound
      · exact sound.deactivate keyId
  | promote userId =>
      simp only [Unrestricted.step]
      split
      · exact sound
      · exact sound.promote userId

end Sound

/-- From tables where it holds, no active key without a tenant is ever owned by a user who is no
admin, in a run whose writes without a tenant are still exempt. -/
theorem stays_restricted (store : Store) (ids : (store.users.map (·.id)).Nodup)
    (keyed : Table.Keyed Key.id store.keys) (lawful : Lawful store) (events : List Event)
    (steps : AllSteps step (fun state event => stillExempt state event = true) (initial store)
      events) :
    Lawful (run step (initial store) events).store := by
  have start : Sound (initial store) :=
    ⟨ids, keyed, lawful, fun _ _ => rfl, fun _ => .plain rfl rfl⟩
  have reached := run_preserves_guarded step _ Sound (fun _ _ exempt sound => sound.step exempt)
    events (initial store) steps start
  exact reached.lawful

instance (store : Store) : Decidable (Lawful store) := by
  unfold Lawful
  infer_instance

def member (id : Nat) (username : String) (isAdmin : Bool) : WebUser :=
  { id, username, passwordHash := none, email := none, isAdmin, isActive := true
    mfaEnabled := false }

def office (key : Key) : Store :=
  { users := [member 1 "anna" true, member 2 "binh" true, member 3 "chi" false]
    keys := ⟨[key], 1⟩ }

/-- All statements of an operation in a row. -/
def acts (transaction count : Nat) : List Event :=
  List.replicate count (.act transaction (some 5))

def demoteThenMint : List Event :=
  .begin (.demote 1) :: acts 0 7 ++ .begin (.create (some 1)) :: acts 1 2

theorem bound_after_demotion :
    (run step (initial (office ⟨0, some 1, none, true⟩)) demoteThenMint).store.keys.rows =
        [⟨0, some 1, some 5, true⟩, ⟨1, some 1, some 5, true⟩] ∧
      Lawful (run step (initial (office ⟨0, some 1, none, true⟩)) demoteThenMint).store :=
  ⟨by decide +kernel,
    stays_restricted (office ⟨0, some 1, none, true⟩) (by decide) ⟨by decide, by decide⟩
      (by decide) demoteThenMint (by decide +kernel)⟩

/-- Anna's mint reads her flag, she is demoted, the key is inserted. -/
def mintAcross : List Event :=
  .begin (.create (some 1)) :: acts 0 1 ++ .begin (.demote 1) :: acts 1 7 ++ acts 0 1

/-- Her inactive key comes back after the demotion has looked. -/
def reactivateAcross : List Event :=
  .begin (.demote 1) :: acts 0 3 ++ .begin (.reactivate 0) :: acts 1 3 ++ acts 0 4

/-- A key nobody owns comes back while it is given to a plain user. -/
def assignAcross : List Event :=
  .begin (.assign 0 (some 3)) :: acts 0 3 ++ .begin (.reactivate 0) :: acts 1 3 ++ acts 0 1

theorem windows_open :
    ¬ Lawful (run step (initial (office ⟨0, none, some 5, true⟩)) mintAcross).store ∧
      ¬ Lawful (run step (initial (office ⟨0, some 1, none, false⟩)) reactivateAcross).store ∧
      ¬ Lawful (run step (initial (office ⟨0, none, none, false⟩)) assignAcross).store :=
  ⟨by decide +kernel, by decide +kernel, by decide +kernel⟩

end OdooSemantic.WebUi.Unrestricted
