import OdooSemantic.Billing.Effects

/-!
# Claims, one commit at a time

Workers serve grants and logins.  A step of a worker is one query or one commit, so that any
other worker may act between two of them and a worker may die there.  The provisioning of a
subscription is under an advisory lock of that subscription, which goes with its session.
-/

set_option autoImplicit false

namespace OdooSemantic.Billing.Claims

open Billing.Activation
open Lib.Run

/-- Where a worker is in `provision_or_upgrade` and the claim before it. -/
inductive Stage where
  | claiming
  | locking
  | rereading
  | choosing (planId seats : Nat)
  | comparing (keyId planId seats : Nat)
  | minting (planId seats : Nat)
  | planning (keyId planId seats : Nat)
  | seating (keyId seats : Nat)
  | joining (keyId tenantId : Nat)
  | tenantLinking (keyId tenantId : Nat)
  | linking (keyId : Nat)
  | asserting
  | unlocking
  deriving DecidableEq

/-- A grant has its row and looks its user up, reads the row; a login has its first scan, has
what is left of the union of both; either works on one subscription. -/
inductive Phase where
  | idle
  | looking (subId : Nat) (grant : EntitlementGrant)
  | reading (subId userId : Nat)
  | scanning (userId : Nat) (unclaimed : List Nat)
  | sweeping (userId : Nat) (todo : List (Nat × Bool))
  | working (userId subId : Nat) (todo : List (Nat × Bool)) (stage : Stage)
  deriving DecidableEq

/-- `locks` are the advisory locks by subscription, held by a worker. -/
structure State where
  store : Store
  locks : Nat → Option Nat
  phases : Nat → Phase

namespace State

def goto (state : State) (worker : Nat) (phase : Phase) : State :=
  { state with phases := Function.update state.phases worker phase }

def commit (state : State) (store : Store) : State := { state with store }

/-- `pg_advisory_unlock`, or the end of the session. -/
def release (state : State) (worker : Nat) : State :=
  { state with
    locks := fun subId =>
      if state.locks subId = some worker then none else state.locks subId }

/-- The `finally` of the lock, and the next subscription of the sweep. -/
def leave (state : State) (worker userId : Nat) (todo : List (Nat × Bool)) : State :=
  (state.release worker).goto worker (.sweeping userId todo)

end State

section Step
variable (settings : Settings)

def findUnclaimedActiveByEmail (store : Store) (email : String) : List Nat :=
  (store.subsWhere fun sub =>
    sub.buyerEmail.any (fun buyer => settings.lower buyer == settings.lower email) &&
      sub.status == .active && sub.claimedUserId.isNone).reverse

def findClaimedUnprovisionedActive (store : Store) (userId : Nat) : List Nat :=
  (store.subsWhere fun sub =>
    sub.claimedUserId == some userId && sub.status == .active && sub.apiKeyId.isNone).reverse

def union (unclaimed halfClaimed : List Nat) : List (Nat × Bool) :=
  unclaimed.map (·, false) ++
    (halfClaimed.filter fun subId => !unclaimed.contains subId).map (·, true)

def claimStage (mine : Bool) : Stage := if mine then .locking else .claiming

def work (state : State) (worker userId subId : Nat) (todo : List (Nat × Bool)) :
    Stage → State
  | .claiming =>
      let (store, won) := state.store.claimUnclaimedForUser subId userId
      if won then (state.commit store).goto worker (.working userId subId todo .locking)
      else state.goto worker (.sweeping userId todo)
  | .locking =>
      if state.locks subId = none then
        { state with locks := Function.update state.locks subId (some worker) }.goto worker
          (.working userId subId todo .rereading)
      else state
  | .rereading =>
      match state.store.subs subId with
      | none => state.leave worker userId todo
      | some sub =>
          if sub.apiKeyId.isSome then state.leave worker userId todo
          else state.goto worker (.working userId subId todo (.choosing sub.planId sub.seats))
  | .choosing planId seats =>
      match state.store.firstActiveKey userId with
      | some keyId =>
          state.goto worker (.working userId subId todo (.comparing keyId planId seats))
      | none => state.goto worker (.working userId subId todo (.minting planId seats))
  | .comparing keyId planId seats =>
      if (state.store.keys keyId).any (keepsPlan settings · planId) then
        state.goto worker (.working userId subId todo (.seating keyId seats))
      else state.goto worker (.working userId subId todo (.planning keyId planId seats))
  | .minting planId seats =>
      let (store, keyId) := state.store.createApiKey settings userId subId
      (state.commit store).goto worker
        (.working userId subId todo (.planning keyId planId seats))
  | .planning keyId planId seats =>
      match state.store.setApiKeyPlan keyId planId false with
      | some store =>
          (state.commit store).goto worker (.working userId subId todo (.seating keyId seats))
      | none => state.leave worker userId todo
  | .seating keyId seats =>
      if 1 < seats then
        let (store, tenantId) := state.store.ensureTenant subId
        (state.commit store).goto worker
          (.working userId subId todo (.joining keyId tenantId))
      else state.goto worker (.working userId subId todo (.linking keyId))
  | .joining keyId tenantId =>
      (state.commit (state.store.addTenantAdmin userId tenantId)).goto worker
        (.working userId subId todo (.tenantLinking keyId tenantId))
  | .tenantLinking keyId tenantId =>
      (state.commit (state.store.updateSub subId fun sub =>
        { sub with tenantId := some tenantId })).goto worker
          (.working userId subId todo (.linking keyId))
  | .linking keyId =>
      (state.commit (state.store.updateSub subId fun sub =>
        { sub with apiKeyId := some keyId })).goto worker
          (.working userId subId todo .asserting)
  | .asserting =>
      (state.commit (state.store.updateSub subId fun sub =>
        { sub with claimedUserId := some userId })).goto worker
          (.working userId subId todo .unlocking)
  | .unlocking => state.leave worker userId todo

/-- The next query or commit of a worker; `verifiedUser` is what a look-up of a user finds. -/
def proceed (state : State) (worker : Nat) (verifiedUser : Option Nat) : State :=
  match state.phases worker with
  | .idle => state
  | .looking subId grant =>
      match buyer grant verifiedUser with
      | none => state.goto worker .idle
      | some userId => state.goto worker (.reading subId userId)
  | .reading subId userId =>
      state.goto worker (.working userId subId []
        (claimStage (alreadyMine state.store subId userId)))
  | .scanning userId unclaimed =>
      state.goto worker (.sweeping userId
        (union unclaimed (findClaimedUnprovisionedActive state.store userId)))
  | .sweeping userId todo =>
      match todo with
      | [] => state.goto worker .idle
      | (subId, mine) :: rest =>
          state.goto worker (.working userId subId rest (claimStage mine))
  | .working userId subId todo stage => work settings state worker userId subId todo stage

def raised (state : State) (worker : Nat) : State :=
  match state.phases worker with
  | .working userId _ todo _ => state.leave worker userId todo
  | _ => state.goto worker .idle

/-- `_mint_default_api_key` of a user who signs up. -/
def mintDefaultApiKey (store : Store) (userId : Nat) : Store :=
  { store.setKey store.nextKey
      { userId := some userId
        planId := settings.defaultPlanId
        active := true
        rateLimitOverride := none
        quotaOverride := none
        mintedFor := none } with
    nextKey := store.nextKey + 1 }

inductive Event where
  | signUp (userId : Nat)
  | grant (worker : Nat) (grant : EntitlementGrant) (lastEventAt : Option Nat)
  | login (worker userId : Nat) (email : String)
  | proceed (worker : Nat) (verifiedUser : Option Nat)
  | raise (worker : Nat)
  | crash (worker : Nat)

def step (state : State) : Event → State
  | .signUp userId => state.commit (mintDefaultApiKey settings state.store userId)
  | .grant worker grant lastEventAt =>
      if state.phases worker = .idle ∧
          enforceTeamMinSeats settings grant.planId grant.seats = none ∧
          proposedRow grant = none then
        let (store, subId) := upsertByExternalRef state.store grant lastEventAt
        (state.commit store).goto worker (.looking subId grant)
      else state
  | .login worker userId email =>
      if state.phases worker = .idle then
        state.goto worker (.scanning userId
          (findUnclaimedActiveByEmail settings state.store email))
      else state
  | .proceed worker verifiedUser => proceed settings state worker verifiedUser
  | .raise worker => raised state worker
  | .crash worker => (state.release worker).goto worker .idle

end Step

end OdooSemantic.Billing.Claims
