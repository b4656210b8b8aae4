import OdooSemantic.Billing.Entitlements

/-!
# Entitlements, keys and the subscriptions they pay for

The writers of entitlement state: a grant creates or refreshes a subscription and provisions a
key of its buyer, an update and a revoke find a subscription by its reference alone and move
the key it is linked to, and a login claims what was bought before the account existed.
-/

set_option autoImplicit false

namespace OdooSemantic.Billing.Activation

open Billing.Entitlements (Status Raised current greatest)

structure Plan where
  id : Nat
  slug : String
  priceCents : Nat

/-- The plans, the settings the handlers read, and `lower` of the database. -/
structure Settings where
  plans : List Plan
  unlimitedSentinelSlug : String
  freePlanSlug : String
  teamPlanSlug : String
  teamMinSeats : Nat
  defaultPlanId : Nat
  lower : String → String

section Plans
variable (settings : Settings)

def unlimitedRank : Nat := 1 <<< 62

def planRank (slug : Option String) (priceCents : Nat) : Nat :=
  if slug = some settings.unlimitedSentinelSlug then unlimitedRank else priceCents

def planOf (planId : Nat) : Option Plan := settings.plans.find? (·.id == planId)

def planMeta (planId : Nat) : Option String × Nat :=
  match planOf settings planId with
  | some plan => (some plan.slug, plan.priceCents)
  | none => (none, 0)

def rankOf (planId : Nat) : Nat :=
  planRank settings (planMeta settings planId).1 (planMeta settings planId).2

def planOutranks (currentPlanId newPlanId : Nat) : Bool :=
  currentPlanId != newPlanId && decide (rankOf settings newPlanId < rankOf settings currentPlanId)

def freePlanId : Option Nat :=
  (settings.plans.find? (·.slug == settings.freePlanSlug)).map Plan.id

def isPaidPlan (planId : Nat) : Bool :=
  match freePlanId settings with
  | some free => planId != free
  | none => true

end Plans

/-! ## The store -/

/-- `mintedFor` is the subscription in the label `sub-<id> (…)` of a key minted for one. -/
structure ApiKey where
  userId : Option Nat
  planId : Nat
  active : Bool
  rateLimitOverride : Option Nat
  quotaOverride : Option Nat
  mintedFor : Option Nat
  deriving DecidableEq

inductive Source where
  | polar
  | erp
  | admin
  | promo
  deriving DecidableEq

structure Snapshot where
  amountCents : Option Nat
  currency : Option String
  billingInterval : Option String
  currentPeriodStart : Option Nat
  currentPeriodEnd : Option Nat
  trialEndsAt : Option Nat
  deriving DecidableEq

structure Subscription where
  planId : Nat
  source : Source
  externalRef : String
  status : Status
  seats : Nat
  buyerEmail : Option String
  snapshot : Snapshot
  claimedUserId : Option Nat
  apiKeyId : Option Nat
  tenantId : Option Nat
  lastEventAt : Option Nat
  cancelAtPeriodEnd : Bool
  cancelledAt : Option Nat

/-- `api_keys`, `subscriptions` and the tenants `sub-<id>` by id; ids are given out in order. -/
structure Store where
  keys : Nat → Option ApiKey
  nextKey : Nat
  subs : Nat → Option Subscription
  nextSub : Nat
  tenants : Nat → Option Nat
  nextTenant : Nat
  tenantAdmins : List (Nat × Nat)

/-- A handler that raised keeps what it had committed. -/
structure Outcome where
  store : Store
  raised : Option Raised

/-- Active or trialing. -/
def entitled (status : Status) : Bool := status == .active || status == .trialing

/-- The row a query without `ORDER BY` returns first. -/
structure RowChoice where
  choose : List Nat → Option Nat
  mem : ∀ rows row, choose rows = some row → row ∈ rows
  total : ∀ rows, rows ≠ [] → choose rows ≠ none

namespace Store

def setKey (store : Store) (keyId : Nat) (key : ApiKey) : Store :=
  { store with keys := Function.update store.keys keyId (some key) }

def setSub (store : Store) (subId : Nat) (sub : Subscription) : Store :=
  { store with subs := Function.update store.subs subId (some sub) }

/-- `UPDATE subscriptions SET … WHERE id = …`. -/
def updateSub (store : Store) (subId : Nat) (set : Subscription → Subscription) : Store :=
  match store.subs subId with
  | some sub => store.setSub subId (set sub)
  | none => store

def subsWhere (store : Store) (holds : Subscription → Bool) : List Nat :=
  (List.range store.nextSub).filter fun subId => (store.subs subId).any holds

/-- `list_api_keys` and the first active key of it. -/
def firstActiveKey (store : Store) (userId : Nat) : Option Nat :=
  (List.range store.nextKey).find? fun keyId =>
    (store.keys keyId).any fun key => key.active && key.userId == some userId

/-- `get_by_external_ref`: the reference alone. -/
def getByExternalRef (store : Store) (choice : RowChoice) (externalRef : String) : Option Nat :=
  choice.choose (store.subsWhere fun sub => sub.externalRef == externalRef)

def conflicting (store : Store) (source : Source) (externalRef : String) : Option Nat :=
  (store.subsWhere fun sub => sub.source == source && sub.externalRef == externalRef).head?

/-- `set_api_key_plan_and_overrides`; `none` is the `KeyError` of a missing key. -/
def setApiKeyPlan (store : Store) (keyId planId : Nat) (clearOverrides : Bool) : Option Store :=
  (store.keys keyId).map fun key =>
    store.setKey keyId
      { key with
        planId
        rateLimitOverride := if clearOverrides then none else key.rateLimitOverride
        quotaOverride := if clearOverrides then none else key.quotaOverride }

def deactivateApiKey (store : Store) (keyId : Nat) : Store :=
  match store.keys keyId with
  | some key => store.setKey keyId { key with active := false }
  | none => store

/-- `create_api_key` under the label of a subscription; the plan is the column's default. -/
def createApiKey (settings : Settings) (store : Store) (userId subId : Nat) : Store × Nat :=
  ({ store.setKey store.nextKey
      { userId := some userId
        planId := settings.defaultPlanId
        active := true
        rateLimitOverride := none
        quotaOverride := none
        mintedFor := some subId } with
      nextKey := store.nextKey + 1 }, store.nextKey)

def ensureTenant (store : Store) (subId : Nat) : Store × Nat :=
  match store.tenants subId with
  | some tenantId => (store, tenantId)
  | none =>
      ({ store with
          tenants := Function.update store.tenants subId (some store.nextTenant)
          nextTenant := store.nextTenant + 1 }, store.nextTenant)

/-- `add_tenant_member(user, tenant, 'tenant_admin')`. -/
def addTenantAdmin (store : Store) (userId tenantId : Nat) : Store :=
  { store with tenantAdmins := (userId, tenantId) :: store.tenantAdmins }

/-- `claim_unclaimed_for_user`: whether the row was still unclaimed. -/
def claimUnclaimedForUser (store : Store) (subId userId : Nat) : Store × Bool :=
  match store.subs subId with
  | some sub =>
      if sub.claimedUserId = none then
        (store.setSub subId { sub with claimedUserId := some userId }, true)
      else (store, false)
  | none => (store, false)

end Store

section Provisioning
variable (settings : Settings)

def keepsPlan (key : ApiKey) (planId : Nat) : Bool :=
  (planOf settings key.planId).isSome && decide (rankOf settings planId < rankOf settings key.planId)

def upgradeOrMint (store : Store) (subId userId planId : Nat) : Store × Nat :=
  match store.firstActiveKey userId with
  | some keyId =>
      if (store.keys keyId).any (keepsPlan settings · planId) then (store, keyId)
      else ((store.setApiKeyPlan keyId planId false).getD store, keyId)
  | none =>
      let (store, keyId) := store.createApiKey settings userId subId
      ((store.setApiKeyPlan keyId planId false).getD store, keyId)

def provisionSeats (store : Store) (subId userId seats : Nat) : Store :=
  if 1 < seats then
    let (store, tenantId) := store.ensureTenant subId
    (store.addTenantAdmin userId tenantId).updateSub subId fun sub =>
      { sub with tenantId := some tenantId }
  else store

/-- `provision_or_upgrade` without its lock; `AlreadyProvisioned` changes nothing and every
caller goes on, a missing subscription is a `ValueError`. -/
def provisionOrUpgrade (store : Store) (subId userId : Nat) : Outcome :=
  match store.subs subId with
  | none => ⟨store, some (.valueError ("provision_or_upgrade: subscription id=" ++
      toString subId ++ " not found"))⟩
  | some sub =>
      if sub.apiKeyId.isSome then ⟨store, none⟩
      else
        let (store, keyId) := upgradeOrMint settings store subId userId sub.planId
        let store := provisionSeats store subId userId sub.seats
        let store := store.updateSub subId fun sub => { sub with apiKeyId := some keyId }
        ⟨store.updateSub subId fun sub => { sub with claimedUserId := some userId }, none⟩

def claimAndProvision (store : Store) (subId userId : Nat) (alreadyMine : Bool) : Outcome :=
  if alreadyMine then provisionOrUpgrade settings store subId userId
  else
    let (store, won) := store.claimUnclaimedForUser subId userId
    if won then provisionOrUpgrade settings store subId userId else ⟨store, none⟩

end Provisioning

structure EntitlementGrant where
  planId : Nat
  externalRef : String
  source : Source
  seats : Nat
  buyerEmail : Option String
  snapshot : Snapshot
  deriving DecidableEq

section Grant
variable (settings : Settings)

def enforceTeamMinSeats (planId seats : Nat) : Option Raised :=
  if (planOf settings planId).map Plan.slug = some settings.teamPlanSlug ∧
      seats < settings.teamMinSeats then
    some (.valueError ("team tier requires >= " ++ toString settings.teamMinSeats ++
      " seats (got " ++ toString seats ++ ")"))
  else none

def proposedRow (grant : EntitlementGrant) : Option Raised :=
  if grant.buyerEmail.isNone then some (.integrityError "subscriptions_no_orphan_active")
  else if grant.seats = 0 then some (.integrityError "subscriptions_seats_positive")
  else none

def Snapshot.merge (incoming stored : Snapshot) : Snapshot :=
  { amountCents := incoming.amountCents.or stored.amountCents
    currency := incoming.currency.or stored.currency
    billingInterval := incoming.billingInterval.or stored.billingInterval
    currentPeriodStart := incoming.currentPeriodStart.or stored.currentPeriodStart
    currentPeriodEnd := incoming.currentPeriodEnd.or stored.currentPeriodEnd
    trialEndsAt := incoming.trialEndsAt.or stored.trialEndsAt }

/-- `ON CONFLICT … DO UPDATE`. -/
def refreshed (grant : EntitlementGrant) (lastEventAt : Option Nat) (stored : Subscription) :
    Subscription :=
  let isCurrent := current lastEventAt stored.lastEventAt
  { stored with
    status := if isCurrent then .active else stored.status
    planId := if isCurrent then grant.planId else stored.planId
    seats := if isCurrent then grant.seats else stored.seats
    lastEventAt := greatest stored.lastEventAt lastEventAt
    snapshot := grant.snapshot.merge stored.snapshot
    buyerEmail := grant.buyerEmail.or stored.buyerEmail }

def inserted (grant : EntitlementGrant) (lastEventAt : Option Nat) : Subscription :=
  { planId := grant.planId
    source := grant.source
    externalRef := grant.externalRef
    status := .active
    seats := grant.seats
    buyerEmail := grant.buyerEmail
    snapshot := grant.snapshot
    claimedUserId := none
    apiKeyId := none
    tenantId := none
    lastEventAt
    cancelAtPeriodEnd := false
    cancelledAt := none }

/-- `upsert_by_external_ref(status='active', …)`. -/
def upsertByExternalRef (store : Store) (grant : EntitlementGrant) (lastEventAt : Option Nat) :
    Store × Nat :=
  match store.conflicting grant.source grant.externalRef with
  | some subId => (store.updateSub subId (refreshed grant lastEventAt), subId)
  | none =>
      ({ store.setSub store.nextSub (inserted grant lastEventAt) with
          nextSub := store.nextSub + 1 }, store.nextSub)

def buyer (grant : EntitlementGrant) (verifiedUser : Option Nat) : Option Nat :=
  if grant.buyerEmail.any (· != "") then verifiedUser else none

/-- `grant_entitlement`; `verifiedUser` is what `_verified_user_id_for_email` finds. -/
def grantEntitlement (store : Store) (grant : EntitlementGrant) (lastEventAt : Option Nat)
    (verifiedUser : Option Nat) : Outcome :=
  match enforceTeamMinSeats settings grant.planId grant.seats with
  | some raised => ⟨store, some raised⟩
  | none =>
      match proposedRow grant with
      | some raised => ⟨store, some raised⟩
      | none =>
          let (store, subId) := upsertByExternalRef store grant lastEventAt
          match buyer grant verifiedUser with
          | none => ⟨store, none⟩
          | some userId =>
              let alreadyMine := (store.subs subId).any (·.claimedUserId == some userId)
              claimAndProvision settings store subId userId alreadyMine

end Grant

/-- The fields an update carries; callers give no seat count below one. -/
structure EntitlementUpdate where
  planId : Option Nat
  status : Option Status
  seats : Option Nat
  currentPeriodStart : Option Nat
  currentPeriodEnd : Option Nat
  trialEndsAt : Option Nat
  cancelAtPeriodEnd : Option Bool
  lastEventAt : Option Nat
  seatsPositive : ∀ count, seats = some count → 0 < count

/-- `_TERMINAL_STATUSES`. -/
def terminal (status : Status) : Bool :=
  status == .cancelled || status == .expired || status == .refunded || status == .pastDue

/-- The row after `update_fields` with the fields that were given. -/
def EntitlementUpdate.apply (change : EntitlementUpdate) (sub : Subscription) : Subscription :=
  { sub with
    planId := change.planId.getD sub.planId
    status := change.status.getD sub.status
    seats := change.seats.getD sub.seats
    snapshot :=
      { sub.snapshot with
        currentPeriodStart := change.currentPeriodStart.or sub.snapshot.currentPeriodStart
        currentPeriodEnd := change.currentPeriodEnd.or sub.snapshot.currentPeriodEnd
        trialEndsAt := change.trialEndsAt.or sub.snapshot.trialEndsAt }
    cancelAtPeriodEnd := change.cancelAtPeriodEnd.getD sub.cancelAtPeriodEnd
    lastEventAt := greatest sub.lastEventAt change.lastEventAt }

/-- The `subscriptions_no_orphan_active` CHECK. -/
def anchored (sub : Subscription) : Bool :=
  !entitled sub.status || sub.claimedUserId.isSome || sub.apiKeyId.isSome ||
    sub.tenantId.isSome || sub.buyerEmail.isSome

section UpdateRevoke
variable (settings : Settings)

def downgradeKeyToFree (store : Store) (keyId : Nat) : Option Store :=
  match freePlanId settings with
  | some free => store.setApiKeyPlan keyId free true
  | none => some (store.deactivateApiKey keyId)

/-- A non-terminal update moves the key up to the resolved plan; `none` is a `KeyError`. -/
def repointKey (store : Store) (sub : Subscription) (keyId : Nat) (planId : Option Nat) :
    Option Store :=
  let resolved := planId.getD sub.planId
  if (planId.any (· != sub.planId)) || isPaidPlan settings resolved then
    match (store.keys keyId).map ApiKey.planId with
    | some keyPlan =>
        if planOutranks settings keyPlan resolved then some store
        else if keyPlan ≠ resolved then store.setApiKeyPlan keyId resolved false
        else some store
    | none => store.setApiKeyPlan keyId resolved false
  else some store

def updateKey (store : Store) (sub : Subscription) (change : EntitlementUpdate) : Store :=
  match sub.apiKeyId with
  | none => store
  | some keyId =>
      if change.status.any terminal then (downgradeKeyToFree settings store keyId).getD store
      else (repointKey settings store sub keyId change.planId).getD store

/-- `update_entitlement`: the key first, then the row. -/
def updateEntitlement (store : Store) (choice : RowChoice) (externalRef : String)
    (change : EntitlementUpdate) : Outcome :=
  match store.getByExternalRef choice externalRef with
  | none => ⟨store, some (.lookupError
      ("update_entitlement: no subscription for external_ref='" ++ externalRef ++ "'"))⟩
  | some subId =>
      match store.subs subId with
      | none => ⟨store, none⟩
      | some sub =>
          if current change.lastEventAt sub.lastEventAt = false then
            ⟨store.setSub subId
              { sub with lastEventAt := greatest sub.lastEventAt change.lastEventAt }, none⟩
          else
            let store := updateKey settings store sub change
            if anchored (change.apply sub) then ⟨store.setSub subId (change.apply sub), none⟩
            else ⟨store, some (.integrityError "subscriptions_no_orphan_active")⟩

/-- `revoke_entitlement`; `now` is the clock of the database. -/
def revokeEntitlement (store : Store) (choice : RowChoice) (externalRef : String)
    (voluntary : Bool) (lastEventAt : Option Nat) (now : Nat) : Outcome :=
  match store.getByExternalRef choice externalRef with
  | none => ⟨store, none⟩
  | some subId =>
      match store.subs subId with
      | none => ⟨store, none⟩
      | some sub =>
          if voluntary then
            ⟨store.setSub subId { sub with cancelAtPeriodEnd := true, cancelledAt := some now },
              none⟩
          else if current lastEventAt sub.lastEventAt = false then
            ⟨store.setSub subId { sub with lastEventAt := greatest sub.lastEventAt lastEventAt },
              none⟩
          else
            let store := store.setSub subId
              { sub with
                status := .cancelled
                cancelledAt := some now
                lastEventAt := greatest sub.lastEventAt lastEventAt }
            match sub.apiKeyId with
            | none => ⟨store, none⟩
            | some keyId =>
                match downgradeKeyToFree settings store keyId with
                | some store => ⟨store, none⟩
                | none => ⟨store, some (.lookupError
                    ("API key id=" ++ toString keyId ++ " not found"))⟩

end UpdateRevoke

section Claim
variable (settings : Settings)

/-- `find_unclaimed_active_by_email` and `_find_claimed_unprovisioned_active`, newest first. -/
def claimable (store : Store) (userId : Nat) (email : String) : List Nat :=
  (store.subsWhere fun sub =>
      sub.buyerEmail.any (fun buyer => settings.lower buyer == settings.lower email) &&
        sub.status == .active && sub.claimedUserId.isNone).reverse ++
    (store.subsWhere fun sub =>
      sub.claimedUserId == some userId && sub.status == .active && sub.apiKeyId.isNone).reverse

/-- `claim_subscription_for_user`: what one subscription raises does not stop the others. -/
def claimSubscriptionForUser (store : Store) (userId : Nat) (email : String) : Store :=
  let mine (subId : Nat) : Bool := (store.subs subId).any (·.claimedUserId == some userId)
  (claimable settings store userId email).foldl
    (fun now subId => (claimAndProvision settings now subId userId (mine subId)).store) store

end Claim

inductive Event where
  | grant (grant : EntitlementGrant) (lastEventAt : Option Nat) (verifiedUser : Option Nat)
  | update (choice : RowChoice) (externalRef : String) (change : EntitlementUpdate)
  | revoke (choice : RowChoice) (externalRef : String) (voluntary : Bool)
      (lastEventAt : Option Nat) (now : Nat)
  | login (userId : Nat) (email : String)

def step (settings : Settings) (store : Store) : Event → Store
  | .grant grant lastEventAt verifiedUser =>
      (grantEntitlement settings store grant lastEventAt verifiedUser).store
  | .update choice externalRef change =>
      (updateEntitlement settings store choice externalRef change).store
  | .revoke choice externalRef voluntary lastEventAt now =>
      (revokeEntitlement settings store choice externalRef voluntary lastEventAt now).store
  | .login userId email => claimSubscriptionForUser settings store userId email

end OdooSemantic.Billing.Activation
