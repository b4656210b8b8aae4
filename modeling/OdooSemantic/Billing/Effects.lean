import OdooSemantic.Billing.Activation

/-!
# What the writers of entitlement state write

One lemma for each operation: the key it writes, the row it writes, and that everything else
is as it was.
-/

set_option autoImplicit false

namespace OdooSemantic.Billing.Activation

open Billing.Entitlements (Status Raised current greatest)
open Lib.Run

namespace Store

@[simp] theorem setKey_keys (store : Store) (keyId : Nat) (key : ApiKey) :
    (store.setKey keyId key).keys = Function.update store.keys keyId (some key) := rfl

@[simp] theorem setSub_keys (store : Store) (subId : Nat) (sub : Subscription) :
    (store.setSub subId sub).keys = store.keys := rfl

@[simp] theorem setSub_subs (store : Store) (subId : Nat) (sub : Subscription) :
    (store.setSub subId sub).subs = Function.update store.subs subId (some sub) := rfl

variable {store : Store} {subId : Nat}

theorem updateSub_row {sub : Subscription}
    (set : Subscription → Subscription) (row : store.subs subId = some sub) :
    store.updateSub subId set = store.setSub subId (set sub) := by
  simp only [updateSub, row]

theorem firstActiveKey_some {userId keyId : Nat}
    (found : store.firstActiveKey userId = some keyId) :
    ∃ key, store.keys keyId = some key ∧ key.active = true ∧ key.userId = some userId := by
  have meets := List.find?_some found
  cases row : store.keys keyId with
  | none => simp [row] at meets
  | some key =>
      simp only [row, Option.any_some, Bool.and_eq_true, beq_iff_eq] at meets
      exact ⟨key, rfl, meets.1, meets.2⟩

theorem mem_subsWhere {holds : Subscription → Bool}
    (mem : subId ∈ store.subsWhere holds) :
    ∃ sub, store.subs subId = some sub ∧ holds sub = true := by
  have meets := (List.mem_filter.mp mem).2
  cases row : store.subs subId with
  | none => simp [row] at meets
  | some sub => exact ⟨sub, rfl, by simpa [row] using meets⟩

theorem conflicting_some {source : Source} {externalRef : String}
    (found : store.conflicting source externalRef = some subId) :
    ∃ sub, store.subs subId = some sub ∧ sub.source = source ∧
      sub.externalRef = externalRef := by
  obtain ⟨sub, row, holds⟩ := mem_subsWhere (List.mem_of_mem_head? found)
  simp only [Bool.and_eq_true, beq_iff_eq] at holds
  exact ⟨sub, row, holds.1, holds.2⟩

theorem getByExternalRef_some {choice : RowChoice} {externalRef : String}
    (found : store.getByExternalRef choice externalRef = some subId) :
    ∃ sub, store.subs subId = some sub ∧ sub.externalRef = externalRef := by
  obtain ⟨sub, row, holds⟩ := mem_subsWhere (choice.mem _ _ found)
  exact ⟨sub, row, beq_iff_eq.mp holds⟩

end Store

section Provisioning
variable (settings : Settings)

/-- The key `upgradeOrMint` picks and what it writes on it. -/
inductive KeyWrite (store : Store) (subId userId planId : Nat) : Store → Nat → Prop
  | kept (keyId : Nat) (key : ApiKey)
      (found : store.firstActiveKey userId = some keyId) (row : store.keys keyId = some key)
      (keeps : keepsPlan settings key planId = true) :
      KeyWrite store subId userId planId store keyId
  | upgraded (keyId : Nat) (key : ApiKey)
      (found : store.firstActiveKey userId = some keyId) (row : store.keys keyId = some key)
      (keeps : keepsPlan settings key planId = false) :
      KeyWrite store subId userId planId (store.setKey keyId { key with planId }) keyId
  | minted (absent : store.firstActiveKey userId = none) :
      KeyWrite store subId userId planId
        { store.setKey store.nextKey
            { userId := some userId
              planId
              active := true
              rateLimitOverride := none
              quotaOverride := none
              mintedFor := some subId } with
          nextKey := store.nextKey + 1 } store.nextKey

theorem upgradeOrMint_write (store : Store) (subId userId planId : Nat) :
    KeyWrite settings store subId userId planId
      (upgradeOrMint settings store subId userId planId).1
      (upgradeOrMint settings store subId userId planId).2 := by
  cases found : store.firstActiveKey userId with
  | none =>
      have minted : KeyWrite settings store subId userId planId _ _ := .minted found
      simpa [upgradeOrMint, found, Store.createApiKey, Store.setApiKeyPlan, Store.setKey]
        using minted
  | some keyId =>
      obtain ⟨key, row, -, -⟩ := Store.firstActiveKey_some found
      cases keeps : keepsPlan settings key planId with
      | true =>
          have kept : KeyWrite settings store subId userId planId _ _ :=
            .kept keyId key found row keeps
          simpa [upgradeOrMint, found, row, keeps] using kept
      | false =>
          have upgraded : KeyWrite settings store subId userId planId _ _ :=
            .upgraded keyId key found row keeps
          simpa [upgradeOrMint, found, row, keeps, Store.setApiKeyPlan] using upgraded

variable {store : Store} {sub : Subscription} {subId : Nat}

theorem KeyWrite.subs {subId userId planId : Nat} {after : Store} {keyId : Nat}
    (write : KeyWrite settings store subId userId planId after keyId) :
    after.subs = store.subs ∧ after.nextSub = store.nextSub := by
  cases write with
  | kept | upgraded | minted => exact ⟨rfl, rfl⟩

theorem provisionSeats_keys (store : Store) (subId userId seats : Nat) :
    (provisionSeats store subId userId seats).keys = store.keys ∧
      (provisionSeats store subId userId seats).nextKey = store.nextKey ∧
      (provisionSeats store subId userId seats).nextSub = store.nextSub := by
  simp only [provisionSeats, Store.ensureTenant, Store.addTenantAdmin, Store.updateSub,
    Store.setSub]
  split
  · repeat' split
    all_goals exact ⟨rfl, rfl, rfl⟩
  · exact ⟨rfl, rfl, rfl⟩

theorem provisionSeats_subs
    (userId seats : Nat) (row : store.subs subId = some sub) :
    ∃ tenantId, (provisionSeats store subId userId seats).subs =
      Function.update store.subs subId (some { sub with tenantId }) := by
  by_cases several : 1 < seats
  · have rowEnsured : (store.ensureTenant subId).1.subs = store.subs := by
      simp only [Store.ensureTenant]
      split <;> rfl
    refine ⟨some (store.ensureTenant subId).2, ?_⟩
    simp only [provisionSeats, if_pos several, Store.addTenantAdmin, Store.updateSub,
      rowEnsured, row, Store.setSub]
  · refine ⟨sub.tenantId, ?_⟩
    simp only [provisionSeats, if_neg several]
    exact (Function.update_eq_self_iff.mpr row.symm).symm

structure Provisions (store : Store) (subId userId : Nat) (sub : Subscription) (keyId : Nat)
    (written after : Store) : Prop where
  write : KeyWrite settings store subId userId sub.planId written keyId
  keys : after.keys = written.keys
  nextKey : after.nextKey = written.nextKey
  nextSub : after.nextSub = store.nextSub
  subs : ∃ tenantId, after.subs = Function.update store.subs subId (some
    { sub with tenantId, apiKeyId := some keyId, claimedUserId := some userId })

theorem provisionOrUpgrade_unlinked
    (userId : Nat) (row : store.subs subId = some sub) (unlinked : sub.apiKeyId = none) :
    Provisions settings store subId userId sub
      (upgradeOrMint settings store subId userId sub.planId).2
      (upgradeOrMint settings store subId userId sub.planId).1
      (provisionOrUpgrade settings store subId userId).store := by
  have write := upgradeOrMint_write settings store subId userId sub.planId
  have run : provisionOrUpgrade settings store subId userId =
      let written := upgradeOrMint settings store subId userId sub.planId
      let seated := provisionSeats written.1 subId userId sub.seats
      let linked := seated.updateSub subId fun sub => { sub with apiKeyId := some written.2 }
      ⟨linked.updateSub subId fun sub => { sub with claimedUserId := some userId }, none⟩ := by
    simp [provisionOrUpgrade, row, unlinked]
  rw [run]
  generalize upgradeOrMint settings store subId userId sub.planId = written at write
  obtain ⟨written, keyId⟩ := written
  have sameSubs : written.subs = store.subs := write.subs.1
  obtain ⟨seatKeys, seatNextKey, seatNextSub⟩ :=
    provisionSeats_keys written subId userId sub.seats
  have rowWritten : written.subs subId = some sub := by rw [sameSubs]; exact row
  obtain ⟨tenantId, seated⟩ := provisionSeats_subs userId sub.seats rowWritten
  have rowSeated : (provisionSeats written subId userId sub.seats).subs subId =
      some { sub with tenantId } := by rw [seated, Function.update_self]
  have rowLinked : ((provisionSeats written subId userId sub.seats).setSub subId
      { sub with tenantId, apiKeyId := some keyId }).subs subId =
      some { sub with tenantId, apiKeyId := some keyId } := by simp
  dsimp only
  rw [Store.updateSub_row _ rowSeated, Store.updateSub_row _ rowLinked]
  refine ⟨write, seatKeys, seatNextKey, seatNextSub.trans write.subs.2, tenantId, ?_⟩
  simp only [Store.setSub_subs, seated, Function.update_idem, sameSubs]

theorem provisionOrUpgrade_missing (userId : Nat)
    (row : store.subs subId = none) :
    (provisionOrUpgrade settings store subId userId).store = store := by
  simp only [provisionOrUpgrade, row]

theorem provisionOrUpgrade_linked
    (userId : Nat) (row : store.subs subId = some sub) (linked : sub.apiKeyId.isSome = true) :
    (provisionOrUpgrade settings store subId userId).store = store := by
  simp only [provisionOrUpgrade, row, linked, if_true]

inductive ClaimWrite (store : Store) (subId userId : Nat) (alreadyMine : Bool) : Store → Prop
  | refused
      (out : ∀ sub, store.subs subId = some sub →
        sub.apiKeyId.isSome = true ∨ alreadyMine = false ∧ sub.claimedUserId ≠ none) :
      ClaimWrite store subId userId alreadyMine store
  | claimed (sub : Subscription) (row : store.subs subId = some sub)
      (linked : sub.apiKeyId.isSome = true) (free : sub.claimedUserId = none) :
      ClaimWrite store subId userId alreadyMine
        (store.setSub subId { sub with claimedUserId := some userId })
  | provisioned (sub : Subscription) (row : store.subs subId = some sub)
      (unlinked : sub.apiKeyId = none) (may : alreadyMine = true ∨ sub.claimedUserId = none)
      (keyId : Nat) (written after : Store)
      (provisions : Provisions settings store subId userId sub keyId written after) :
      ClaimWrite store subId userId alreadyMine after

theorem Provisions.of_claimed {subId userId : Nat}
    {keyId : Nat} {written after : Store}
    (provisions : Provisions settings (store.setSub subId { sub with claimedUserId := some userId })
      subId userId { sub with claimedUserId := some userId } keyId written after) :
    ∃ written, Provisions settings store subId userId sub keyId written after := by
  obtain ⟨tenantId, subs⟩ := provisions.subs
  have collapsed : after.subs = Function.update store.subs subId (some
      { sub with tenantId, apiKeyId := some keyId, claimedUserId := some userId }) := by
    rw [subs, Store.setSub_subs, Function.update_idem]
  cases provisions.write with
  | kept =>
      exact ⟨store, .kept keyId _ ‹_› ‹_› ‹_›, provisions.keys, provisions.nextKey,
        provisions.nextSub, tenantId, collapsed⟩
  | upgraded =>
      exact ⟨_, .upgraded keyId _ ‹_› ‹_› ‹_›, provisions.keys, provisions.nextKey,
        provisions.nextSub, tenantId, collapsed⟩
  | minted absent =>
      exact ⟨_, .minted absent, provisions.keys, provisions.nextKey, provisions.nextSub,
        tenantId, collapsed⟩

theorem claimAndProvision_write (store : Store) (subId userId : Nat) (alreadyMine : Bool) :
    ClaimWrite settings store subId userId alreadyMine
      (claimAndProvision settings store subId userId alreadyMine).store := by
  cases row : store.subs subId with
  | none =>
      have same : (claimAndProvision settings store subId userId alreadyMine).store = store := by
        cases alreadyMine with
        | true => exact provisionOrUpgrade_missing settings userId row
        | false => simp [claimAndProvision, Store.claimUnclaimedForUser, row]
      rw [same]
      exact .refused fun sub found => by simp [row] at found
  | some sub =>
      cases alreadyMine with
      | true =>
          simp only [claimAndProvision, if_true]
          cases linked : sub.apiKeyId with
          | none =>
              exact .provisioned sub row linked (.inl rfl) _ _ _
                (provisionOrUpgrade_unlinked settings userId row linked)
          | some keyId =>
              rw [provisionOrUpgrade_linked settings userId row (by simp [linked])]
              refine .refused fun other found => .inl ?_
              rw [row] at found
              cases found
              simp [linked]
      | false =>
          cases free : sub.claimedUserId with
          | some owner =>
              have same : (claimAndProvision settings store subId userId false).store =
                  store := by
                simp [claimAndProvision, Store.claimUnclaimedForUser, row, free]
              rw [same]
              refine .refused fun other found => .inr ⟨rfl, ?_⟩
              rw [row] at found
              cases found
              simp [free]
          | none =>
              have run : claimAndProvision settings store subId userId false =
                  provisionOrUpgrade settings
                    (store.setSub subId { sub with claimedUserId := some userId })
                    subId userId := by
                simp [claimAndProvision, Store.claimUnclaimedForUser, row, free]
              have rowClaimed : (store.setSub subId
                  { sub with claimedUserId := some userId }).subs subId =
                  some { sub with claimedUserId := some userId } := by simp
              rw [run]
              rcases Option.eq_none_or_eq_some sub.apiKeyId with linked | ⟨keyId, linked⟩
              · obtain ⟨written, provisions⟩ := Provisions.of_claimed settings
                  (provisionOrUpgrade_unlinked settings userId rowClaimed linked)
                exact .provisioned sub row linked (.inr free) _ written _ provisions
              · rw [provisionOrUpgrade_linked settings userId rowClaimed (by simp [linked])]
                exact .claimed sub row (by simp [linked]) free

end Provisioning

variable {store after : Store} {settings : Settings} {lastEventAt : Option Nat} {sub : Subscription}
variable {subId : Nat} {grant : EntitlementGrant} {keyId : Nat}

theorem refreshed_recent (grant : EntitlementGrant)
    (recent : current lastEventAt sub.lastEventAt = true) :
    (refreshed grant lastEventAt sub).status = .active ∧
      (refreshed grant lastEventAt sub).planId = grant.planId := by
  simp [refreshed, recent]

theorem refreshed_stale (grant : EntitlementGrant)
    (old : current lastEventAt sub.lastEventAt = false) :
    (refreshed grant lastEventAt sub).status = sub.status ∧
      (refreshed grant lastEventAt sub).planId = sub.planId := by
  simp [refreshed, old]

inductive RowWrite (store : Store) (grant : EntitlementGrant) (lastEventAt : Option Nat) :
    Store → Nat → Prop
  | refreshed (subId : Nat) (sub : Subscription)
      (found : store.conflicting grant.source grant.externalRef = some subId)
      (row : store.subs subId = some sub) :
      RowWrite store grant lastEventAt (store.setSub subId (refreshed grant lastEventAt sub))
        subId
  | inserted (absent : store.conflicting grant.source grant.externalRef = none) :
      RowWrite store grant lastEventAt
        { store.setSub store.nextSub (inserted grant lastEventAt) with
          nextSub := store.nextSub + 1 } store.nextSub

theorem upsertByExternalRef_write (store : Store) (grant : EntitlementGrant)
    (lastEventAt : Option Nat) :
    RowWrite store grant lastEventAt (upsertByExternalRef store grant lastEventAt).1
      (upsertByExternalRef store grant lastEventAt).2 := by
  cases found : store.conflicting grant.source grant.externalRef with
  | none =>
      simp only [upsertByExternalRef, found]
      exact .inserted found
  | some subId =>
      obtain ⟨sub, row, -, -⟩ := Store.conflicting_some found
      simp only [upsertByExternalRef, found, Store.updateSub_row _ row]
      exact .refreshed subId sub found row

theorem RowWrite.found
    {written subId : Nat}
    (write : RowWrite store grant lastEventAt after written)
    (found : store.conflicting grant.source grant.externalRef = some subId)
    (row : store.subs subId = some sub) :
    written = subId ∧ after.subs subId = some (Activation.refreshed grant lastEventAt sub) := by
  cases write with
  | inserted absent =>
      rw [found] at absent
      cases absent
  | refreshed _ stored foundRow storedRow =>
      rw [found] at foundRow
      cases foundRow
      rw [row] at storedRow
      cases storedRow
      exact ⟨rfl, Function.update_self ..⟩

theorem RowWrite.kept
    (write : RowWrite store grant lastEventAt after subId) :
    subId = (store.conflicting grant.source grant.externalRef).getD store.nextSub ∧
      after.keys = store.keys ∧ after.nextKey = store.nextKey := by
  cases write with
  | refreshed _ sub found row => exact ⟨by rw [found]; rfl, rfl, rfl⟩
  | inserted absent => exact ⟨by rw [absent]; rfl, rfl, rfl⟩

/-- The requests `grant_entitlement` goes on with. -/
def accepted (settings : Settings) (grant : EntitlementGrant) : Prop :=
  enforceTeamMinSeats settings grant.planId grant.seats = none ∧ proposedRow grant = none

def alreadyMine (store : Store) (subId userId : Nat) : Bool :=
  (store.subs subId).any (·.claimedUserId == some userId)

inductive GrantWrite (settings : Settings) (store : Store) (grant : EntitlementGrant)
    (lastEventAt verifiedUser : Option Nat) : Store → Prop
  | rejected (invalid : ¬ accepted settings grant) :
      GrantWrite settings store grant lastEventAt verifiedUser store
  | unclaimed (valid : accepted settings grant) (unknown : buyer grant verifiedUser = none)
      (subId : Nat) (upserted : Store) (row : RowWrite store grant lastEventAt upserted subId) :
      GrantWrite settings store grant lastEventAt verifiedUser upserted
  | claimed (valid : accepted settings grant) (userId : Nat)
      (known : buyer grant verifiedUser = some userId)
      (subId : Nat) (upserted after : Store)
      (row : RowWrite store grant lastEventAt upserted subId)
      (claim : ClaimWrite settings upserted subId userId (alreadyMine upserted subId userId)
        after) :
      GrantWrite settings store grant lastEventAt verifiedUser after

theorem grantEntitlement_write (settings : Settings) (store : Store) (grant : EntitlementGrant)
    (lastEventAt verifiedUser : Option Nat) :
    GrantWrite settings store grant lastEventAt verifiedUser
      (grantEntitlement settings store grant lastEventAt verifiedUser).store := by
  have row := upsertByExternalRef_write store grant lastEventAt
  cases seats : enforceTeamMinSeats settings grant.planId grant.seats with
  | some raised =>
      simp only [grantEntitlement, seats]
      exact .rejected fun valid => by simp [accepted, seats] at valid
  | none =>
      cases proposed : proposedRow grant with
      | some raised =>
          simp only [grantEntitlement, seats, proposed]
          exact .rejected fun valid => by simp [accepted, proposed] at valid
      | none =>
          cases known : buyer grant verifiedUser with
          | none =>
              simp only [grantEntitlement, seats, proposed, known]
              exact .unclaimed ⟨seats, proposed⟩ known _ _ row
          | some userId =>
              simp only [grantEntitlement, seats, proposed, known]
              exact .claimed ⟨seats, proposed⟩ userId known _ _ _ row
                (claimAndProvision_write settings _ _ userId _)

def moveLinked (keys : Nat → Option ApiKey) (linked : Option Nat) (change : ApiKey → ApiKey) :
    Nat → Option ApiKey :=
  fun keyId => if linked = some keyId then (keys keyId).map change else keys keyId

theorem moveLinked_id (keys : Nat → Option ApiKey) (linked : Option Nat) :
    moveLinked keys linked id = keys := by
  funext keyId
  simp [moveLinked]

theorem moveLinked_none (keys : Nat → Option ApiKey) (change : ApiKey → ApiKey) :
    moveLinked keys none change = keys := by
  funext keyId
  simp [moveLinked]

theorem moveLinked_row {keys : Nat → Option ApiKey} {key : ApiKey}
    (change : ApiKey → ApiKey) (row : keys keyId = some key) :
    moveLinked keys (some keyId) change = Function.update keys keyId (some (change key)) := by
  funext other
  by_cases same : other = keyId
  · subst same
    simp [moveLinked, row]
  · have different : ¬ (some keyId = some other) := fun equal =>
      same (Option.some.inj equal).symm
    simp only [moveLinked, if_neg different, Function.update_of_ne same]

theorem moveLinked_missing {keys : Nat → Option ApiKey}
    (change : ApiKey → ApiKey) (row : keys keyId = none) :
    moveLinked keys (some keyId) change = keys := by
  funext other
  by_cases same : some keyId = some other
  · cases same
    simp [moveLinked, row]
  · simp only [moveLinked, if_neg same]

structure Moved (before : Store) (subId : Nat) (sub written : Subscription)
    (change : ApiKey → ApiKey) (after : Store) : Prop where
  row : before.subs subId = some sub
  subs : after.subs = Function.update before.subs subId (some written)
  keys : after.keys = moveLinked before.keys sub.apiKeyId change
  nextKey : after.nextKey = before.nextKey
  nextSub : after.nextSub = before.nextSub

theorem Moved.of_setSub {store : Store}
    (written : Subscription) (row : store.subs subId = some sub) :
    Moved store subId sub written id (store.setSub subId written) :=
  ⟨row, rfl, (moveLinked_id _ _).symm, rfl, rfl⟩

/-- The free plan without overrides, or a dead key. -/
def freed (settings : Settings) (key : ApiKey) : ApiKey :=
  match freePlanId settings with
  | some free => { key with planId := free, rateLimitOverride := none, quotaOverride := none }
  | none => { key with active := false }

def repoints (settings : Settings) (sub : Subscription) (planId : Option Nat) (key : ApiKey) :
    Bool :=
  ((planId.any (· != sub.planId)) || isPaidPlan settings (planId.getD sub.planId)) &&
    !planOutranks settings key.planId (planId.getD sub.planId) &&
    key.planId != planId.getD sub.planId

def repointed (settings : Settings) (sub : Subscription) (planId : Option Nat) (key : ApiKey) :
    ApiKey :=
  if repoints settings sub planId key then { key with planId := planId.getD sub.planId } else key

def updatedKey (settings : Settings) (sub : Subscription) (change : EntitlementUpdate) :
    ApiKey → ApiKey :=
  if change.status.any terminal then freed settings
  else repointed settings sub change.planId

theorem downgradeKeyToFree_keys (settings : Settings) (store : Store) (keyId : Nat) :
    ((downgradeKeyToFree settings store keyId).getD store).keys =
      moveLinked store.keys (some keyId) (freed settings) := by
  cases row : store.keys keyId with
  | none =>
      rw [moveLinked_missing _ row]
      cases free : freePlanId settings with
      | none => simp [downgradeKeyToFree, free, Store.deactivateApiKey, row]
      | some plan => simp [downgradeKeyToFree, free, Store.setApiKeyPlan, row]
  | some key =>
      rw [moveLinked_row _ row]
      cases free : freePlanId settings with
      | none => simp [downgradeKeyToFree, free, Store.deactivateApiKey, row, freed]
      | some plan => simp [downgradeKeyToFree, free, Store.setApiKeyPlan, row, freed]

theorem repointKey_keys (settings : Settings) (store : Store) (sub : Subscription) (keyId : Nat)
    (planId : Option Nat) :
    ((repointKey settings store sub keyId planId).getD store).keys =
      moveLinked store.keys (some keyId) (repointed settings sub planId) := by
  cases row : store.keys keyId with
  | none =>
      rw [moveLinked_missing _ row]
      simp only [repointKey, row, Option.map_none, Store.setApiKeyPlan]
      split <;> rfl
  | some key =>
      rw [moveLinked_row _ row]
      have same : Function.update store.keys keyId (some key) = store.keys :=
        Function.update_eq_self_iff.mpr row.symm
      simp only [repointKey, row, Option.map_some, Store.setApiKeyPlan, repointed, repoints]
      by_cases wanted : (planId.any (· != sub.planId) ||
          isPaidPlan settings (planId.getD sub.planId)) = true
      · by_cases outranks : planOutranks settings key.planId (planId.getD sub.planId) = true
        · simp [wanted, outranks, same]
        · by_cases equal : key.planId = planId.getD sub.planId
          · simp [wanted, equal, same]
          · simp [wanted, outranks, equal, Store.setKey]
      · simp [wanted, same]

theorem downgradeKeyToFree_rest (settings : Settings) (store : Store) (keyId : Nat) :
    ((downgradeKeyToFree settings store keyId).getD store).subs = store.subs ∧
      ((downgradeKeyToFree settings store keyId).getD store).nextKey = store.nextKey ∧
      ((downgradeKeyToFree settings store keyId).getD store).nextSub = store.nextSub := by
  simp only [downgradeKeyToFree, Store.setApiKeyPlan, Store.deactivateApiKey]
  cases freePlanId settings with
  | none | some free =>
      cases store.keys keyId with
      | none | some key => exact ⟨rfl, rfl, rfl⟩

theorem repointKey_rest (settings : Settings) (store : Store) (sub : Subscription) (keyId : Nat)
    (planId : Option Nat) :
    ((repointKey settings store sub keyId planId).getD store).subs = store.subs ∧
      ((repointKey settings store sub keyId planId).getD store).nextKey = store.nextKey ∧
      ((repointKey settings store sub keyId planId).getD store).nextSub = store.nextSub := by
  simp only [repointKey, Store.setApiKeyPlan]
  cases store.keys keyId with
  | none => split <;> exact ⟨rfl, rfl, rfl⟩
  | some key =>
      simp only [Option.map_some]
      repeat' split
      all_goals exact ⟨rfl, rfl, rfl⟩

theorem updateKey_moved {store : Store}
    (change : EntitlementUpdate) (written : Subscription) (row : store.subs subId = some sub) :
    Moved store subId sub written (updatedKey settings sub change)
      ((updateKey settings store sub change).setSub subId written) := by
  cases linked : sub.apiKeyId with
  | none =>
      have same : updateKey settings store sub change = store := by
        simp only [updateKey, linked]
      rw [same]
      exact ⟨row, rfl, by rw [linked, moveLinked_none]; rfl, rfl, rfl⟩
  | some keyId =>
      cases ends : change.status.any terminal with
      | true =>
          have run : updateKey settings store sub change =
              (downgradeKeyToFree settings store keyId).getD store := by
            simp only [updateKey, linked, ends, if_true]
          obtain ⟨subs, nextKey, nextSub⟩ := downgradeKeyToFree_rest settings store keyId
          have keys := downgradeKeyToFree_keys settings store keyId
          rw [run]
          refine ⟨row, by rw [Store.setSub_subs, subs], ?_, nextKey, nextSub⟩
          rw [Store.setSub_keys, keys, linked]
          simp only [updatedKey, ends, if_true]
      | false =>
          have run : updateKey settings store sub change =
              (repointKey settings store sub keyId change.planId).getD store := by
            simp only [updateKey, linked, ends, Bool.false_eq_true, if_false]
          obtain ⟨subs, nextKey, nextSub⟩ :=
            repointKey_rest settings store sub keyId change.planId
          have keys := repointKey_keys settings store sub keyId change.planId
          rw [run]
          refine ⟨row, by rw [Store.setSub_subs, subs], ?_, nextKey, nextSub⟩
          rw [Store.setSub_keys, keys, linked]
          simp only [updatedKey, ends, Bool.false_eq_true, if_false]

inductive UpdateWrite (settings : Settings) (store : Store) (choice : RowChoice)
    (externalRef : String) (change : EntitlementUpdate) : Store → Prop
  | absent (missing : store.getByExternalRef choice externalRef = none) :
      UpdateWrite settings store choice externalRef change store
  | stale (subId : Nat) (sub : Subscription) (after : Store)
      (found : store.getByExternalRef choice externalRef = some subId)
      (old : current change.lastEventAt sub.lastEventAt = false)
      (moved : Moved store subId sub
        { sub with lastEventAt := greatest sub.lastEventAt change.lastEventAt } id after) :
      UpdateWrite settings store choice externalRef change after
  | orphan (subId : Nat) (sub : Subscription)
      (found : store.getByExternalRef choice externalRef = some subId)
      (row : store.subs subId = some sub)
      (recent : current change.lastEventAt sub.lastEventAt = true)
      (unanchored : anchored (change.apply sub) = false) :
      UpdateWrite settings store choice externalRef change store
  | current (subId : Nat) (sub : Subscription) (after : Store)
      (found : store.getByExternalRef choice externalRef = some subId)
      (recent : current change.lastEventAt sub.lastEventAt = true)
      (moved : Moved store subId sub (change.apply sub) (updatedKey settings sub change) after) :
      UpdateWrite settings store choice externalRef change after

theorem updateEntitlement_write (settings : Settings) (store : Store) (choice : RowChoice)
    (externalRef : String) (change : EntitlementUpdate) :
    UpdateWrite settings store choice externalRef change
      (updateEntitlement settings store choice externalRef change).store := by
  cases found : store.getByExternalRef choice externalRef with
  | none =>
      simp only [updateEntitlement, found]
      exact .absent found
  | some subId =>
      obtain ⟨sub, row, -⟩ := Store.getByExternalRef_some found
      cases recent : Entitlements.current change.lastEventAt sub.lastEventAt with
      | false =>
          simp only [updateEntitlement, found, row, recent, if_true]
          exact .stale subId sub _ found recent (.of_setSub _ row)
      | true =>
          simp only [updateEntitlement, found, row, recent, Bool.true_eq_false, if_false]
          cases holds : anchored (change.apply sub) with
          | true =>
              simp only [if_true]
              exact .current subId sub _ found recent (updateKey_moved change _ row)
          | false =>
              have unlinked : sub.apiKeyId = none := by
                simp only [anchored, Bool.or_eq_false_iff] at holds
                simpa [EntitlementUpdate.apply] using holds.1.1.2
              simp only [Bool.false_eq_true, if_false, updateKey, unlinked]
              exact .orphan subId sub found row recent holds

def revoked (lastEventAt : Option Nat) (now : Nat) (sub : Subscription) : Subscription :=
  { sub with
    status := .cancelled
    cancelledAt := some now
    lastEventAt := greatest sub.lastEventAt lastEventAt }

inductive RevokeWrite (settings : Settings) (store : Store) (choice : RowChoice)
    (externalRef : String) (voluntary : Bool) (lastEventAt : Option Nat) (now : Nat) :
    Store → Prop
  | absent (missing : store.getByExternalRef choice externalRef = none) :
      RevokeWrite settings store choice externalRef voluntary lastEventAt now store
  | scheduled (subId : Nat) (sub : Subscription) (after : Store)
      (found : store.getByExternalRef choice externalRef = some subId)
      (asked : voluntary = true)
      (moved : Moved store subId sub
        { sub with cancelAtPeriodEnd := true, cancelledAt := some now } id after) :
      RevokeWrite settings store choice externalRef voluntary lastEventAt now after
  | stale (subId : Nat) (sub : Subscription) (after : Store)
      (found : store.getByExternalRef choice externalRef = some subId)
      (asked : voluntary = false)
      (old : current lastEventAt sub.lastEventAt = false)
      (moved : Moved store subId sub
        { sub with lastEventAt := greatest sub.lastEventAt lastEventAt } id after) :
      RevokeWrite settings store choice externalRef voluntary lastEventAt now after
  | current (subId : Nat) (sub : Subscription) (after : Store)
      (found : store.getByExternalRef choice externalRef = some subId)
      (asked : voluntary = false)
      (recent : current lastEventAt sub.lastEventAt = true)
      (moved : Moved store subId sub (revoked lastEventAt now sub) (freed settings) after) :
      RevokeWrite settings store choice externalRef voluntary lastEventAt now after

theorem revokeEntitlement_write (settings : Settings) (store : Store) (choice : RowChoice)
    (externalRef : String) (voluntary : Bool) (lastEventAt : Option Nat) (now : Nat) :
    RevokeWrite settings store choice externalRef voluntary lastEventAt now
      (revokeEntitlement settings store choice externalRef voluntary lastEventAt now).store := by
  cases found : store.getByExternalRef choice externalRef with
  | none =>
      simp only [revokeEntitlement, found]
      exact .absent found
  | some subId =>
      obtain ⟨sub, row, -⟩ := Store.getByExternalRef_some found
      cases asked : voluntary with
      | true =>
          simp only [revokeEntitlement, found, row, if_true]
          exact .scheduled subId sub _ found rfl (.of_setSub _ row)
      | false =>
          cases recent : Entitlements.current lastEventAt sub.lastEventAt with
          | false =>
              simp only [revokeEntitlement, found, row, recent, Bool.false_eq_true, if_false,
                if_true]
              exact .stale subId sub _ found rfl recent (.of_setSub _ row)
          | true =>
              refine .current subId sub _ found rfl recent ?_
              rcases Option.eq_none_or_eq_some sub.apiKeyId with linked | ⟨keyId, linked⟩
              · have run : (revokeEntitlement settings store choice externalRef false
                    lastEventAt now).store = store.setSub subId (revoked lastEventAt now sub) := by
                  simp [revokeEntitlement, found, row, recent, linked, revoked]
                rw [run]
                exact ⟨row, rfl, by rw [linked, moveLinked_none]; rfl, rfl, rfl⟩
              · have run : (revokeEntitlement settings store choice externalRef false
                    lastEventAt now).store =
                    (downgradeKeyToFree settings
                      (store.setSub subId (revoked lastEventAt now sub)) keyId).getD
                      (store.setSub subId (revoked lastEventAt now sub)) := by
                  simp only [revokeEntitlement, found, row, recent, linked, revoked,
                    Bool.false_eq_true, if_false, Bool.true_eq_false]
                  cases downgradeKeyToFree settings _ keyId with
                  | none | some store => rfl
                obtain ⟨subs, nextKey, nextSub⟩ := downgradeKeyToFree_rest settings
                  (store.setSub subId (revoked lastEventAt now sub)) keyId
                have keys := downgradeKeyToFree_keys settings
                  (store.setSub subId (revoked lastEventAt now sub)) keyId
                rw [run]
                exact ⟨row, subs, by rw [keys, linked]; rfl, nextKey, nextSub⟩

theorem claimSubscriptionForUser_keeps (settings : Settings) (inv : Store → Prop)
    (keeps : ∀ store subId userId alreadyMine after, inv store →
      ClaimWrite settings store subId userId alreadyMine after → inv after)
    (store : Store) (userId : Nat) (email : String) (initial : inv store) :
    inv (claimSubscriptionForUser settings store userId email) :=
  run_preserves _ inv
    (fun now subId reached => keeps now subId userId _ _ reached
      (claimAndProvision_write settings now subId userId _))
    store initial _

structure Store.WellFormed (store : Store) : Prop where
  keysBelow : ∀ keyId key, store.keys keyId = some key → keyId < store.nextKey
  subsBelow : ∀ subId sub, store.subs subId = some sub → subId < store.nextSub
  linked : ∀ subId sub keyId, store.subs subId = some sub → sub.apiKeyId = some keyId →
    ∃ key, store.keys keyId = some key

theorem KeyWrite.row
    {subId userId planId picked : Nat} (wellFormed : store.WellFormed)
    (write : KeyWrite settings store subId userId planId after picked)
    {key : ApiKey} (row : store.keys keyId = some key) :
    ∃ written, after.keys keyId = some written ∧
      (written = key ∨ keyId = picked ∧ keepsPlan settings key planId = false ∧
        written = { key with planId }) := by
  cases write with
  | kept => exact ⟨key, row, .inl rfl⟩
  | upgraded _ stored found storedRow keeps =>
      by_cases same : keyId = picked
      · subst same
        rw [storedRow] at row
        cases row
        exact ⟨{ key with planId }, by simp, .inr ⟨rfl, keeps, rfl⟩⟩
      · exact ⟨key, by simp [Function.update_of_ne same, row], .inl rfl⟩
  | minted absent =>
      have below := wellFormed.keysBelow keyId key row
      have different : keyId ≠ store.nextKey := by omega
      exact ⟨key, by simp [Function.update_of_ne different, row], .inl rfl⟩

theorem KeyWrite.keysBelow
    {subId userId planId picked : Nat} (wellFormed : store.WellFormed)
    (write : KeyWrite settings store subId userId planId after picked)
    {key : ApiKey} (row : after.keys keyId = some key) : keyId < after.nextKey := by
  cases write with
  | kept => exact wellFormed.keysBelow keyId key row
  | upgraded _ stored found storedRow keeps =>
      by_cases same : keyId = picked
      · subst same
        exact wellFormed.keysBelow keyId stored storedRow
      · rw [Store.setKey_keys, Function.update_of_ne same] at row
        exact wellFormed.keysBelow keyId key row
  | minted absent =>
      show keyId < store.nextKey + 1
      by_cases same : keyId = store.nextKey
      · omega
      · simp only [Store.setKey_keys, Function.update_of_ne same] at row
        have below := wellFormed.keysBelow keyId key row
        omega

theorem KeyWrite.picked_row
    {subId userId planId picked : Nat}
    (write : KeyWrite settings store subId userId planId after picked) :
    ∃ written, after.keys picked = some written ∧
      (written.planId = planId ∨ keepsPlan settings written planId = true) := by
  cases write with
  | kept _ key found row keeps => exact ⟨key, row, .inr keeps⟩
  | upgraded _ stored found storedRow keeps => exact ⟨{ stored with planId }, by simp, .inl rfl⟩
  | minted absent => exact ⟨_, Function.update_self .., .inl rfl⟩

theorem Store.WellFormed.of_row {before after : Store} {written : Subscription}
    (wellFormed : before.WellFormed)
    (subs : after.subs = Function.update before.subs subId (some written))
    (below : subId < after.nextSub) (nextSub : before.nextSub ≤ after.nextSub)
    (keysBelow : ∀ keyId key, after.keys keyId = some key → keyId < after.nextKey)
    (kept : ∀ keyId key, before.keys keyId = some key → ∃ now, after.keys keyId = some now)
    (link : ∀ keyId, written.apiKeyId = some keyId → ∃ key, after.keys keyId = some key) :
    after.WellFormed := by
  refine ⟨keysBelow, fun otherId other found => ?_, fun otherId other keyId found toKey => ?_⟩
  · by_cases same : otherId = subId
    · omega
    · rw [subs, Function.update_of_ne same] at found
      have belowBefore := wellFormed.subsBelow otherId other found
      omega
  · by_cases same : otherId = subId
    · subst same
      rw [subs, Function.update_self] at found
      cases found
      exact link keyId toKey
    · rw [subs, Function.update_of_ne same] at found
      obtain ⟨key, row⟩ := wellFormed.linked otherId other keyId found toKey
      exact kept keyId key row

theorem ClaimWrite.wellFormed {subId userId : Nat}
    {alreadyMine : Bool} (before : store.WellFormed)
    (write : ClaimWrite settings store subId userId alreadyMine after) : after.WellFormed := by
  cases write with
  | refused => exact before
  | claimed sub row linked free =>
      exact before.of_row rfl (before.subsBelow subId sub row) (Nat.le_refl _) before.keysBelow
        (fun keyId key found => ⟨key, found⟩)
        (fun keyId toKey => before.linked subId sub keyId row toKey)
  | provisioned sub row unlinked may picked written _ provisions =>
      obtain ⟨tenantId, subs⟩ := provisions.subs
      have nextSub := provisions.nextSub
      have below := before.subsBelow subId sub row
      refine before.of_row subs (by omega) (by omega) (fun keyId key found => ?_)
        (fun keyId key found => ?_) (fun keyId toKey => ?_)
      · rw [provisions.keys] at found
        rw [provisions.nextKey]
        exact provisions.write.keysBelow before found
      · obtain ⟨now, nowRow, -⟩ := provisions.write.row before found
        exact ⟨now, by rw [provisions.keys]; exact nowRow⟩
      · cases toKey
        obtain ⟨key, keyRow, -⟩ := provisions.write.picked_row
        exact ⟨key, by rw [provisions.keys]; exact keyRow⟩

theorem RowWrite.wellFormed
    (before : store.WellFormed)
    (write : RowWrite store grant lastEventAt after subId) : after.WellFormed := by
  cases write with
  | refreshed _ sub found row =>
      exact before.of_row rfl (before.subsBelow subId sub row) (Nat.le_refl _) before.keysBelow
        (fun keyId key found => ⟨key, found⟩)
        (fun keyId toKey => before.linked subId sub keyId row toKey)
  | inserted absent =>
      exact before.of_row rfl (Nat.lt_succ_self _) (Nat.le_succ _) before.keysBelow
        (fun keyId key found => ⟨key, found⟩) (fun keyId toKey => nomatch toKey)

theorem GrantWrite.wellFormed
    {lastEventAt verifiedUser : Option Nat}
    (before : store.WellFormed)
    (write : GrantWrite settings store grant lastEventAt verifiedUser after) :
    after.WellFormed := by
  cases write with
  | rejected => exact before
  | unclaimed valid unknown subId upserted row => exact row.wellFormed before
  | claimed valid userId known subId upserted _ row claim =>
      exact claim.wellFormed (row.wellFormed before)

theorem Moved.key {before after : Store} {sub written : Subscription}
    {change : ApiKey → ApiKey} (moved : Moved before subId sub written change after)
    {key : ApiKey} (row : before.keys keyId = some key) :
    after.keys keyId = some (if sub.apiKeyId = some keyId then change key else key) := by
  rw [moved.keys, moveLinked, row]
  split <;> rfl

theorem Moved.wellFormed {before after : Store} {sub written : Subscription}
    {change : ApiKey → ApiKey} (wellFormed : before.WellFormed)
    (moved : Moved before subId sub written change after)
    (link : written.apiKeyId = sub.apiKeyId) : after.WellFormed := by
  have nextSub := moved.nextSub
  have below := wellFormed.subsBelow subId sub moved.row
  refine wellFormed.of_row moved.subs (by omega) (by omega) (fun keyId key found => ?_)
    (fun keyId key found => ⟨_, moved.key found⟩) (fun keyId toKey => ?_)
  · cases row : before.keys keyId with
    | none => simp [moved.keys, moveLinked, row] at found
    | some stored =>
        rw [moved.nextKey]
        exact wellFormed.keysBelow keyId stored row
  · rw [link] at toKey
    obtain ⟨key, row⟩ := wellFormed.linked subId sub keyId moved.row toKey
    exact ⟨_, moved.key row⟩

theorem UpdateWrite.wellFormed {choice : RowChoice}
    {externalRef : String} {change : EntitlementUpdate} (before : store.WellFormed)
    (write : UpdateWrite settings store choice externalRef change after) :
    after.WellFormed := by
  cases write with
  | absent | orphan => exact before
  | stale subId sub _ found old moved | current subId sub _ found recent moved => exact moved.wellFormed before rfl

theorem RevokeWrite.wellFormed {choice : RowChoice}
    {externalRef : String} {voluntary : Bool} {now : Nat}
    (before : store.WellFormed)
    (write : RevokeWrite settings store choice externalRef voluntary lastEventAt now after) :
    after.WellFormed := by
  cases write with
  | absent => exact before
  | scheduled subId sub _ found asked moved | stale subId sub _ found asked old moved
  | current subId sub _ found asked recent moved => exact moved.wellFormed before rfl

theorem step_wellFormed (settings : Settings) (store : Store) (event : Event)
    (before : store.WellFormed) : (step settings store event).WellFormed := by
  cases event with
  | grant grant lastEventAt verifiedUser =>
      exact (grantEntitlement_write settings store grant lastEventAt verifiedUser).wellFormed
        before
  | update choice externalRef change =>
      exact (updateEntitlement_write settings store choice externalRef change).wellFormed before
  | revoke choice externalRef voluntary lastEventAt now =>
      exact (revokeEntitlement_write settings store choice externalRef voluntary lastEventAt
        now).wellFormed before
  | login userId email =>
      exact claimSubscriptionForUser_keeps settings Store.WellFormed
        (fun _ _ _ _ _ reached write => write.wellFormed reached) store userId email before

structure Database where
  store : Store
  sound : store.WellFormed

def Database.step (settings : Settings) (database : Database) (event : Event) : Database :=
  ⟨Activation.step settings database.store event,
    step_wellFormed settings database.store event database.sound⟩

def demoSettings : Settings :=
  { plans := [⟨1, "free", 0⟩, ⟨2, "pro", 1900⟩, ⟨3, "team", 4900⟩]
    unlimitedSentinelSlug := "unlimited"
    freePlanSlug := "free"
    teamPlanSlug := "team"
    teamMinSeats := 3
    defaultPlanId := 1
    lower := id }

def emptyStore : Store :=
  { keys := fun _ => none
    nextKey := 0
    subs := fun _ => none
    nextSub := 0
    tenants := fun _ => none
    nextTenant := 0
    tenantAdmins := [] }

theorem emptyStore_wellFormed : emptyStore.WellFormed :=
  ⟨fun _ _ row => (nomatch row), fun _ _ row => (nomatch row), fun _ _ _ row => (nomatch row)⟩

theorem head?_mem (rows : List Nat) (row : Nat) (found : rows.head? = some row) : row ∈ rows :=
  List.mem_of_mem_head? found

theorem head?_total (rows : List Nat) (some : rows ≠ []) : rows.head? ≠ none :=
  fun absent => some (List.head?_eq_none_iff.mp absent)

def emptyDatabase : Database := ⟨emptyStore, emptyStore_wellFormed⟩

def oldestRow : RowChoice := ⟨List.head?, head?_mem, head?_total⟩

def noSnapshot : Snapshot := ⟨none, none, none, none, none, none⟩

theorem noSeats_positive (count : Nat) (given : (none : Option Nat) = some count) : 0 < count :=
  nomatch given

def statusUpdate (status : Status) (eventAt : Nat) : EntitlementUpdate :=
  ⟨none, some status, none, none, none, none, none, some eventAt, noSeats_positive⟩

end OdooSemantic.Billing.Activation
