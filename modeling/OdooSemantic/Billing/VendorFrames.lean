import OdooSemantic.Billing.KeyPlans

/-!
# What an event of one vendor leaves of another vendor's rows

Rows are found by source and reference when a grant writes them and by the reference alone
otherwise.  Keys belong to the buyer, whichever vendors sold the subscriptions on them.
-/

set_option autoImplicit false

namespace OdooSemantic.Billing.Activation

open Billing.Entitlements (Status Raised current greatest)
open Lib.Run

section VendorFrames
variable (settings : Settings)

def ofVendor (source : Source) : Event → Prop
  | .grant grant _ _ => grant.source = source
  | .update _ _ _ => True
  | .revoke _ _ _ _ _ => True
  | .login _ _ => False

def foundRow (store : Store) : Event → Option Nat
  | .grant _ _ _ => none
  | .update choice externalRef _ | .revoke choice externalRef _ _ _ =>
      store.getByExternalRef choice externalRef
  | .login _ _ => none

def ownKey (store : Store) (source : Source) (keyId : Nat) : Event → Prop
  | .grant grant _ verifiedUser =>
      ∃ userId, buyer grant verifiedUser = some userId ∧
        (store.firstActiveKey userId = some keyId ∨ store.keys keyId = none)
  | .update choice externalRef _ | .revoke choice externalRef _ _ _ =>
      ∃ subId sub, store.getByExternalRef choice externalRef = some subId ∧
        store.subs subId = some sub ∧ sub.source ≠ source ∧ sub.apiKeyId = some keyId
  | .login _ _ => False

variable {settings}

variable {keyId : Nat} {alreadyMine : Bool} {otherId : Nat} {grant : EntitlementGrant}
variable {choice : RowChoice} {externalRef : String}

variable {store after : Store} {lastEventAt verifiedUser : Option Nat} {subId userId : Nat}

theorem KeyWrite.other_keys {subId userId planId picked : Nat}
    (write : KeyWrite settings store subId userId planId after picked)
    (changed : after.keys keyId ≠ store.keys keyId) :
    store.firstActiveKey userId = some keyId ∨ keyId = store.nextKey := by
  cases write with
  | kept => exact absurd rfl changed
  | upgraded _ key found row keeps =>
      by_cases same : keyId = picked
      · exact .inl (same ▸ found)
      · exact absurd (Function.update_of_ne same ..) changed
  | minted absent =>
      by_cases same : keyId = store.nextKey
      · exact .inr same
      · exact absurd (Function.update_of_ne same ..) changed

theorem ClaimWrite.other_rows
    (write : ClaimWrite settings store subId userId alreadyMine after)
    (different : otherId ≠ subId) : after.subs otherId = store.subs otherId := by
  cases write with
  | refused => rfl
  | claimed => exact Function.update_of_ne different ..
  | provisioned sub row unlinked may picked written _ provisions =>
      obtain ⟨tenantId, subs⟩ := provisions.subs
      rw [subs, Function.update_of_ne different]

theorem ClaimWrite.other_keys
    (write : ClaimWrite settings store subId userId alreadyMine after)
    (changed : after.keys keyId ≠ store.keys keyId) :
    store.firstActiveKey userId = some keyId ∨ keyId = store.nextKey := by
  cases write with
  | refused | claimed => exact absurd rfl changed
  | provisioned sub row unlinked may picked written _ provisions =>
      rw [provisions.keys] at changed
      exact provisions.write.other_keys changed

theorem ClaimWrite.rank
    (wellFormed : store.WellFormed)
    (write : ClaimWrite settings store subId userId alreadyMine after)
    {key : ApiKey} (row : store.keys keyId = some key) :
    ∃ now, after.keys keyId = some now ∧
      rankOf settings key.planId ≤ rankOf settings now.planId := by
  cases write with
  | refused | claimed => exact ⟨key, row, Nat.le_refl _⟩
  | provisioned sub subRow unlinked may picked written _ provisions =>
      rw [provisions.keys]
      exact provisions.write.rank wellFormed row

theorem RowWrite.other_vendor (wellFormed : store.WellFormed)
    {lastEventAt : Option Nat} {subId : Nat}
    (write : RowWrite store grant lastEventAt after subId)
    {other : Subscription} (row : store.subs otherId = some other)
    (different : other.source ≠ grant.source) :
    otherId ≠ subId ∧ after.subs otherId = some other := by
  cases write with
  | refreshed _ sub found subRow =>
      have apart : otherId ≠ subId := by
        intro same
        subst same
        obtain ⟨stored, storedRow, source, _⟩ := Store.conflicting_some found
        rw [row] at storedRow
        cases storedRow
        exact different source
      exact ⟨apart, by rw [Store.setSub_subs, Function.update_of_ne apart, row]⟩
  | inserted absent =>
      have below := wellFormed.subsBelow otherId other row
      have apart : otherId ≠ store.nextSub := by omega
      exact ⟨apart, by simp [Function.update_of_ne apart, row]⟩

theorem GrantWrite.other_vendor (wellFormed : store.WellFormed)
    (write : GrantWrite settings store grant lastEventAt verifiedUser after)
    {other : Subscription} (row : store.subs otherId = some other)
    (different : other.source ≠ grant.source) : after.subs otherId = some other := by
  cases write with
  | rejected => exact row
  | unclaimed valid unknown subId _ rowWrite =>
      exact (rowWrite.other_vendor wellFormed row different).2
  | claimed valid userId known subId upserted _ rowWrite claim =>
      obtain ⟨apart, upsertedRow⟩ := rowWrite.other_vendor wellFormed row different
      rw [claim.other_rows apart, upsertedRow]

theorem GrantWrite.other_keys (wellFormed : store.WellFormed)
    (write : GrantWrite settings store grant lastEventAt verifiedUser after)
    (changed : after.keys keyId ≠ store.keys keyId) :
    ∃ userId, buyer grant verifiedUser = some userId ∧
      (store.firstActiveKey userId = some keyId ∨ store.keys keyId = none) := by
  cases write with
  | rejected => exact absurd rfl changed
  | unclaimed valid unknown subId _ rowWrite =>
      exact absurd (congrFun rowWrite.kept.2.1 keyId) changed
  | claimed valid userId known subId upserted _ rowWrite claim =>
      obtain ⟨_, keys, nextKey⟩ := rowWrite.kept
      have sameFirst : upserted.firstActiveKey userId = store.firstActiveKey userId := by
        simp only [Store.firstActiveKey, keys, nextKey]
      rw [← keys] at changed
      refine ⟨userId, known, ?_⟩
      rcases claim.other_keys changed with picked | fresh
      · exact .inl (sameFirst ▸ picked)
      · refine .inr ?_
        cases row : store.keys keyId with
        | none => rfl
        | some key =>
            have below := wellFormed.keysBelow keyId key row
            omega

theorem GrantWrite.rank (wellFormed : store.WellFormed)
    (write : GrantWrite settings store grant lastEventAt verifiedUser after)
    {key : ApiKey} (row : store.keys keyId = some key) :
    ∃ now, after.keys keyId = some now ∧
      rankOf settings key.planId ≤ rankOf settings now.planId := by
  cases write with
  | rejected => exact ⟨key, row, Nat.le_refl _⟩
  | unclaimed valid unknown subId _ rowWrite =>
      exact ⟨key, by rw [rowWrite.kept.2.1]; exact row, Nat.le_refl _⟩
  | claimed valid userId known subId upserted _ rowWrite claim =>
      exact claim.rank (rowWrite.wellFormed wellFormed) (by rw [rowWrite.kept.2.1]; exact row)

theorem Moved.frame {before after : Store} {subId : Nat} {sub written : Subscription}
    {change : ApiKey → ApiKey} (moved : Moved before subId sub written change after) :
    (∀ otherId, otherId ≠ subId → after.subs otherId = before.subs otherId) ∧
      ∀ keyId, after.keys keyId ≠ before.keys keyId → sub.apiKeyId = some keyId := by
  constructor
  · intro otherId different
    rw [moved.subs, Function.update_of_ne different]
  · intro keyId changed
    by_contra unlinked
    refine changed ?_
    rw [moved.keys]
    simp only [moveLinked, if_neg unlinked]

/-- An event that is looked up by a reference writes the row it finds and the key of that row. -/
theorem UpdateWrite.frame
    {change : EntitlementUpdate}
    (write : UpdateWrite settings store choice externalRef change after) :
    after = store ∨ ∃ subId sub written keyChange,
      store.getByExternalRef choice externalRef = some subId ∧
        Moved store subId sub written keyChange after := by
  cases write with
  | absent | orphan => exact .inl rfl
  | stale subId sub _ found old moved | current subId sub _ found recent moved => exact .inr ⟨subId, sub, _, _, found, moved⟩

theorem RevokeWrite.frame
    {voluntary : Bool} {lastEventAt : Option Nat} {now : Nat}
    (write : RevokeWrite settings store choice externalRef voluntary lastEventAt now after) :
    after = store ∨ ∃ subId sub written keyChange,
      store.getByExternalRef choice externalRef = some subId ∧
        Moved store subId sub written keyChange after := by
  cases write with
  | absent => exact .inl rfl
  | scheduled subId sub _ found asked moved | stale subId sub _ found asked old moved => exact .inr ⟨subId, sub, _, _, found, moved⟩
  | current subId sub _ found asked recent moved =>
      exact .inr ⟨subId, sub, _, _, found, moved⟩

/-- The row that is found is not one of the source: its rows stay, and so do keys that are not
linked to the row that is found. -/
theorem lookup_frame (source : Source)
    (frame : after = store ∨ ∃ subId sub written keyChange,
      store.getByExternalRef choice externalRef = some subId ∧
        Moved store subId sub written keyChange after)
    (foreign : ∀ subId sub, store.getByExternalRef choice externalRef = some subId →
      store.subs subId = some sub → sub.source ≠ source) :
    (∀ subId sub, store.subs subId = some sub → sub.source = source →
      after.subs subId = some sub) ∧
      ∀ keyId, after.keys keyId ≠ store.keys keyId →
        ∃ subId sub, store.getByExternalRef choice externalRef = some subId ∧
          store.subs subId = some sub ∧ sub.source ≠ source ∧ sub.apiKeyId = some keyId := by
  rcases frame with same | ⟨foundId, found, written, keyChange, lookup, moved⟩
  · subst same
    exact ⟨fun _ _ row _ => row, fun _ changed => absurd rfl changed⟩
  · have other := foreign foundId found lookup moved.row
    obtain ⟨rows, keys⟩ := moved.frame
    refine ⟨fun subId sub row same => ?_, fun keyId changed =>
      ⟨foundId, found, lookup, moved.row, other, keys keyId changed⟩⟩
    have apart : subId ≠ foundId := by
      intro sameId
      subst sameId
      rw [moved.row] at row
      cases row
      exact other same
    rw [rows subId apart, row]

theorem lookup_absent {found : Option Nat} {source : Source}
    (keys : ∀ keyId, after.keys keyId ≠ store.keys keyId → ∃ subId sub, found = some subId ∧
      store.subs subId = some sub ∧ sub.source ≠ source ∧ sub.apiKeyId = some keyId)
    (absent : found = none) (keyId : Nat) : after.keys keyId = store.keys keyId := by
  by_contra changed
  obtain ⟨subId, _, lookup, _⟩ := keys keyId changed
  rw [absent] at lookup
  cases lookup

variable (settings)

/-- An event of one vendor and the rows and keys of another. -/
theorem vendor_frame (source vendor : Source) (different : source ≠ vendor)
    (database : Database) (event : Event) (sold : ofVendor vendor event)
    (foreign : ∀ subId sub, foundRow database.store event = some subId →
      database.store.subs subId = some sub → sub.source ≠ source) :
    (∀ subId sub, database.store.subs subId = some sub → sub.source = source →
      (step settings database.store event).subs subId = some sub) ∧
    (∀ keyId, (step settings database.store event).keys keyId ≠ database.store.keys keyId →
      ownKey database.store source keyId event) ∧
    (foundRow database.store event = none → ∀ keyId key, database.store.keys keyId = some key →
      ∃ now, (step settings database.store event).keys keyId = some now ∧
        rankOf settings key.planId ≤ rankOf settings now.planId) := by
  cases event with
  | grant grant lastEventAt verifiedUser =>
      have write :=
        grantEntitlement_write settings database.store grant lastEventAt verifiedUser
      have seller : grant.source = vendor := sold
      exact ⟨fun subId sub row same => write.other_vendor database.sound row
          (by rw [same, seller]; exact different),
        fun keyId changed => write.other_keys database.sound changed,
        fun _ keyId key row => write.rank database.sound row⟩
  | update choice externalRef change =>
      have frame := lookup_frame source
        (updateEntitlement_write settings database.store choice externalRef change).frame foreign
      exact ⟨frame.1, frame.2, fun absent keyId key row =>
        ⟨key, (lookup_absent frame.2 absent keyId).trans row, Nat.le_refl _⟩⟩
  | revoke choice externalRef voluntary lastEventAt now =>
      have frame := lookup_frame source
        (revokeEntitlement_write settings database.store choice externalRef voluntary lastEventAt
          now).frame foreign
      exact ⟨frame.1, frame.2, fun absent keyId key row =>
        ⟨key, (lookup_absent frame.2 absent keyId).trans row, Nat.le_refl _⟩⟩
  | login userId email => exact absurd sold id

end VendorFrames

/-- Three seats of the team plan from one vendor, one seat of the pro plan from another. -/
def teamOrder (externalRef : String) (userId : Nat) : Event :=
  .grant ⟨3, externalRef, .polar, 3, some "ada@example.com", noSnapshot⟩ (some 20) (some userId)

def erpOrder (externalRef : String) (userId : Nat) : Event :=
  .grant ⟨2, externalRef, .erp, 1, some "ada@example.com", noSnapshot⟩ (some 10) (some userId)

def afterErp : Database := emptyDatabase.step demoSettings (erpOrder "shared" 7)

/-- A purchase from another vendor upgrades the key of the row, and an update of the other
vendor's purchase under the same reference is taken for one of the row. -/
theorem shared_buyer_and_reference :
    (∃ sub, afterErp.store.subs 0 = some sub ∧ sub.source = .erp ∧ sub.apiKeyId = some 0 ∧
      (step demoSettings afterErp.store (teamOrder "other" 7)).keys 0 ≠ afterErp.store.keys 0) ∧
    ∃ sub, (afterErp.step demoSettings (teamOrder "shared" 8)).store.subs 0 = some sub ∧
      sub.source = .erp ∧ sub.status = .active ∧
      (((afterErp.step demoSettings (teamOrder "shared" 8)).step demoSettings
        (.update oldestRow "shared" (statusUpdate .pastDue 30))).store.subs 0).map (·.status) =
          some .pastDue := by
  refine ⟨⟨_, rfl, rfl, rfl, fun same => ?_⟩, ⟨_, rfl, rfl, rfl, rfl⟩⟩
  have plan := congrArg (Option.map ApiKey.planId) same
  exact absurd plan (by decide)

theorem other_buyer_frame :
    (step demoSettings afterErp.store (teamOrder "shared" 8)).subs 0 = afterErp.store.subs 0 := by
  have frame := vendor_frame demoSettings .erp .polar nofun afterErp (teamOrder "shared" 8) rfl
    (fun _ _ found => (nomatch found))
  exact frame.1 0 _ rfl rfl

end OdooSemantic.Billing.Activation
