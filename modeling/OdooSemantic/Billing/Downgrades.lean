import OdooSemantic.Billing.VendorFrames

/-!
# Keys above the plan of an event

A grant and a re-point leave a key alone whose plan ranks higher.  A terminal status that comes
as an update does not look at the plan of the key: it frees the sentinel plan too.
-/

set_option autoImplicit false

namespace OdooSemantic.Billing.Activation

open Billing.Entitlements (Status current greatest)
open Lib.Run

section Downgrades
variable (settings : Settings)

def eventPlan (store : Store) : Event → Option Nat
  | .grant grant _ _ => some grant.planId
  | .update choice externalRef change =>
      change.planId.or
        (((store.getByExternalRef choice externalRef).bind store.subs).map Subscription.planId)
  | _ => none

def onSentinel (planId : Nat) : Prop :=
  (planMeta settings planId).1 = some settings.unlimitedSentinelSlug

def Protected (store : Store) (event : Event) (key : ApiKey) : Prop :=
  onSentinel settings key.planId ∨
    ∃ planId, eventPlan store event = some planId ∧
      rankOf settings planId < rankOf settings key.planId

def grantOrUpdate : Event → Prop
  | .grant _ _ _ => True
  | .update _ _ _ => True
  | _ => False

def KeepsPlans (store : Store) (event : Event) : Prop :=
  grantOrUpdate event → ∀ subId sub keyId key, store.subs subId = some sub →
    sub.apiKeyId = some keyId → store.keys keyId = some key → Protected settings store event key →
      ∃ now, (step settings store event).keys keyId = some now ∧
        rankOf settings key.planId ≤ rankOf settings now.planId

/-- A terminal update that is current finds its key no higher than the free plan, or not
protected. -/
def EndsLow (store : Store) : Event → Prop
  | .update choice externalRef change =>
      change.status.any terminal = true → ∀ subId sub keyId key free,
        store.getByExternalRef choice externalRef = some subId → store.subs subId = some sub →
        sub.apiKeyId = some keyId → store.keys keyId = some key →
        current change.lastEventAt sub.lastEventAt = true → freePlanId settings = some free →
        Protected settings store (.update choice externalRef change) key →
          rankOf settings key.planId ≤ rankOf settings free
  | _ => True

variable {settings}

theorem moveLinked_other {keys : Nat → Option ApiKey} {linked : Option Nat}
    {change : ApiKey → ApiKey} {keyId : Nat} (other : linked ≠ some keyId) :
    moveLinked keys linked change keyId = keys keyId := by
  rw [moveLinked, if_neg other]

theorem moveLinked_key {keys : Nat → Option ApiKey} {change : ApiKey → ApiKey} {keyId : Nat}
    {key : ApiKey} (row : keys keyId = some key) :
    moveLinked keys (some keyId) change keyId = some (change key) := by
  rw [moveLinked, if_pos rfl, row]
  rfl

theorem Moved.rank {before after : Store} {subId : Nat} {sub written : Subscription}
    {change : ApiKey → ApiKey} (moved : Moved before subId sub written change after)
    {keyId : Nat} {key : ApiKey} (row : before.keys keyId = some key)
    (kept : sub.apiKeyId = some keyId →
      rankOf settings key.planId ≤ rankOf settings (change key).planId) :
    ∃ now, after.keys keyId = some now ∧
      rankOf settings key.planId ≤ rankOf settings now.planId := by
  rw [moved.keys]
  by_cases linked : sub.apiKeyId = some keyId
  · rw [linked, moveLinked_key row]
    exact ⟨change key, rfl, kept linked⟩
  · rw [moveLinked_other linked, row]
    exact ⟨key, rfl, Nat.le_refl _⟩

theorem UpdateWrite.keepsPlans_iff {store : Store} {choice : RowChoice} {externalRef : String}
    {change : EntitlementUpdate} {after : Store}
    (write : UpdateWrite settings store choice externalRef change after) :
    (∀ subId sub keyId key, store.subs subId = some sub → sub.apiKeyId = some keyId →
      store.keys keyId = some key →
      Protected settings store (.update choice externalRef change) key →
        ∃ now, after.keys keyId = some now ∧
          rankOf settings key.planId ≤ rankOf settings now.planId) ↔
      EndsLow settings store (.update choice externalRef change) := by
  constructor
  · intro keeps ends subId sub keyId key free found row linked keyRow recent isFree above
    obtain ⟨now, nowRow, rank⟩ := keeps subId sub keyId key row linked keyRow above
    cases write with
    | absent missing =>
        rw [missing] at found
        cases found
    | stale other stored _ otherFound old moved =>
        rw [found] at otherFound
        cases otherFound
        rw [moved.row] at row
        cases row
        rw [old] at recent
        cases recent
    | orphan other stored otherFound storedRow _ unanchored =>
        rw [found] at otherFound
        cases otherFound
        rw [row] at storedRow
        cases storedRow
        simp [anchored, EntitlementUpdate.apply, linked] at unanchored
    | current other stored _ otherFound _ moved =>
        rw [found] at otherFound
        cases otherFound
        rw [moved.row] at row
        cases row
        rw [moved.keys, linked, moveLinked_key keyRow, updatedKey, if_pos ends, freed,
          isFree] at nowRow
        cases nowRow
        exact rank
  · intro low subId sub keyId key row linked keyRow above
    cases write with
    | absent | orphan => exact ⟨key, keyRow, Nat.le_refl _⟩
    | stale other stored _ found old moved => exact moved.rank keyRow fun _ => Nat.le_refl _
    | current other stored _ found recent moved =>
        refine moved.rank keyRow fun toKey => ?_
        rw [updatedKey]
        by_cases ends : change.status.any terminal = true
        · rw [if_pos ends, freed]
          cases isFree : freePlanId settings with
          | none => exact Nat.le_refl _
          | some free =>
              exact low ends other stored keyId key free found moved.row toKey keyRow recent isFree
                above
        · rw [if_neg ends]
          exact repointed_rank stored change.planId key

theorem keepsPlans_iff {store : Store} {event : Event} (wellFormed : store.WellFormed) :
    KeepsPlans settings store event ↔ EndsLow settings store event := by
  cases event with
  | grant grant lastEventAt verifiedUser =>
      refine iff_of_true (fun _ subId sub keyId key row linked keyRow _ => ?_) trivial
      exact (grantEntitlement_write settings store grant lastEventAt verifiedUser).rank
        wellFormed keyRow
  | update choice externalRef change =>
      have exact_ := (updateEntitlement_write settings store choice externalRef
        change).keepsPlans_iff
      exact ⟨fun keeps => exact_.mp (keeps trivial), fun low _ => exact_.mpr low⟩
  | revoke choice externalRef voluntary lastEventAt now | login userId email => exact iff_of_true nofun trivial

/-- Every grant and every update of a run keeps the plans of the keys above it exactly when no
terminal update ends such a key. -/
theorem run_keepsPlans_iff (settings : Settings) (start : Database) (events : List Event) :
    AllSteps (step settings) (KeepsPlans settings) start.store events ↔
      AllSteps (step settings) (EndsLow settings) start.store events := by
  constructor
  · intro steps
    exact allSteps_of_guarded (step settings) (KeepsPlans settings) (EndsLow settings)
      Store.WellFormed (fun store event _ inv => step_wellFormed settings store event inv)
      (fun store event keeps inv => (keepsPlans_iff inv).mp keeps) events start.store steps
      start.sound
  · intro steps
    exact allSteps_of_guarded (step settings) (EndsLow settings) (KeepsPlans settings)
      Store.WellFormed (fun store event _ inv => step_wellFormed settings store event inv)
      (fun store event low inv => (keepsPlans_iff inv).mpr low) events start.store steps
      start.sound

end Downgrades

def teamPurchase (externalRef : String) (eventAt : Nat) : Event :=
  .grant ⟨3, externalRef, .polar, 3, some "ada@example.com", noSnapshot⟩ (some eventAt) (some 7)

/-- The end of the pro purchase frees the key that is on the team plan. -/
theorem team_key_freed :
    ¬ AllSteps (step demoSettings) (KeepsPlans demoSettings) emptyDatabase.store
      [proPurchase "first" 10, teamPurchase "second" 20,
        .update oldestRow "first" (statusUpdate .cancelled 30)] := by
  intro steps
  obtain ⟨key, row, rank⟩ := steps.2.2.1 trivial 0 _ 0 _ rfl rfl rfl (.inr ⟨2, rfl, by decide⟩)
  cases row
  exact absurd rank (by decide)

end OdooSemantic.Billing.Activation
