import OdooSemantic.Billing.Effects

/-!
# Paid plans on behalf of a subscription that is not entitled

A grant that is stale leaves the status of its row and goes on to provision, and an update
whose status is neither entitled nor terminal re-points the key all the same.
-/

set_option autoImplicit false

namespace OdooSemantic.Billing.Activation

open Billing.Entitlements (Status Raised current greatest)
open Lib.Run

section PaidAccess
variable (settings : Settings)

def actedRow (store : Store) : Event → Option Nat
  | .grant grant _ _ =>
      some ((store.conflicting grant.source grant.externalRef).getD store.nextSub)
  | .update choice externalRef _ => store.getByExternalRef choice externalRef
  | .revoke choice externalRef _ _ _ => store.getByExternalRef choice externalRef
  | .login _ _ => none

/-- `api_key_id` of a subscription. -/
def Store.link (store : Store) (subId : Nat) : Option Nat :=
  (store.subs subId).bind Subscription.apiKeyId

def GivesPaid (keysBefore keysAfter : Nat → Option ApiKey) (linkBefore linkAfter : Option Nat) :
    Prop :=
  ∃ keyId key, keysAfter keyId = some key ∧ isPaidPlan settings key.planId = true ∧
    ((keysBefore keyId).map ApiKey.planId ≠ some key.planId ∨
      linkAfter = some keyId ∧ linkBefore ≠ some keyId)

def PaysOnlyEntitled (store : Store) (event : Event) : Prop :=
  ∀ subId sub, actedRow store event = some subId →
    (step settings store event).subs subId = some sub → entitled sub.status = false →
      ¬ GivesPaid settings store.keys (step settings store event).keys (store.link subId)
        sub.apiKeyId

/-- The plan of the first active key if that outranks the row's, or the row's. -/
def provisionedPlan (store : Store) (userId planId : Nat) : Nat :=
  (((store.firstActiveKey userId).bind store.keys).filter
    (keepsPlan settings · planId)).elim planId ApiKey.planId

/-- A stale grant of a row that is not entitled, not linked and free for its buyer is of the
free plan; an update that leaves its row not entitled and not ended finds the key on the paid
plan it resolves or above. -/
def HoldsBack (store : Store) : Event → Prop
  | .grant grant lastEventAt verifiedUser =>
      accepted settings grant → ∀ subId sub userId,
        store.conflicting grant.source grant.externalRef = some subId →
        store.subs subId = some sub → current lastEventAt sub.lastEventAt = false →
        entitled sub.status = false → sub.apiKeyId = none →
        buyer grant verifiedUser = some userId →
        sub.claimedUserId = none ∨ sub.claimedUserId = some userId →
          isPaidPlan settings (provisionedPlan settings store userId sub.planId) = false
  | .update choice externalRef change =>
      ∀ subId sub keyId key, store.getByExternalRef choice externalRef = some subId →
        store.subs subId = some sub → sub.apiKeyId = some keyId →
        store.keys keyId = some key → current change.lastEventAt sub.lastEventAt = true →
        change.status.any terminal = false →
        entitled (change.status.getD sub.status) = false →
        isPaidPlan settings (change.planId.getD sub.planId) = true →
          key.planId = change.planId.getD sub.planId ∨
            planOutranks settings key.planId (change.planId.getD sub.planId) = true
  | .revoke _ _ _ _ _ => True
  | .login _ _ => True

variable {settings}

theorem givesPaid_same {keys : Nat → Option ApiKey} {link : Option Nat} :
    ¬ GivesPaid settings keys keys link link := by
  intro gives
  obtain ⟨keyId, key, row, _, changed⟩ := gives
  rcases changed with moved | ⟨linked, unlinked⟩
  · exact moved (by rw [row]; rfl)
  · exact unlinked linked

variable {store after : Store} {subId : Nat}

theorem KeyWrite.gives_iff {subId userId planId picked : Nat}
    (write : KeyWrite settings store subId userId planId after picked) :
    GivesPaid settings store.keys after.keys none (some picked) ↔
      isPaidPlan settings (provisionedPlan settings store userId planId) = true := by
  obtain ⟨key, keyRow, plan⟩ : ∃ key, after.keys picked = some key ∧
      key.planId = provisionedPlan settings store userId planId := by
    cases write with
    | kept _ key found row keeps =>
        exact ⟨key, row, by simp [provisionedPlan, found, row, Option.filter, keeps]⟩
    | upgraded _ key found row keeps =>
        exact ⟨_, Function.update_self .., by simp [provisionedPlan, found, row, Option.filter, keeps]⟩
    | minted absent =>
        exact ⟨_, Function.update_self .., by simp [provisionedPlan, absent]⟩
  have others : ∀ keyId, keyId ≠ picked → after.keys keyId = store.keys keyId := by
    intro keyId different
    cases write with
    | kept => rfl
    | upgraded | minted => exact Function.update_of_ne different ..
  rw [← plan]
  constructor
  · intro gives
    obtain ⟨keyId, now, nowRow, paid, changed⟩ := gives
    by_cases same : keyId = picked
    · subst same
      rw [keyRow] at nowRow
      cases nowRow
      exact paid
    · rcases changed with moved | ⟨linked, _⟩
      · rw [others keyId same] at nowRow
        exact absurd (by rw [nowRow]; rfl) moved
      · exact absurd (Option.some.inj linked).symm same
  · intro paid
    exact ⟨picked, key, keyRow, paid, .inr ⟨rfl, nofun⟩⟩

theorem RowWrite.unentitled {grant : EntitlementGrant}
    {lastEventAt : Option Nat}
    (write : RowWrite store grant lastEventAt after subId) {now : Subscription}
    (nowRow : after.subs subId = some now) (left : entitled now.status = false) :
    ∃ sub, store.conflicting grant.source grant.externalRef = some subId ∧
      store.subs subId = some sub ∧ current lastEventAt sub.lastEventAt = false ∧
      now = Activation.refreshed grant lastEventAt sub ∧ entitled sub.status = false := by
  cases write with
  | inserted absent =>
      simp only [Store.setSub_subs, Function.update_self] at nowRow
      cases nowRow
      cases left
  | refreshed _ sub found row =>
      rw [Store.setSub_subs, Function.update_self] at nowRow
      cases nowRow
      cases recent : Entitlements.current lastEventAt sub.lastEventAt with
      | true =>
          rw [(refreshed_recent grant recent).1] at left
          cases left
      | false =>
          rw [(refreshed_stale grant recent).1] at left
          exact ⟨sub, found, row, recent, rfl, left⟩

theorem provisionedPlan_congr {before after : Store} (keys : after.keys = before.keys)
    (nextKey : after.nextKey = before.nextKey) (userId planId : Nat) :
    provisionedPlan settings after userId planId =
      provisionedPlan settings before userId planId := by
  simp only [provisionedPlan, Store.firstActiveKey, keys, nextKey]

theorem ClaimWrite.row {subId userId : Nat} {alreadyMine : Bool}
    (write : ClaimWrite settings store subId userId alreadyMine after) {now : Subscription}
    (nowRow : after.subs subId = some now) :
    ∃ sub, store.subs subId = some sub ∧ now.status = sub.status ∧
      (after.keys = store.keys ∧ now.apiKeyId = sub.apiKeyId ∨
        sub.apiKeyId = none ∧ (alreadyMine = true ∨ sub.claimedUserId = none) ∧
          ∃ picked written,
            KeyWrite settings store subId userId sub.planId written picked ∧
              after.keys = written.keys ∧ now.apiKeyId = some picked) := by
  cases write with
  | refused => exact ⟨now, nowRow, rfl, .inl ⟨rfl, rfl⟩⟩
  | claimed sub row linked free =>
      rw [Store.setSub_subs, Function.update_self] at nowRow
      cases nowRow
      exact ⟨sub, row, rfl, .inl ⟨rfl, rfl⟩⟩
  | provisioned sub row unlinked may picked written _ provisions =>
      obtain ⟨tenantId, subs⟩ := provisions.subs
      rw [subs, Function.update_self] at nowRow
      cases nowRow
      exact ⟨sub, row, rfl, .inr ⟨unlinked, may, picked, written, provisions.write,
        provisions.keys, rfl⟩⟩

theorem GrantWrite.paysOnlyEntitled_iff {grant : EntitlementGrant}
    {lastEventAt verifiedUser : Option Nat}
    (write : GrantWrite settings store grant lastEventAt verifiedUser after) :
    (∀ subId sub,
      some ((store.conflicting grant.source grant.externalRef).getD store.nextSub) = some subId →
      after.subs subId = some sub → entitled sub.status = false →
        ¬ GivesPaid settings store.keys after.keys (store.link subId) sub.apiKeyId) ↔
      HoldsBack settings store (.grant grant lastEventAt verifiedUser) := by
  cases write with
  | rejected invalid =>
      refine iff_of_true (fun subId sub _ row _ => ?_) fun valid => absurd valid invalid
      have link : store.link subId = sub.apiKeyId := by simp [Store.link, row]
      rw [link]
      exact givesPaid_same
  | unclaimed valid unknown written _ rowWrite =>
      refine iff_of_true (fun subId sub acted row left => ?_) fun _ subId sub userId _ _ _ _ _
        known => by rw [unknown] at known; cases known
      obtain ⟨same, keys, _⟩ := rowWrite.kept
      rw [← same] at acted
      cases acted
      obtain ⟨stored, _, storedRow, _, now, _⟩ := rowWrite.unentitled row left
      have link : store.link written = sub.apiKeyId := by
        rw [now]
        simp [Store.link, storedRow, Activation.refreshed]
      rw [link, keys]
      exact givesPaid_same
  | claimed valid userId known written upserted _ rowWrite claim =>
      obtain ⟨same, keys, nextKey⟩ := rowWrite.kept
      rw [← same]
      constructor
      · intro holds _ subId sub user found row old left unlinked foundUser may
        rw [known] at foundUser
        cases foundUser
        obtain ⟨sameRow, upsertedRow⟩ := rowWrite.found found row
        subst sameRow
        obtain ⟨status, plan⟩ := refreshed_stale grant old
        cases claim with
        | refused out =>
            rcases out _ upsertedRow with linked | ⟨other, taken⟩
            · simp [Activation.refreshed, unlinked] at linked
            · rcases may with free | mine
              · exact absurd free taken
              · simp [alreadyMine, upsertedRow, Activation.refreshed, mine] at other
        | claimed _ claimedRow linked free =>
            rw [upsertedRow] at claimedRow
            cases claimedRow
            simp [Activation.refreshed, unlinked] at linked
        | provisioned _ claimedRow _ _ picked provisioned _ provisions =>
            rw [upsertedRow] at claimedRow
            cases claimedRow
            obtain ⟨tenantId, subs⟩ := provisions.subs
            have link : store.link written = none := by simp [Store.link, row, unlinked]
            have safe := holds written _ rfl (by rw [subs, Function.update_self])
              (by rw [← left]; exact congrArg entitled status)
            rw [link, provisions.keys, ← keys, provisions.write.gives_iff,
              provisionedPlan_congr keys nextKey, plan] at safe
            simpa using safe
      · intro holds subId sub acted row left gives
        cases acted
        obtain ⟨claimed, claimedRow, status, claimedCases⟩ := claim.row row
        rw [status] at left
        obtain ⟨stored, found, storedRow, old, refreshed, unentitled⟩ :=
          rowWrite.unentitled claimedRow left
        have link : store.link written = claimed.apiKeyId := by
          rw [refreshed]
          simp [Store.link, storedRow, Activation.refreshed]
        rcases claimedCases with ⟨sameKeys, sameLink⟩ |
          ⟨unlinked, may, picked, provisioned, keyWrite, afterKeys, linked⟩
        · rw [sameKeys, sameLink, link, keys] at gives
          exact givesPaid_same gives
        · have plan : claimed.planId = stored.planId := by
            rw [refreshed]
            exact (refreshed_stale grant old).2
          have claims : stored.claimedUserId = claimed.claimedUserId := by rw [refreshed]; rfl
          have links : stored.apiKeyId = claimed.apiKeyId := by rw [refreshed]; rfl
          have mayClaim : stored.claimedUserId = none ∨ stored.claimedUserId = some userId := by
            rcases may with mine | free
            · exact .inr (by simpa [alreadyMine, claimedRow, claims] using mine)
            · exact .inl (claims.trans free)
          have unpaid := holds valid written stored userId found storedRow old unentitled
            (links.trans unlinked) known mayClaim
          rw [link, unlinked, linked, afterKeys, ← keys, keyWrite.gives_iff,
            provisionedPlan_congr keys nextKey, plan, unpaid] at gives
          cases gives

theorem Moved.gives_iff {before after : Store} {sub written : Subscription}
    {change : ApiKey → ApiKey} (moved : Moved before subId sub written change after)
    (link : written.apiKeyId = sub.apiKeyId) :
    GivesPaid settings before.keys after.keys (before.link subId) written.apiKeyId ↔
      ∃ keyId key, sub.apiKeyId = some keyId ∧ before.keys keyId = some key ∧
        isPaidPlan settings (change key).planId = true ∧ key.planId ≠ (change key).planId := by
  have sameLink : before.link subId = written.apiKeyId := by
    simp [Store.link, moved.row, link]
  constructor
  · intro gives
    obtain ⟨keyId, now, nowRow, paid, changed⟩ := gives
    have planMoved : (before.keys keyId).map ApiKey.planId ≠ some now.planId := by
      rcases changed with planMoved | ⟨linked, unlinked⟩
      · exact planMoved
      · exact absurd (sameLink.trans linked) unlinked
    cases row : before.keys keyId with
    | none => simp [moved.keys, moveLinked, row] at nowRow
    | some key =>
        have known := moved.key row
        rw [known] at nowRow
        by_cases linked : sub.apiKeyId = some keyId
        · rw [if_pos linked] at nowRow
          cases nowRow
          exact ⟨keyId, key, linked, row, paid, by simpa [row] using planMoved⟩
        · rw [if_neg linked] at nowRow
          cases nowRow
          exact absurd (by rw [row]; rfl) planMoved
  · intro pays
    obtain ⟨keyId, key, linked, row, paid, planMoved⟩ := pays
    have known := moved.key row
    rw [if_pos linked] at known
    exact ⟨keyId, change key, known, paid, .inl (by simpa [row] using planMoved)⟩

theorem Moved.gives_none {before after : Store} {sub written : Subscription}
    (moved : Moved before subId sub written id after) (link : written.apiKeyId = sub.apiKeyId) :
    ¬ GivesPaid settings before.keys after.keys (before.link subId) written.apiKeyId := by
  rw [moved.gives_iff link]
  intro pays
  obtain ⟨_, _, _, _, _, changed⟩ := pays
  exact changed rfl

theorem freed_unpaid (settings : Settings) (key : ApiKey) :
    isPaidPlan settings (freed settings key).planId = false ∨
      key.planId = (freed settings key).planId := by
  cases isFree : freePlanId settings with
  | none => exact .inr (by simp [freed, isFree])
  | some free => exact .inl (by simp [freed, isFree, isPaidPlan])

theorem repointed_pays_iff {sub : Subscription} {planId : Option Nat} {key : ApiKey} :
    isPaidPlan settings (repointed settings sub planId key).planId = true ∧
        key.planId ≠ (repointed settings sub planId key).planId ↔
      isPaidPlan settings (planId.getD sub.planId) = true ∧
        ¬ (key.planId = planId.getD sub.planId ∨
          planOutranks settings key.planId (planId.getD sub.planId) = true) := by
  by_cases moves : repoints settings sub planId key = true
  · have target : (repointed settings sub planId key).planId = planId.getD sub.planId := by
      simp only [repointed, moves, if_true]
    simp only [repoints, Bool.and_eq_true, Bool.not_eq_true', bne_iff_ne] at moves
    simp [target, moves.1.2]
  · have stays : repointed settings sub planId key = key := by
      simp only [repointed, if_neg moves]
    rw [stays]
    refine iff_of_false (fun pays => pays.2 rfl) fun pays => moves ?_
    have below := not_or.mp pays.2
    simp [repoints, pays.1, below.1, below.2]

theorem UpdateWrite.paysOnlyEntitled_iff {choice : RowChoice}
    {externalRef : String} {change : EntitlementUpdate}
    (write : UpdateWrite settings store choice externalRef change after) :
    (∀ subId sub, store.getByExternalRef choice externalRef = some subId →
      after.subs subId = some sub → entitled sub.status = false →
        ¬ GivesPaid settings store.keys after.keys (store.link subId) sub.apiKeyId) ↔
      HoldsBack settings store (.update choice externalRef change) := by
  cases write with
  | absent missing =>
      refine iff_of_true (fun subId sub found => ?_) fun subId sub keyId key found => ?_
      · rw [missing] at found
        cases found
      · rw [missing] at found
        cases found
  | stale rowId row _ found old moved =>
      refine iff_of_true (fun subId sub acted nowRow _ => ?_)
        fun subId sub keyId key acted storedRow _ _ recent => ?_
      · rw [found] at acted
        cases acted
        rw [moved.subs, Function.update_self] at nowRow
        cases nowRow
        exact moved.gives_none rfl
      · rw [found] at acted
        cases acted
        rw [moved.row] at storedRow
        cases storedRow
        rw [old] at recent
        cases recent
  | orphan rowId row found stored recent unanchored =>
      refine iff_of_true (fun subId sub acted nowRow _ => ?_)
        fun subId sub keyId key acted storedRow linked => ?_
      · have link : store.link subId = sub.apiKeyId := by simp [Store.link, nowRow]
        rw [link]
        exact givesPaid_same
      · rw [found] at acted
        cases acted
        rw [stored] at storedRow
        cases storedRow
        simp [anchored, EntitlementUpdate.apply, linked] at unanchored
  | current rowId row _ found recent moved =>
      constructor
      · intro holds subId sub keyId key acted storedRow linked keyRow _ lasts left paid
        rw [found] at acted
        cases acted
        rw [moved.row] at storedRow
        cases storedRow
        have unpaid := holds rowId _ found (by rw [moved.subs, Function.update_self]) left
        rw [moved.gives_iff rfl] at unpaid
        by_contra below
        refine unpaid ⟨keyId, key, linked, keyRow, ?_⟩
        simp only [updatedKey, lasts, Bool.false_eq_true, if_false]
        exact repointed_pays_iff.mpr ⟨paid, below⟩
      · intro holds subId sub acted nowRow left
        rw [found] at acted
        cases acted
        rw [moved.subs, Function.update_self] at nowRow
        cases nowRow
        rw [moved.gives_iff rfl]
        intro pays
        obtain ⟨keyId, key, linked, keyRow, gives⟩ := pays
        cases lasts : change.status.any terminal with
        | true =>
            simp only [updatedKey, lasts, if_true] at gives
            rcases freed_unpaid settings key with unpaid | same
            · rw [unpaid] at gives
              cases gives.1
            · exact gives.2 same
        | false =>
            simp only [updatedKey, lasts, Bool.false_eq_true, if_false] at gives
            obtain ⟨paid, below⟩ := repointed_pays_iff.mp gives
            exact below (holds rowId row keyId key found moved.row linked keyRow recent lasts
              left paid)

theorem RevokeWrite.paysOnlyEntitled {choice : RowChoice}
    {externalRef : String} {voluntary : Bool} {lastEventAt : Option Nat} {now : Nat}
    (write : RevokeWrite settings store choice externalRef voluntary lastEventAt now after)
    {sub : Subscription}
    (acted : store.getByExternalRef choice externalRef = some subId)
    (nowRow : after.subs subId = some sub) :
    ¬ GivesPaid settings store.keys after.keys (store.link subId) sub.apiKeyId := by
  cases write with
  | absent missing =>
      rw [missing] at acted
      cases acted
  | scheduled rowId row _ found asked moved | stale rowId row _ found asked old moved =>
      rw [found] at acted
      cases acted
      rw [moved.subs, Function.update_self] at nowRow
      cases nowRow
      exact moved.gives_none rfl
  | current rowId row _ found asked recent moved =>
      rw [found] at acted
      cases acted
      rw [moved.subs, Function.update_self] at nowRow
      cases nowRow
      rw [moved.gives_iff rfl]
      intro pays
      obtain ⟨keyId, key, linked, keyRow, paid, changed⟩ := pays
      rcases freed_unpaid settings key with unpaid | same
      · rw [unpaid] at paid
        cases paid
      · exact changed same

theorem paysOnlyEntitled_step_iff (store : Store) (event : Event) :
    PaysOnlyEntitled settings store event ↔ HoldsBack settings store event := by
  cases event with
  | grant grant lastEventAt verifiedUser =>
      exact (grantEntitlement_write settings store grant lastEventAt
        verifiedUser).paysOnlyEntitled_iff
  | update choice externalRef change =>
      exact (updateEntitlement_write settings store choice externalRef
        change).paysOnlyEntitled_iff
  | revoke choice externalRef voluntary lastEventAt now =>
      exact iff_of_true (fun _ _ acted nowRow _ =>
        (revokeEntitlement_write settings store choice externalRef voluntary lastEventAt
          now).paysOnlyEntitled acted nowRow) trivial
  | login userId email =>
      exact iff_of_true (fun _ _ acted => (nomatch acted)) trivial

variable (settings)

/-- A run pays for entitled subscriptions only exactly when each step holds back. -/
theorem run_paysOnlyEntitled_iff (start : Store) (events : List Event) :
    AllSteps (step settings) (PaysOnlyEntitled settings) start events ↔
      AllSteps (step settings) (HoldsBack settings) start events := by
  induction events generalizing start with
  | nil => exact Iff.rfl
  | cons event rest ih =>
      exact and_congr (paysOnlyEntitled_step_iff start event) (ih (step settings start event))

end PaidAccess

def proOrder (verifiedUser : Option Nat) : Event :=
  .grant ⟨2, "order", .polar, 1, some "ada@example.com", noSnapshot⟩ (some 10) verifiedUser

/-- The grant is delivered again after the cancellation, once the buyer is verified. -/
theorem replayed_grant_mints_paid :
    ¬ AllSteps (step demoSettings) (PaysOnlyEntitled demoSettings) emptyStore
      [proOrder none, .update oldestRow "order" (statusUpdate .cancelled 30), proOrder (some 7)] := by
  intro steps
  exact steps.2.2.1 0 _ rfl rfl rfl ⟨0, _, rfl, rfl, .inr ⟨rfl, nofun⟩⟩

end OdooSemantic.Billing.Activation
