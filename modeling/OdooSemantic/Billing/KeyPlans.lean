import OdooSemantic.Billing.Effects

/-!
# The plan of a key and the subscriptions that share it

Every writer of a key's plan looks at one subscription.  A provisioned key never loses rank and
neither does a key that is re-pointed, but a terminal event frees the key whoever else is
linked to it, and a grant of a linked row raises the row's plan without the key's.
-/

set_option autoImplicit false

namespace OdooSemantic.Billing.Activation

open Billing.Entitlements (Status Raised current greatest)
open Lib.Run

section KeyPlans
variable (settings : Settings)

/-- The key of an active or trialing subscription ranks at least as high as the subscription. -/
def Covered (store : Store) : Prop :=
  ∀ subId sub keyId, store.subs subId = some sub → sub.apiKeyId = some keyId →
    entitled sub.status = true →
      ∃ key, store.keys keyId = some key ∧
        rankOf settings sub.planId ≤ rankOf settings key.planId

def FreeSuffices (store : Store) (subId keyId : Nat) : Prop :=
  ∀ free, freePlanId settings = some free →
    ∀ otherId other, otherId ≠ subId → store.subs otherId = some other →
      other.apiKeyId = some keyId → entitled other.status = true →
        rankOf settings other.planId ≤ rankOf settings free

/-- A current grant of a linked row is of no higher plan than the key's; a terminal event frees
a key that pays for nothing above the free plan; a row on the free plan that an update
reactivates there has a key of that rank. -/
def KeepsCovered (store : Store) : Event → Prop
  | .grant grant lastEventAt _ =>
      accepted settings grant → ∀ subId sub keyId key,
        store.conflicting grant.source grant.externalRef = some subId →
        store.subs subId = some sub → sub.apiKeyId = some keyId →
        store.keys keyId = some key → current lastEventAt sub.lastEventAt = true →
          rankOf settings grant.planId ≤ rankOf settings key.planId
  | .update choice externalRef change =>
      ∀ subId sub keyId key, store.getByExternalRef choice externalRef = some subId →
        store.subs subId = some sub → sub.apiKeyId = some keyId →
        store.keys keyId = some key → current change.lastEventAt sub.lastEventAt = true →
          if change.status.any terminal then FreeSuffices settings store subId keyId
          else change.planId.any (· != sub.planId) = false →
            isPaidPlan settings sub.planId = false →
            entitled (change.status.getD sub.status) = true →
              rankOf settings sub.planId ≤ rankOf settings key.planId
  | .revoke choice externalRef voluntary lastEventAt _ =>
      voluntary = false → ∀ subId sub keyId,
        store.getByExternalRef choice externalRef = some subId →
        store.subs subId = some sub → sub.apiKeyId = some keyId →
        current lastEventAt sub.lastEventAt = true →
          FreeSuffices settings store subId keyId
  | .login _ _ => True

variable {key : ApiKey} {keyId : Nat} {sub : Subscription} {grant : EntitlementGrant}
variable {lastEventAt : Option Nat} {subId : Nat}

theorem keepsPlan_false {planId : Nat}
    (keeps : keepsPlan settings key planId = false) :
    rankOf settings key.planId ≤ rankOf settings planId := by
  cases resolves : planOf settings key.planId with
  | none =>
      have bottom : rankOf settings key.planId = 0 := by
        simp [rankOf, planMeta, resolves, planRank]
      omega
  | some plan =>
      have below : ¬ rankOf settings planId < rankOf settings key.planId := by
        simpa [keepsPlan, resolves] using keeps
      omega

theorem keepsPlan_true {planId : Nat}
    (keeps : keepsPlan settings key planId = true) :
    rankOf settings planId ≤ rankOf settings key.planId := by
  have above : rankOf settings planId < rankOf settings key.planId := by
    simp only [keepsPlan, Bool.and_eq_true, decide_eq_true_eq] at keeps
    exact keeps.2
  omega

variable {settings}

variable {store after : Store} {sub written : Subscription} {subId userId planId picked : Nat}

theorem KeyWrite.rank
    (wellFormed : store.WellFormed)
    (write : KeyWrite settings store subId userId planId after picked)
    (row : store.keys keyId = some key) :
    ∃ now, after.keys keyId = some now ∧
      rankOf settings key.planId ≤ rankOf settings now.planId := by
  obtain ⟨now, nowRow, same | ⟨-, keeps, moved⟩⟩ := write.row wellFormed row
  · exact ⟨now, nowRow, Nat.le_of_eq (by rw [same])⟩
  · exact ⟨now, nowRow, by rw [moved]; exact keepsPlan_false settings keeps⟩

theorem KeyWrite.picked_rank
    (write : KeyWrite settings store subId userId planId after picked) :
    ∃ now, after.keys picked = some now ∧
      rankOf settings planId ≤ rankOf settings now.planId := by
  obtain ⟨now, nowRow, same | keeps⟩ := write.picked_row
  · exact ⟨now, nowRow, Nat.le_of_eq (by rw [same])⟩
  · exact ⟨now, nowRow, keepsPlan_true settings keeps⟩

theorem ClaimWrite.covered {subId userId : Nat} {alreadyMine : Bool}
    (wellFormed : store.WellFormed) (covered : Covered settings store)
    (write : ClaimWrite settings store subId userId alreadyMine after) :
    Covered settings after := by
  cases write with
  | refused => exact covered
  | claimed sub row linked free =>
      intro otherId other keyId found toKey entitles
      by_cases same : otherId = subId
      · subst same
        rw [Store.setSub_subs, Function.update_self] at found
        cases found
        exact covered otherId sub keyId row toKey entitles
      · rw [Store.setSub_subs, Function.update_of_ne same] at found
        exact covered otherId other keyId found toKey entitles
  | provisioned sub row unlinked may picked written _ provisions =>
      obtain ⟨tenantId, subs⟩ := provisions.subs
      intro otherId other keyId found toKey entitles
      rw [provisions.keys]
      by_cases same : otherId = subId
      · subst same
        rw [subs, Function.update_self] at found
        cases found
        cases toKey
        exact provisions.write.picked_rank
      · rw [subs, Function.update_of_ne same] at found
        obtain ⟨key, keyRow, rank⟩ := covered otherId other keyId found toKey entitles
        obtain ⟨now, nowRow, kept⟩ := provisions.write.rank wellFormed keyRow
        exact ⟨now, nowRow, Nat.le_trans rank kept⟩

theorem ClaimWrite.linked_row {subId userId : Nat} {alreadyMine : Bool}
    (row : store.subs subId = some sub)
    (linked : sub.apiKeyId = some keyId)
    (write : ClaimWrite settings store subId userId alreadyMine after) :
    after.keys = store.keys ∧ ∃ now, after.subs subId = some now ∧
      now.apiKeyId = sub.apiKeyId ∧ now.status = sub.status ∧ now.planId = sub.planId := by
  cases write with
  | refused => exact ⟨rfl, sub, row, rfl, rfl, rfl⟩
  | claimed other found isLinked free =>
      rw [row] at found
      cases found
      exact ⟨rfl, _, Function.update_self .., rfl, rfl, rfl⟩
  | provisioned other found unlinked =>
      rw [row] at found
      cases found
      rw [linked] at unlinked
      cases unlinked

theorem RowWrite.covered
    (covered : Covered settings store)
    (write : RowWrite store grant lastEventAt after subId)
    (rank : ∀ sub keyId key, store.conflicting grant.source grant.externalRef = some subId →
      store.subs subId = some sub → sub.apiKeyId = some keyId → store.keys keyId = some key →
      current lastEventAt sub.lastEventAt = true →
        rankOf settings grant.planId ≤ rankOf settings key.planId)
    (wellFormed : store.WellFormed) :
    Covered settings after := by
  cases write with
  | refreshed _ sub found row =>
      intro otherId other keyId otherRow toKey entitles
      by_cases same : otherId = subId
      · subst same
        rw [Store.setSub_subs, Function.update_self] at otherRow
        cases otherRow
        cases recent : Entitlements.current lastEventAt sub.lastEventAt with
        | true =>
            obtain ⟨key, keyRow⟩ := wellFormed.linked otherId sub keyId row toKey
            refine ⟨key, keyRow, ?_⟩
            rw [(refreshed_recent grant recent).2]
            exact rank sub keyId key found row toKey keyRow recent
        | false =>
            obtain ⟨status, plan⟩ := refreshed_stale grant recent
            rw [status] at entitles
            rw [plan]
            exact covered otherId sub keyId row toKey entitles
      · rw [Store.setSub_subs, Function.update_of_ne same] at otherRow
        exact covered otherId other keyId otherRow toKey entitles
  | inserted absent =>
      intro otherId other keyId otherRow toKey entitles
      by_cases same : otherId = store.nextSub
      · subst same
        simp only [Store.setSub_subs, Function.update_self] at otherRow
        cases otherRow
        cases toKey
      · simp only [Store.setSub_subs, Function.update_of_ne same] at otherRow
        exact covered otherId other keyId otherRow toKey entitles

theorem RowWrite.linked_rank
    (found : store.conflicting grant.source grant.externalRef = some subId)
    (row : store.subs subId = some sub) (linked : sub.apiKeyId = some keyId)
    (recent : current lastEventAt sub.lastEventAt = true)
    {written : Nat} (write : RowWrite store grant lastEventAt after written) :
    written = subId ∧ after.keys = store.keys ∧ ∃ now, after.subs subId = some now ∧
      now.apiKeyId = some keyId ∧ entitled now.status = true ∧ now.planId = grant.planId := by
  obtain ⟨same, nowRow⟩ := write.found found row
  obtain ⟨status, plan⟩ := refreshed_recent grant recent
  exact ⟨same, write.kept.2.1, _, nowRow, linked, by rw [status]; rfl, plan⟩

theorem GrantWrite.covered_iff
    {lastEventAt verifiedUser : Option Nat} (wellFormed : store.WellFormed)
    (covered : Covered settings store)
    (write : GrantWrite settings store grant lastEventAt verifiedUser after) :
    Covered settings after ↔
      KeepsCovered settings store (.grant grant lastEventAt verifiedUser) := by
  cases write with
  | rejected invalid => exact iff_of_true covered fun valid => absurd valid invalid
  | unclaimed valid unknown subId _ row =>
      constructor
      · intro reached _ foundId sub keyId key found subRow linked keyRow recent
        obtain ⟨-, keys, now, nowRow, toKey, entitles, plan⟩ :=
          row.linked_rank found subRow linked recent
        obtain ⟨nowKey, nowKeyRow, rank⟩ := reached foundId now keyId nowRow toKey entitles
        rw [keys, keyRow] at nowKeyRow
        cases nowKeyRow
        rwa [plan] at rank
      · intro keeps
        exact row.covered covered (keeps valid subId) wellFormed
  | claimed valid userId known subId upserted _ row claim =>
      constructor
      · intro reached _ foundId sub keyId key found subRow linked keyRow recent
        obtain ⟨same, keys, now, nowRow, toKey, entitles, plan⟩ :=
          row.linked_rank found subRow linked recent
        subst same
        obtain ⟨afterKeys, last, lastRow, link, status, lastPlan⟩ := claim.linked_row nowRow toKey
        obtain ⟨nowKey, nowKeyRow, rank⟩ := reached subId last keyId lastRow
          (link.trans toKey) (by rw [status]; exact entitles)
        rw [afterKeys, keys, keyRow] at nowKeyRow
        cases nowKeyRow
        rwa [lastPlan, plan] at rank
      · intro keeps
        exact claim.covered (row.wellFormed wellFormed)
          (row.covered covered (keeps valid subId) wellFormed)

theorem Moved.covered_iff {before after : Store}
    {change : ApiKey → ApiKey} (wellFormed : before.WellFormed)
    (covered : Covered settings before)
    (moved : Moved before subId sub written change after)
    (link : written.apiKeyId = sub.apiKeyId) :
    Covered settings after ↔
      ∀ keyId key, sub.apiKeyId = some keyId → before.keys keyId = some key →
        (entitled written.status = true →
          rankOf settings written.planId ≤ rankOf settings (change key).planId) ∧
        ∀ otherId other, otherId ≠ subId → before.subs otherId = some other →
          other.apiKeyId = some keyId → entitled other.status = true →
            rankOf settings other.planId ≤ rankOf settings (change key).planId := by
  constructor
  · intro reached keyId key linked keyRow
    have nowRow := moved.key keyRow
    rw [if_pos linked] at nowRow
    constructor
    · intro entitles
      have row : after.subs subId = some written := by rw [moved.subs, Function.update_self]
      obtain ⟨now, found, rank⟩ := reached subId written keyId row (link.trans linked) entitles
      rw [nowRow] at found
      cases found
      exact rank
    · intro otherId other different otherRow toKey entitles
      have row : after.subs otherId = some other := by
        rw [moved.subs, Function.update_of_ne different, otherRow]
      obtain ⟨now, found, rank⟩ := reached otherId other keyId row toKey entitles
      rw [nowRow] at found
      cases found
      exact rank
  · intro holds otherId other keyId otherRow toKey entitles
    by_cases same : otherId = subId
    · subst same
      rw [moved.subs, Function.update_self] at otherRow
      cases otherRow
      rw [link] at toKey
      obtain ⟨key, keyRow⟩ := wellFormed.linked otherId sub keyId moved.row toKey
      have nowRow := moved.key keyRow
      rw [if_pos toKey] at nowRow
      exact ⟨change key, nowRow, (holds keyId key toKey keyRow).1 entitles⟩
    · rw [moved.subs, Function.update_of_ne same] at otherRow
      obtain ⟨key, keyRow, rank⟩ := covered otherId other keyId otherRow toKey entitles
      have nowRow := moved.key keyRow
      by_cases shared : sub.apiKeyId = some keyId
      · rw [if_pos shared] at nowRow
        exact ⟨change key, nowRow,
          (holds keyId key shared keyRow).2 otherId other same otherRow toKey entitles⟩
      · rw [if_neg shared] at nowRow
        exact ⟨key, nowRow, rank⟩

theorem Moved.covered_kept {before after : Store}
    (wellFormed : before.WellFormed) (covered : Covered settings before)
    (moved : Moved before subId sub written id after)
    (link : written.apiKeyId = sub.apiKeyId) (status : written.status = sub.status)
    (plan : written.planId = sub.planId) : Covered settings after := by
  refine (moved.covered_iff wellFormed covered link).mpr fun keyId key linked keyRow =>
    ⟨fun entitles => ?_, fun otherId other _ otherRow toKey entitles => ?_⟩
  · rw [status] at entitles
    obtain ⟨now, found, rank⟩ := covered subId sub keyId moved.row linked entitles
    rw [keyRow] at found
    cases found
    rwa [plan]
  · obtain ⟨now, found, rank⟩ := covered otherId other keyId otherRow toKey entitles
    rw [keyRow] at found
    cases found
    exact rank

theorem Moved.covered_freed {before after : Store}
    (wellFormed : before.WellFormed) (covered : Covered settings before)
    (moved : Moved before subId sub written (freed settings) after)
    (link : written.apiKeyId = sub.apiKeyId) (ended : entitled written.status = false) :
    Covered settings after ↔
      ∀ keyId, sub.apiKeyId = some keyId → FreeSuffices settings before subId keyId := by
  rw [moved.covered_iff wellFormed covered link]
  constructor
  · intro holds keyId linked free isFree otherId other different otherRow toKey entitles
    obtain ⟨key, keyRow⟩ := wellFormed.linked subId sub keyId moved.row linked
    have rank := (holds keyId key linked keyRow).2 otherId other different otherRow toKey entitles
    simpa [freed, isFree] using rank
  · intro enough keyId key linked keyRow
    refine ⟨fun entitles => absurd entitles (by simp [ended]),
      fun otherId other different otherRow toKey entitles => ?_⟩
    cases isFree : freePlanId settings with
    | some free =>
        have rank := enough keyId linked free isFree otherId other different otherRow toKey
          entitles
        simpa [freed, isFree] using rank
    | none =>
        obtain ⟨now, found, rank⟩ := covered otherId other keyId otherRow toKey entitles
        rw [keyRow] at found
        cases found
        simpa [freed, isFree] using rank

theorem terminal_not_entitled {change : EntitlementUpdate}
    (ends : change.status.any terminal = true) (sub : Subscription) :
    entitled (change.apply sub).status = false := by
  cases given : change.status with
  | none => simp [given] at ends
  | some status =>
      rw [given] at ends
      have written : (change.apply sub).status = status := by
        simp [EntitlementUpdate.apply, given]
      rw [written]
      cases status with
      | pending | active | trialing => cases ends
      | pastDue | cancelled | expired | refunded => rfl

theorem planOutranks_iff {currentPlanId newPlanId : Nat} :
    planOutranks settings currentPlanId newPlanId = true ↔
      rankOf settings newPlanId < rankOf settings currentPlanId := by
  simp only [planOutranks, Bool.and_eq_true, bne_iff_ne, decide_eq_true_eq]
  constructor
  · exact fun outranks => outranks.2
  · intro below
    refine ⟨fun same => ?_, below⟩
    rw [same] at below
    omega

/-- A key that a non-terminal update re-points does not lose rank. -/
theorem repointed_rank (sub : Subscription) (planId : Option Nat) (key : ApiKey) :
    rankOf settings key.planId ≤ rankOf settings (repointed settings sub planId key).planId := by
  cases moves : repoints settings sub planId key with
  | false => simp [repointed, moves]
  | true =>
      have notAbove : ¬ planOutranks settings key.planId (planId.getD sub.planId) = true := by
        simp only [repoints, Bool.and_eq_true, Bool.not_eq_true'] at moves
        simp [moves.1.2]
      rw [planOutranks_iff] at notAbove
      simp only [repointed, moves, if_true]
      omega

theorem repointed_reaches {planId : Option Nat} (key : ApiKey)
    (wanted : (planId.any (· != sub.planId) ||
      isPaidPlan settings (planId.getD sub.planId)) = true) :
    rankOf settings (planId.getD sub.planId) ≤
      rankOf settings (repointed settings sub planId key).planId := by
  by_cases outranks : planOutranks settings key.planId (planId.getD sub.planId) = true
  · have above := planOutranks_iff.mp outranks
    have stays : repointed settings sub planId key = key := by
      simp [repointed, repoints, outranks]
    rw [stays]
    omega
  · by_cases equal : key.planId = planId.getD sub.planId
    · have stays : repointed settings sub planId key = key := by
        simp [repointed, repoints, equal]
      exact Nat.le_of_eq (by rw [stays, equal])
    · simp [repointed, repoints, wanted, outranks, equal]

theorem repointed_unwanted {planId : Option Nat} (key : ApiKey)
    (same : planId.any (· != sub.planId) = false) (free : isPaidPlan settings sub.planId = false) :
    planId.getD sub.planId = sub.planId ∧ repointed settings sub planId key = key := by
  have resolved : planId.getD sub.planId = sub.planId := by
    cases planId with
    | none => rfl
    | some planId => simpa using same
  exact ⟨resolved, by simp [repointed, repoints, same, resolved, free]⟩

theorem UpdateWrite.covered_iff {choice : RowChoice}
    {externalRef : String} {change : EntitlementUpdate} (wellFormed : store.WellFormed)
    (covered : Covered settings store)
    (write : UpdateWrite settings store choice externalRef change after) :
    Covered settings after ↔ KeepsCovered settings store (.update choice externalRef change) := by
  cases write with
  | absent missing =>
      refine iff_of_true covered fun subId sub keyId key found => ?_
      rw [missing] at found
      cases found
  | stale subId sub _ found old moved =>
      refine iff_of_true (moved.covered_kept wellFormed covered rfl rfl rfl)
        fun other row keyId key otherFound otherRow _ _ recent => ?_
      rw [found] at otherFound
      cases otherFound
      rw [moved.row] at otherRow
      cases otherRow
      rw [old] at recent
      cases recent
  | orphan subId sub found row recent unanchored =>
      refine iff_of_true covered fun other stored keyId key otherFound otherRow linked => ?_
      rw [found] at otherFound
      cases otherFound
      rw [row] at otherRow
      cases otherRow
      simp [anchored, EntitlementUpdate.apply, linked] at unanchored
  | current subId sub _ found recent moved =>
      cases ends : change.status.any terminal with
      | true =>
          have frees : updatedKey settings sub change = freed settings := by
            simp only [updatedKey, ends, if_true]
          rw [frees] at moved
          rw [moved.covered_freed wellFormed covered rfl (terminal_not_entitled ends sub)]
          constructor
          · intro enough other row keyId key otherFound otherRow linked keyRow _
            rw [found] at otherFound
            cases otherFound
            rw [moved.row] at otherRow
            cases otherRow
            rw [if_pos ends]
            exact enough keyId linked
          · intro keeps keyId linked
            obtain ⟨key, keyRow⟩ := wellFormed.linked subId sub keyId moved.row linked
            have enough := keeps subId sub keyId key found moved.row linked keyRow recent
            rwa [if_pos ends] at enough
      | false =>
          have repoints : updatedKey settings sub change = repointed settings sub change.planId := by
            simp only [updatedKey, ends, Bool.false_eq_true, if_false]
          rw [repoints] at moved
          rw [moved.covered_iff wellFormed covered rfl]
          constructor
          · intro holds other row keyId key otherFound otherRow linked keyRow _
            rw [found] at otherFound
            cases otherFound
            rw [moved.row] at otherRow
            cases otherRow
            rw [if_neg (by simp [ends])]
            intro same free entitles
            have rank := (holds keyId key linked keyRow).1 entitles
            obtain ⟨resolved, stays⟩ := repointed_unwanted key same free
            rw [stays] at rank
            simpa [EntitlementUpdate.apply, resolved] using rank
          · intro keeps keyId key linked keyRow
            refine ⟨fun entitles => ?_, fun otherId other _ otherRow toKey entitles => ?_⟩
            · have kept := keeps subId sub keyId key found moved.row linked keyRow recent
              rw [if_neg (by simp [ends])] at kept
              show rankOf settings (change.planId.getD sub.planId) ≤ _
              cases wanted : change.planId.any (· != sub.planId) ||
                  isPaidPlan settings (change.planId.getD sub.planId) with
              | true => exact repointed_reaches key wanted
              | false =>
                  simp only [Bool.or_eq_false_iff] at wanted
                  obtain ⟨same, free⟩ := wanted
                  have resolved : change.planId.getD sub.planId = sub.planId := by
                    cases given : change.planId with
                    | none => rfl
                    | some planId => simpa [given] using same
                  rw [resolved] at free ⊢
                  have stays := (repointed_unwanted key same free).2
                  rw [stays]
                  exact kept same free entitles
            · obtain ⟨now, nowRow, rank⟩ := covered otherId other keyId otherRow toKey entitles
              rw [keyRow] at nowRow
              cases nowRow
              exact Nat.le_trans rank (repointed_rank sub change.planId key)

theorem RevokeWrite.covered_iff {choice : RowChoice}
    {externalRef : String} {voluntary : Bool} {now : Nat}
    (wellFormed : store.WellFormed) (covered : Covered settings store)
    (write : RevokeWrite settings store choice externalRef voluntary lastEventAt now after) :
    Covered settings after ↔
      KeepsCovered settings store (.revoke choice externalRef voluntary lastEventAt now) := by
  cases write with
  | absent missing =>
      refine iff_of_true covered fun _ subId sub keyId found => ?_
      rw [missing] at found
      cases found
  | scheduled subId sub _ found asked moved =>
      refine iff_of_true (moved.covered_kept wellFormed covered rfl rfl rfl) fun notAsked => ?_
      rw [asked] at notAsked
      cases notAsked
  | stale subId sub _ found asked old moved =>
      refine iff_of_true (moved.covered_kept wellFormed covered rfl rfl rfl)
        fun _ other row keyId otherFound otherRow _ recent => ?_
      rw [found] at otherFound
      cases otherFound
      rw [moved.row] at otherRow
      cases otherRow
      rw [old] at recent
      cases recent
  | current subId sub _ found asked recent moved =>
      rw [moved.covered_freed wellFormed covered rfl rfl]
      constructor
      · intro enough _ other row keyId otherFound otherRow linked _
        rw [found] at otherFound
        cases otherFound
        rw [moved.row] at otherRow
        cases otherRow
        exact enough keyId linked
      · intro keeps keyId linked
        exact keeps asked subId sub keyId found moved.row linked recent

theorem covered_step_iff {store : Store} {event : Event} (wellFormed : store.WellFormed)
    (covered : Covered settings store) :
    Covered settings (step settings store event) ↔ KeepsCovered settings store event := by
  cases event with
  | grant grant lastEventAt verifiedUser =>
      exact (grantEntitlement_write settings store grant lastEventAt verifiedUser).covered_iff
        wellFormed covered
  | update choice externalRef change =>
      exact (updateEntitlement_write settings store choice externalRef change).covered_iff
        wellFormed covered
  | revoke choice externalRef voluntary lastEventAt now =>
      exact (revokeEntitlement_write settings store choice externalRef voluntary lastEventAt
        now).covered_iff wellFormed covered
  | login userId email =>
      have both := claimSubscriptionForUser_keeps settings
        (fun store => store.WellFormed ∧ Covered settings store)
        (fun _ _ _ _ _ reached write =>
          ⟨write.wellFormed reached.1, write.covered reached.1 reached.2⟩)
        store userId email ⟨wellFormed, covered⟩
      exact iff_of_true both.2 trivial

variable (settings)

/-- Every subscription is covered all along a run exactly when each step keeps it so. -/
theorem keys_cover_iff (start : Database) (covered : Covered settings start.store)
    (events : List Event) :
    AllSteps (step settings) (fun store event => Covered settings (step settings store event))
        start.store events ↔
      AllSteps (step settings) (KeepsCovered settings) start.store events := by
  have initial : start.store.WellFormed ∧ Covered settings start.store := ⟨start.sound, covered⟩
  constructor
  · intro steps
    exact allSteps_of_guarded (step settings)
      (fun store event => Covered settings (step settings store event)) (KeepsCovered settings)
      (fun store => store.WellFormed ∧ Covered settings store)
      (fun store event reached inv => ⟨step_wellFormed settings store event inv.1, reached⟩)
      (fun store event reached inv => (covered_step_iff inv.1 inv.2).mp reached)
      events start.store steps initial
  · intro steps
    exact allSteps_of_guarded (step settings) (KeepsCovered settings)
      (fun store event => Covered settings (step settings store event))
      (fun store => store.WellFormed ∧ Covered settings store)
      (fun store event keeps inv => ⟨step_wellFormed settings store event inv.1,
        (covered_step_iff inv.1 inv.2).mpr keeps⟩)
      (fun store event keeps inv => (covered_step_iff inv.1 inv.2).mpr keeps)
      events start.store steps initial

end KeyPlans

def proPurchase (externalRef : String) (eventAt : Nat) : Event :=
  .grant ⟨2, externalRef, .polar, 1, some "ada@example.com", noSnapshot⟩ (some eventAt) (some 7)

/-- The second purchase shares the key of the first; its refund frees the key of both. -/
theorem shared_key_freed :
    ¬ AllSteps (step demoSettings)
      (fun store event => Covered demoSettings (step demoSettings store event)) emptyStore
      [proPurchase "first" 10, proPurchase "second" 20,
        .revoke oldestRow "second" false (some 30) 31] := by
  intro steps
  obtain ⟨key, row, rank⟩ := steps.2.2.1 0 _ 0 rfl rfl rfl
  cases row
  exact absurd rank (by decide)

theorem single_purchase_covered :
    AllSteps (step demoSettings)
      (fun store event => Covered demoSettings (step demoSettings store event)) emptyStore
      [proPurchase "first" 10, .revoke oldestRow "first" false (some 30) 31] := by
  refine (keys_cover_iff demoSettings emptyDatabase
    (fun _ _ _ row => (nomatch row)) _).mpr ⟨?_, ?_, trivial⟩
  · intro _ subId sub keyId key found
    cases found
  · intro _ subId sub keyId found row linked _ free isFree otherId other different otherRow
    cases found
    cases otherId with
    | zero => exact absurd rfl different
    | succ otherId => cases otherRow

end OdooSemantic.Billing.Activation
