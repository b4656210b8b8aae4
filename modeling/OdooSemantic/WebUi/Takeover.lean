import OdooSemantic.WebUi.Accounts

/-!
# Sessions on accounts that claimed a subscription

A registration sets a password before the address is proved, and an OAuth login or an opened
link reaches the same row by its address.  As long as only the creator of an account reaches it
so, whoever holds a session on it has proved the mailboxes of all it claimed.
-/

set_option autoImplicit false

namespace OdooSemantic.WebUi.Takeover

open Lib Lib.Run WebUi.Accounts

section Proofs
variable (env : Env) (state : State)

def Proved (principal : Nat) (mailbox : String) : Prop :=
  ∃ address, (principal, address) ∈ state.proved ∧ env.sameMailbox address mailbox = true

/-- A session on an account that claimed a subscription is held by someone who proved the
mailbox it was bought with. -/
def Lawful : Prop :=
  ∀ session ∈ state.sessions, ∀ sub ∈ state.subscriptions.rows, ∀ mailbox,
    sub.claimedUserId = some session.userId → sub.buyerEmail = some mailbox →
      Proved env state session.holder mailbox

def matchedByEmail (actor : Nat) (body : OAuthLoginBody) : Option Account :=
  match state.lookupUserByOAuth ⟨actor, body.provider, body.oauthId⟩ with
  | some _ => none
  | none => if body.emailVerified then State.lookupUserByEmail env state body.email else none

def ownAccount : Event → Bool
  | .verifyEmail actor token now =>
      (state.openLink token now).all fun found => found.2.createdBy == actor
  | .oauthLogin actor request _ _ =>
      (env.validated request).all fun body =>
        (matchedByEmail env state actor body).all fun account => account.createdBy == actor
  | .loginPost _ username text _ =>
      (state.accounts.rows.find? (·.username == env.strip username)).all fun user =>
        user.password.isSome || text != dummyPassword
  | _ => true

def Creator (userId principal : Nat) : Prop :=
  ∃ account ∈ state.accounts.rows, account.id = userId ∧ account.createdBy = principal

structure Owned : Prop where
  accounts : Table.Keyed Account.id state.accounts
  subscriptions : Table.Keyed Subscription.id state.subscriptions
  passwords : ∀ account ∈ state.accounts.rows, ∀ secret, account.password = some secret →
    secret.chosenBy = account.createdBy
  identities : ∀ account ∈ state.accounts.rows, ∀ identity, account.oauth = some identity →
    identity.holder = account.createdBy
  verified : ∀ account ∈ state.accounts.rows, account.emailVerified = true →
    ∀ email, account.email = some email → Proved env state account.createdBy email
  links : ∀ link ∈ state.verifications.rows, ∃ account ∈ state.accounts.rows,
    account.id = link.userId ∧ account.email = some link.sentTo
  sessions : ∀ session ∈ state.sessions, Creator state session.userId session.holder
  claims : ∀ sub ∈ state.subscriptions.rows, ∀ userId mailbox, sub.claimedUserId = some userId →
    sub.buyerEmail = some mailbox →
      ∃ principal, Creator state userId principal ∧ Proved env state principal mailbox

end Proofs

section Lookups
variable {env : Env} {state : State}

theorem Creator.unique (keyed : Table.Keyed Account.id state.accounts) {userId first second : Nat}
    (one : Creator state userId first) (two : Creator state userId second) : first = second := by
  obtain ⟨account, accountIn, oneId, rfl⟩ := one
  obtain ⟨other, otherIn, twoId, rfl⟩ := two
  rw [keyed.eq_of_id accountIn otherIn (oneId.trans twoId.symm)]

theorem Owned.lawful (owned : Owned env state) : Lawful env state := by
  intro session sessionIn sub subIn mailbox claimed bought
  obtain ⟨principal, creator, proved⟩ := owned.claims sub subIn session.userId mailbox claimed bought
  have holder := owned.sessions session sessionIn
  rw [holder.unique owned.accounts creator]
  exact proved

theorem sameMailbox_trans {first second third : String} (one : env.sameMailbox first second = true)
    (two : env.sameMailbox second third = true) : env.sameMailbox first third = true := by
  simp only [Env.sameMailbox, beq_iff_eq] at *
  exact one.trans two

theorem sameMailbox_symm {first second : String} (same : env.sameMailbox first second = true) :
    env.sameMailbox second first = true := by
  simp only [Env.sameMailbox, beq_iff_eq] at *
  exact same.symm

theorem sameMailbox_refl (mailbox : String) : env.sameMailbox mailbox mailbox = true := by
  simp [Env.sameMailbox]

theorem Proved.same {principal : Nat} {first second : String}
    (proved : Proved env state principal first) (same : env.sameMailbox first second = true) :
    Proved env state principal second := by
  obtain ⟨address, addressIn, equal⟩ := proved
  exact ⟨address, addressIn, sameMailbox_trans equal same⟩

theorem account?_some {userId : Nat} {account : Account}
    (found : state.account? userId = some account) :
    account ∈ state.accounts.rows ∧ account.id = userId :=
  ⟨List.mem_of_find?_eq_some found, by simpa using List.find?_some found⟩

theorem openLink_some {token now : Nat} {row : Verification} {account : Account}
    (opened : state.openLink token now = some (row, account)) :
    row ∈ state.verifications.rows ∧ account ∈ state.accounts.rows ∧ account.id = row.userId := by
  obtain ⟨link, linkFound, rest⟩ := Option.bind_eq_some_iff.mp opened
  split at rest
  · cases rest
  · obtain ⟨found, accountFound, same⟩ := Option.map_eq_some_iff.mp rest
    simp only [Prod.mk.injEq] at same
    obtain ⟨rfl, rfl⟩ := same
    exact ⟨List.mem_of_find?_eq_some linkFound, account?_some accountFound⟩

end Lookups

section Sweeps
variable (env : Env) (userId : Nat) (email : Option String)

/-- The row is the user's already or was bought with the address. -/
def Claimable (sub : Subscription) : Prop :=
  sub.claimedUserId = some userId ∨
    ∃ buyer mailbox, sub.buyerEmail = some buyer ∧ email = some mailbox ∧
      env.sameMailbox mailbox buyer = true

structure Sweep (before after : State) : Prop where
  accounts : after.accounts = before.accounts
  verifications : after.verifications = before.verifications
  sessions : after.sessions = before.sessions
  proved : after.proved = before.proved
  keyed : Table.Keyed Subscription.id before.subscriptions →
    Table.Keyed Subscription.id after.subscriptions
  rows : ∀ row ∈ after.subscriptions.rows, ∃ old ∈ before.subscriptions.rows,
    row.id = old.id ∧ row.buyerEmail = old.buyerEmail ∧
      (row.claimedUserId = old.claimedUserId ∨
        (row.claimedUserId = some userId ∧ Claimable env userId email old))

end Sweeps

namespace Sweep
variable {env : Env} {userId : Nat} {email : Option String} {before mid after : State}

theorem refl (state : State) : Sweep env userId email state state :=
  ⟨rfl, rfl, rfl, rfl, fun keyed => keyed, fun row rowIn => ⟨row, rowIn, rfl, rfl, Or.inl rfl⟩⟩

theorem frame (sweep : Sweep env userId email before mid) (same : SameLogins mid after) :
    Sweep env userId email before after := by
  refine ⟨same.accounts.trans sweep.accounts, same.verifications.trans sweep.verifications,
    same.sessions.trans sweep.sessions, same.proved.trans sweep.proved, ?_, ?_⟩
  · rw [same.subscriptions]
    exact sweep.keyed
  · rw [same.subscriptions]
    exact sweep.rows

theorem update (sweep : Sweep env userId email before mid) {guard : Subscription → Bool}
    {set : Subscription → Subscription} (same_id : ∀ row, (set row).id = row.id)
    (same_buyer : ∀ row, (set row).buyerEmail = row.buyerEmail)
    (claims : ∀ row, guard row = true → (set row).claimedUserId = row.claimedUserId ∨
      ((set row).claimedUserId = some userId ∧
        ∀ old ∈ before.subscriptions.rows, old.id = row.id → Claimable env userId email old)) :
    Sweep env userId email before (mid.updateSubscription guard set) := by
  refine ⟨sweep.accounts, sweep.verifications, sweep.sessions, sweep.proved,
    fun keyed => (sweep.keyed keyed).updateWhere same_id, ?_⟩
  intro row rowIn
  obtain ⟨middle, middleIn, rfl⟩ := Table.mem_updateWhere.mp rowIn
  obtain ⟨old, oldIn, sameId, sameBuyer, origin⟩ := sweep.rows middle middleIn
  refine ⟨old, oldIn, ?_⟩
  cases hit : guard middle with
  | false =>
      simp only [Bool.false_eq_true, if_false]
      exact ⟨sameId, sameBuyer, origin⟩
  | true =>
      simp only [if_true]
      refine ⟨(same_id middle).trans sameId, (same_buyer middle).trans sameBuyer, ?_⟩
      rcases claims middle hit with kept | ⟨claimed, claimable⟩
      · rw [kept]
        exact origin
      · exact Or.inr ⟨claimed, claimable old oldIn sameId.symm⟩

section Provisioning
variable {subscriptionId : Nat}
  (claimable : ∀ old ∈ before.subscriptions.rows, old.id = subscriptionId →
    Claimable env userId email old)
include claimable

theorem linkProvisioned (sweep : Sweep env userId email before mid) {sub : Subscription}
    (same : sub.id = subscriptionId) (keyId : Nat) :
    Sweep env userId email before (linkProvisioned mid sub userId keyId) := by
  have link : ∀ {seated : State}, Sweep env userId email before seated →
      Sweep env userId email before (seated.updateSubscription (·.id == sub.id) fun row =>
        { row with apiKeyId := some keyId, claimedUserId := some userId }) := by
    intro seated reached
    refine reached.update (fun _ => rfl) (fun _ => rfl) fun row hit => Or.inr ⟨rfl, ?_⟩
    intro old oldIn sameRow
    have rowId : row.id = sub.id := by simpa using hit
    exact claimable old oldIn (sameRow.trans (rowId.trans same))
  unfold Accounts.linkProvisioned
  refine link ?_
  split
  · have named := sweep.frame (ensureTenant_same mid sub.id)
    have seated := named.frame (addTenantMember_same _ userId (ensureTenant mid sub.id).2)
    exact seated.update (fun _ => rfl) (fun _ => rfl) fun _ _ => Or.inl rfl
  · exact sweep

theorem provisionOrUpgrade (sweep : Sweep env userId email before mid) :
    Sweep env userId email before (provisionOrUpgrade env mid subscriptionId userId) := by
  unfold Accounts.provisionOrUpgrade
  cases found : mid.subscription? subscriptionId with
  | none => exact sweep
  | some sub =>
      have same : sub.id = subscriptionId := by simpa using List.find?_some found
      simp only
      split
      · exact sweep
      · split
        · exact linkProvisioned claimable sweep same _
        · cases minted : mintKey env mid (some userId) with
          | none => exact sweep
          | some result =>
              exact linkProvisioned claimable (sweep.frame (mintKey_same minted)) same _

theorem claimUnclaimed (sweep : Sweep env userId email before mid) :
    Sweep env userId email before (mid.claimUnclaimed subscriptionId userId) := by
  refine sweep.update (fun _ => rfl) (fun _ => rfl) fun row hit => Or.inr ⟨rfl, ?_⟩
  intro old oldIn sameRow
  have rowId : row.id = subscriptionId := by
    simp only [Bool.and_eq_true, beq_iff_eq] at hit
    exact hit.1
  exact claimable old oldIn (sameRow.trans rowId)

end Provisioning

theorem claimOne (sweep : Sweep env userId email before mid)
    (keyed : Table.Keyed Subscription.id before.subscriptions) {sub : Subscription}
    (subIn : sub ∈ before.subscriptions.rows) (claimable : Claimable env userId email sub) :
    Sweep env userId email before (claimOne env userId mid sub) := by
  have only : ∀ old ∈ before.subscriptions.rows, old.id = sub.id →
      Claimable env userId email old := by
    intro old oldIn same
    rw [keyed.eq_of_id oldIn subIn same]
    exact claimable
  unfold Accounts.claimOne
  split
  · exact provisionOrUpgrade only sweep
  · split
    · exact provisionOrUpgrade only (claimUnclaimed only sweep)
    · exact sweep

/-- `claim_subscription_for_user` claims rows bought with the address. -/
theorem claims (keyed : Table.Keyed Subscription.id before.subscriptions) :
    Sweep env userId email before (claimSubscriptionForUser env before userId email) := by
  refine List.foldlRecOn _ _ (Sweep.refl before) ?_
  intro mid sweep sub scanned
  rcases List.mem_append.mp scanned with bought | half
  · obtain ⟨subIn, test⟩ := List.mem_filter.mp (List.mem_reverse.mp bought)
    simp only [Bool.and_eq_true, Option.any_eq_true] at test
    obtain ⟨buyer, buyerEq, mailbox, mailboxEq, same⟩ := test.2
    exact sweep.claimOne keyed subIn
      (Or.inr ⟨buyer, mailbox, buyerEq, mailboxEq, sameMailbox_symm same⟩)
  · obtain ⟨subIn, test⟩ := List.mem_filter.mp (List.mem_reverse.mp half)
    simp only [Bool.and_eq_true, beq_iff_eq] at test
    exact sweep.claimOne keyed subIn (Or.inl test.1.1)

end Sweep

namespace Owned
variable {env : Env} {state after : State}

theorem frame (owned : Owned env state) (same : SameLogins state after) : Owned env after := by
  obtain ⟨accounts, verifications, sessions, subscriptions, keys, tenants, members, proved⟩ := after
  obtain ⟨rfl, rfl, rfl, rfl, rfl⟩ := same
  exact ⟨owned.accounts, owned.subscriptions, owned.passwords, owned.identities, owned.verified,
    owned.links, owned.sessions, owned.claims⟩

theorem prove (owned : Owned env state) (actor : Nat) (address : String) :
    Owned env (state.prove actor address) := by
  have more : ∀ principal mailbox, Proved env state principal mailbox →
      Proved env (state.prove actor address) principal mailbox := by
    rintro principal mailbox ⟨known, knownIn, same⟩
    exact ⟨known, List.mem_append_left _ knownIn, same⟩
  refine { owned with verified := ?_, claims := ?_ }
  · intro account accountIn isVerified email emailEq
    exact more _ _ (owned.verified account accountIn isVerified email emailEq)
  · intro sub subIn userId mailbox claimed bought
    obtain ⟨principal, creator, proved⟩ := owned.claims sub subIn userId mailbox claimed bought
    exact ⟨principal, creator, more _ _ proved⟩

theorem proved_prove (actor : Nat) (address : String) :
    Proved env (state.prove actor address) actor address :=
  ⟨address, List.mem_append_right _ (List.mem_singleton_self _), sameMailbox_refl address⟩

theorem assert (owned : Owned env state) (actor : Nat) (body : OAuthLoginBody) :
    Owned env (state.assert actor body) := by
  unfold State.assert
  split
  · exact owned.prove actor body.email
  · exact owned

variable {actor : Nat} {body : OAuthLoginBody} {userId : Nat}

theorem proved_assert (verified : body.emailVerified = true) :
    Proved env (state.assert actor body) actor body.email := by
  rw [State.assert, if_pos verified]
  exact proved_prove actor body.email

theorem openSession (owned : Owned env state) {actor userId : Nat}
    (creator : Creator state userId actor) : Owned env (state.openSession actor userId) := by
  refine { owned with sessions := ?_ }
  intro session sessionIn
  rcases List.mem_append.mp sessionIn with old | new
  · exact owned.sessions session old
  · rw [List.mem_singleton.mp new]
    exact creator

theorem rotate (owned : Owned env state) (userId : Nat) :
    Owned env { state with sessions := state.sessions.filter (·.userId != userId) } :=
  { owned with
    sessions := fun session sessionIn =>
      owned.sessions session (List.mem_filter.mp sessionIn).1 }

theorem useLink (owned : Owned env state) (token : Nat) :
    Owned env (state.useLink token) := by
  refine { owned with links := ?_ }
  intro link linkIn
  obtain ⟨old, oldIn, rfl⟩ := Table.mem_updateWhere.mp linkIn
  obtain ⟨account, accountIn, sameId, sent⟩ := owned.links old oldIn
  refine ⟨account, accountIn, ?_⟩
  split
  · exact ⟨sameId, sent⟩
  · exact ⟨sameId, sent⟩

theorem sendVerification (owned : Owned env state) {email : String}
    (mailed : ∃ account ∈ state.accounts.rows, account.id = userId ∧ account.email = some email)
    (expiresAt : Nat) : Owned env (state.sendVerification userId email expiresAt) := by
  refine { owned with links := ?_ }
  intro link linkIn
  rcases List.mem_append.mp linkIn with old | new
  · exact owned.links link old
  · rw [List.mem_singleton.mp new]
    exact mailed

theorem addAccount (owned : Owned env state) (make : Nat → Account)
    (given_id : ∀ id, (make id).id = id)
    (password : ∀ id secret, (make id).password = some secret →
      secret.chosenBy = (make id).createdBy)
    (identity : ∀ id identity, (make id).oauth = some identity →
      identity.holder = (make id).createdBy)
    (verified : ∀ id, (make id).emailVerified = true → ∀ email, (make id).email = some email →
      Proved env state (make id).createdBy email) :
    Owned env (state.addAccount make) := by
  have stays : ∀ userId principal, Creator state userId principal →
      Creator (state.addAccount make) userId principal := by
    rintro userId principal ⟨account, accountIn, sameId, creator⟩
    exact ⟨account, List.mem_append_left _ accountIn, sameId, creator⟩
  refine
    { owned with
      accounts := owned.accounts.insert given_id
      passwords := ?_, identities := ?_, verified := ?_, links := ?_, sessions := ?_
      claims := ?_ }
  · intro account accountIn
    rcases List.mem_append.mp accountIn with old | new
    · exact owned.passwords account old
    · rw [List.mem_singleton.mp new]
      exact password _
  · intro account accountIn
    rcases List.mem_append.mp accountIn with old | new
    · exact owned.identities account old
    · rw [List.mem_singleton.mp new]
      exact identity _
  · intro account accountIn
    rcases List.mem_append.mp accountIn with old | new
    · exact owned.verified account old
    · rw [List.mem_singleton.mp new]
      exact verified _
  · intro link linkIn
    obtain ⟨account, accountIn, sent⟩ := owned.links link linkIn
    exact ⟨account, List.mem_append_left _ accountIn, sent⟩
  · intro session sessionIn
    exact stays _ _ (owned.sessions session sessionIn)
  · intro sub subIn userId mailbox claimed bought
    obtain ⟨principal, creator, proved⟩ := owned.claims sub subIn userId mailbox claimed bought
    exact ⟨principal, stays _ _ creator, proved⟩

theorem creator_update (set : Account → Account) (same_id : ∀ account, (set account).id = account.id)
    (same_creator : ∀ account, (set account).createdBy = account.createdBy) {target userId : Nat}
    {principal : Nat} (creator : Creator state userId principal) :
    Creator (state.updateAccount target set) userId principal := by
  obtain ⟨account, accountIn, sameId, created⟩ := creator
  refine ⟨_, Table.mem_updateWhere.mpr ⟨account, accountIn, rfl⟩, ?_⟩
  split
  · exact ⟨(same_id account).trans sameId, (same_creator account).trans created⟩
  · exact ⟨sameId, created⟩

theorem updateAccount (owned : Owned env state) {target : Nat} {set : Account → Account}
    (same_id : ∀ account, (set account).id = account.id)
    (same_creator : ∀ account, (set account).createdBy = account.createdBy)
    (same_email : ∀ account, (set account).email = account.email)
    (same_password : ∀ account, (set account).password = account.password)
    (identity : ∀ account ∈ state.accounts.rows, account.id = target →
      ∀ identity, (set account).oauth = some identity → identity.holder = account.createdBy)
    (verified : ∀ account ∈ state.accounts.rows, account.id = target →
      (set account).emailVerified = true → ∀ email, account.email = some email →
        Proved env state account.createdBy email) :
    Owned env (state.updateAccount target set) := by
  refine
    { owned with
      accounts := owned.accounts.updateWhere same_id
      passwords := ?_, identities := ?_, verified := ?_, links := ?_, sessions := ?_
      claims := ?_ }
  · intro account accountIn
    obtain ⟨old, oldIn, rfl⟩ := Table.mem_updateWhere.mp accountIn
    split
    · rw [same_password, same_creator]
      exact owned.passwords old oldIn
    · exact owned.passwords old oldIn
  · intro account accountIn
    obtain ⟨old, oldIn, rfl⟩ := Table.mem_updateWhere.mp accountIn
    split
    · rename_i hit
      rw [same_creator]
      exact identity old oldIn (by simpa using hit)
    · exact owned.identities old oldIn
  · intro account accountIn
    obtain ⟨old, oldIn, rfl⟩ := Table.mem_updateWhere.mp accountIn
    split
    · rename_i hit
      rw [same_creator, same_email]
      exact verified old oldIn (by simpa using hit)
    · exact owned.verified old oldIn
  · intro link linkIn
    obtain ⟨account, accountIn, sameId, sent⟩ := owned.links link linkIn
    refine ⟨_, Table.mem_updateWhere.mpr ⟨account, accountIn, rfl⟩, ?_⟩
    split
    · exact ⟨(same_id account).trans sameId, (same_email account).trans sent⟩
    · exact ⟨sameId, sent⟩
  · intro session sessionIn
    exact creator_update set same_id same_creator (owned.sessions session sessionIn)
  · intro sub subIn userId mailbox claimed bought
    obtain ⟨principal, creator, proved⟩ := owned.claims sub subIn userId mailbox claimed bought
    exact ⟨principal, creator_update set same_id same_creator creator, proved⟩

theorem sweep (owned : Owned env state) {email : Option String}
    (proved : ∀ mailbox, email = some mailbox →
      ∃ principal, Creator state userId principal ∧ Proved env state principal mailbox)
    (swept : Sweep env userId email state after) : Owned env after := by
  obtain ⟨accounts, verifications, sessions, subscriptions, keys, tenants, members, known⟩ := after
  obtain ⟨rfl, rfl, rfl, rfl, keyed, rows⟩ := swept
  refine
    ⟨owned.accounts, keyed owned.subscriptions, owned.passwords, owned.identities, owned.verified,
      owned.links, owned.sessions, ?_⟩
  intro row rowIn claimant mailbox claimed bought
  obtain ⟨old, oldIn, -, sameBuyer, origin⟩ := rows row rowIn
  have oldBought : old.buyerEmail = some mailbox := sameBuyer.symm.trans bought
  rcases origin with kept | ⟨given, claimable⟩
  · exact owned.claims old oldIn claimant mailbox (kept.symm.trans claimed) oldBought
  · have same : claimant = userId := Option.some.inj (claimed.symm.trans given)
    subst same
    rcases claimable with already | ⟨buyer, address, buyerEq, addressEq, equal⟩
    · exact owned.claims old oldIn claimant mailbox already oldBought
    · obtain ⟨principal, creator, holds⟩ := proved address addressEq
      have exact_buyer : buyer = mailbox := Option.some.inj (buyerEq.symm.trans oldBought)
      exact ⟨principal, creator, holds.same (exact_buyer ▸ equal)⟩

theorem claims_sweep (owned : Owned env state) {email : Option String}
    (proved : ∀ mailbox, email = some mailbox →
      ∃ principal, Creator state userId principal ∧ Proved env state principal mailbox) :
    Owned env (claimSubscriptionForUser env state userId email) :=
  owned.sweep proved (Sweep.claims owned.subscriptions)

theorem register (owned : Owned env state) (actor : Nat) (body : RegisterBody) (expiresAt : Nat) :
    Owned env (register env state actor body expiresAt) := by
  unfold Accounts.register
  simp only
  split
  · exact owned
  · have created := owned.addAccount
      (signUpAccount actor (env.strip body.username) (env.pyLower (env.strip body.email))
        body.password) (fun _ => rfl) ?_ ?_ ?_
    · exact created.sendVerification
        ⟨_, List.mem_append_right _ (List.mem_singleton_self _), rfl, rfl⟩ expiresAt
    · intro id secret chosen
      rw [← Option.some.inj chosen]
      rfl
    · intro id identity linked
      cases linked
    · intro id isVerified
      cases isVerified

theorem resendVerification (owned : Owned env state) (email : String) (expiresAt : Nat)
    (refused : Bool) : Owned env (resendVerification env state email expiresAt refused) := by
  unfold Accounts.resendVerification
  simp only
  split
  · exact owned
  · rename_i account found
    split
    · exact owned
    · have test := List.find?_some found
      simp only [Bool.and_eq_true, beq_iff_eq] at test
      exact owned.sendVerification
        ⟨account, List.mem_of_find?_eq_some found, rfl, test.1⟩ expiresAt

theorem verifyEmail (owned : Owned env state) {actor token now : Nat}
    (own : ownAccount env state (.verifyEmail actor token now) = true) :
    Owned env (verifyEmail env state actor token now) := by
  unfold Accounts.verifyEmail
  cases opened : state.openLink token now with
  | none => exact owned
  | some found =>
      obtain ⟨row, account⟩ := found
      obtain ⟨rowIn, accountIn, target⟩ := openLink_some opened
      have creator : account.createdBy = actor := by
        simpa [ownAccount, opened] using own
      have only : ∀ other ∈ state.accounts.rows, other.id = account.id → other = account :=
        fun other otherIn same => owned.accounts.eq_of_id otherIn accountIn same
      have sent : account.email = some row.sentTo := by
        obtain ⟨mailed, mailedIn, sameId, sentTo⟩ := owned.links row rowIn
        rw [← only mailed mailedIn (sameId.trans target.symm)]
        exact sentTo
      have proved : Proved env (state.prove actor row.sentTo) actor row.sentTo :=
        proved_prove actor row.sentTo
      have marked : Owned env ((state.prove actor row.sentTo).markVerified account.id) := by
        refine (owned.prove actor row.sentTo).updateAccount (fun _ => rfl) (fun _ => rfl)
          (fun _ => rfl) (fun _ => rfl) ?_ ?_
        · intro other otherIn _
          exact owned.identities other otherIn
        · intro other otherIn same _ email emailEq
          rw [only other otherIn same, creator]
          rw [only other otherIn same, sent] at emailEq
          rw [← Option.some.inj emailEq]
          exact proved
      have mine : Creator ((state.prove actor row.sentTo).markVerified account.id)
          account.id actor :=
        creator_update _ (fun _ => by rfl) (fun _ => by rfl) ⟨account, accountIn, rfl, creator⟩
      have session := (marked.useLink token).openSession mine
      have minted := mintDefaultApiKey_same env
        ((((state.prove actor row.sentTo).markVerified account.id).useLink token).openSession
          actor account.id) account.id
      refine (session.frame minted).claims_sweep ?_
      intro mailbox mailboxEq
      refine ⟨actor, ?_, ?_⟩
      · rw [Creator, minted.accounts]
        exact mine
      · rw [Proved, minted.proved, ← Option.some.inj (sent.symm.trans mailboxEq)]
        exact proved

theorem oauthUser (owned : Owned env state) {suffix : String}
    {signupEnabled : Bool}
    (own : ∀ account, matchedByEmail env state actor body = some account →
      account.createdBy = actor)
    (asserted : body.emailVerified = true → Proved env state actor body.email)
    {found : State} {account : Account} {isNewUser : Bool}
    (reached : oauthUser env state actor body suffix signupEnabled =
      some (found, account, isNewUser)) :
    Owned env found ∧ Creator found account.id actor ∧ found.proved = state.proved := by
  unfold Accounts.oauthUser at reached
  simp only at reached
  cases known : state.lookupUserByOAuth ⟨actor, body.provider, body.oauthId⟩ with
  | some user =>
      simp only [known, Option.some.injEq, Prod.mk.injEq] at reached
      obtain ⟨rfl, rfl, -⟩ := reached
      have userIn := List.mem_of_find?_eq_some known
      have identity : user.oauth = some ⟨actor, body.provider, body.oauthId⟩ := by
        simpa using List.find?_some known
      have holder := owned.identities user userIn _ identity
      exact ⟨owned, ⟨user, userIn, rfl, holder.symm⟩, rfl⟩
  | none =>
      simp only [known] at reached
      cases matched : State.lookupUserByEmail env state body.email with
      | some user =>
          simp only [matched] at reached
          split at reached
          · rename_i verified
            simp only [Option.some.injEq, Prod.mk.injEq] at reached
            obtain ⟨rfl, rfl, -⟩ := reached
            have userIn := List.mem_of_find?_eq_some matched
            have creator := own user (by simp [matchedByEmail, known, verified, matched])
            refine ⟨?_, ?_, rfl⟩
            · refine owned.updateAccount (fun _ => rfl) (fun _ => rfl) (fun _ => rfl)
                (fun _ => rfl) ?_ ?_
              · intro other otherIn same identity linked
                rw [owned.accounts.eq_of_id otherIn userIn same, creator, ← Option.some.inj linked]
              · intro other otherIn _ isVerified
                exact owned.verified other otherIn isVerified
            · exact creator_update _ (fun _ => by rfl) (fun _ => by rfl) ⟨user, userIn, rfl, creator⟩
          · cases reached
      | none =>
          simp only [matched] at reached
          split at reached
          · simp only [Option.some.injEq, Prod.mk.injEq] at reached
            obtain ⟨rfl, rfl, -⟩ := reached
            refine ⟨?_, ?_, rfl⟩
            · refine owned.addAccount _ (fun _ => rfl) ?_ ?_ ?_
              · intro id secret chosen
                cases chosen
              · intro id identity linked
                rw [← Option.some.inj linked]
                rfl
              · intro id isVerified email emailEq
                rw [← Option.some.inj emailEq]
                exact asserted isVerified
            · exact ⟨_, List.mem_append_right _ (List.mem_singleton_self _), rfl, rfl⟩
          · cases reached

theorem oauthSession (owned : Owned env state)
    {account : Account} (creator : Creator state account.id actor)
    (asserted : body.emailVerified = true → Proved env state actor body.email) (isNewUser : Bool) :
    Owned env (oauthSession env state actor body account isNewUser) := by
  have opened := owned.openSession creator
  have same : SameLogins (state.openSession actor account.id)
      (if isNewUser then mintDefaultApiKey env (state.openSession actor account.id) account.id
        else state.openSession actor account.id) := by
    split
    · exact mintDefaultApiKey_same env _ account.id
    · exact .refl _
  unfold Accounts.oauthSession
  simp only
  split
  · rename_i verified
    refine (opened.frame same).claims_sweep ?_
    intro mailbox mailboxEq
    refine ⟨actor, ?_, ?_⟩
    · rw [Creator, same.accounts]
      exact creator
    · rw [Proved, same.proved, ← Option.some.inj mailboxEq]
      exact asserted verified
  · exact opened.frame same

theorem oauthLogin (owned : Owned env state) {request : OAuthLoginBody}
    {suffix : String} {signupEnabled : Bool}
    (own : ownAccount env state (.oauthLogin actor request suffix signupEnabled) = true) :
    Owned env (oauthLogin env state actor request suffix signupEnabled) := by
  unfold Accounts.oauthLogin
  cases valid : env.validated request with
  | none => exact owned
  | some body =>
      have asserted := owned.assert actor body
      have mine : ∀ account, matchedByEmail env state actor body = some account →
          account.createdBy = actor := by
        intro account matched
        simpa [ownAccount, valid, matched] using own
      have sameAccounts : (state.assert actor body).accounts = state.accounts := by
        unfold State.assert
        split <;> rfl
      have sameMatch : matchedByEmail env (state.assert actor body) actor body =
          matchedByEmail env state actor body := by
        simp only [matchedByEmail, State.lookupUserByOAuth, State.lookupUserByEmail, sameAccounts]
      simp only
      cases reached : Accounts.oauthUser env (state.assert actor body) actor body suffix signupEnabled with
      | none => exact asserted
      | some result =>
          obtain ⟨found, account, isNewUser⟩ := result
          obtain ⟨ownedFound, creator, sameProved⟩ :=
            asserted.oauthUser (sameMatch ▸ mine) proved_assert reached
          simp only
          split
          · refine ownedFound.oauthSession creator ?_ isNewUser
            intro verified
            rw [Proved, sameProved]
            exact proved_assert verified
          · exact ownedFound

theorem loginPost (owned : Owned env state) {username text : String} {refused : Bool}
    (own : ownAccount env state (.loginPost actor username text refused) = true) :
    Owned env (loginPost env state actor username text refused) := by
  unfold Accounts.loginPost
  cases found : state.accounts.rows.find? (·.username == env.strip username) with
  | none => exact owned
  | some user =>
      have userIn := List.mem_of_find?_eq_some found
      simp only
      split
      · exact owned
      · rename_i accepted
        have passes : user.passwordOk actor text = true := by
          by_contra refuses
          exact accepted (by simp [refuses])
        have creator : Creator state user.id actor := by
          refine ⟨user, userIn, rfl, ?_⟩
          cases password : user.password with
          | none =>
              have dummy : text = dummyPassword := by
                simpa [Account.passwordOk, password] using passes
              simp [ownAccount, found, password, dummy] at own
          | some secret =>
              have chosen : secret = ⟨actor, text⟩ := by
                simpa [Account.passwordOk, password] using passes
              rw [← owned.passwords user userIn secret password, chosen]
        have opened := (owned.rotate user.id).openSession creator
        split
        · rename_i verified
          simp only [Bool.and_eq_true] at verified
          refine opened.claims_sweep ?_
          intro mailbox mailboxEq
          obtain ⟨account, accountIn, sameId, created⟩ := creator
          rw [owned.accounts.eq_of_id accountIn userIn sameId] at created
          exact ⟨actor, ⟨user, userIn, rfl, created⟩,
            created ▸ owned.verified user userIn verified.1 mailbox mailboxEq⟩
        · exact opened

theorem addSubscription (owned : Owned env state) (buyerEmail : Option String) (seats : Nat) :
    Owned env (state.addSubscription buyerEmail seats) := by
  refine { owned with subscriptions := ?_, claims := ?_ }
  · simp only [State.addSubscription]
    exact owned.subscriptions.insert fun _ => rfl
  · intro sub subIn userId mailbox claimed
    rcases List.mem_append.mp subIn with old | new
    · exact owned.claims sub old userId mailbox claimed
    · rw [List.mem_singleton.mp new] at claimed
      cases claimed

theorem grantEntitlement (owned : Owned env state) (buyerEmail : Option String) (seats : Nat) :
    Owned env (grantEntitlement env state buyerEmail seats) := by
  unfold Accounts.grantEntitlement
  simp only
  have bought := owned.addSubscription buyerEmail seats
  split
  · exact bought
  · rename_i email address
    split
    · exact bought
    · rename_i account found
      have accountIn := List.mem_of_find?_eq_some found
      have test := List.find?_some found
      simp only [Bool.and_eq_true, Option.any_eq_true] at test
      obtain ⟨verified, own, ownEq, same⟩ := test
      have proved := owned.verified account accountIn verified own ownEq
      have claimable : ∀ old ∈ (state.addSubscription buyerEmail seats).subscriptions.rows,
          old.id = state.subscriptions.nextId →
            Claimable env account.id (some own) old := by
        intro old oldIn sameId
        rcases List.mem_append.mp oldIn with earlier | new
        · have below := owned.subscriptions.bounded old earlier
          omega
        · rw [List.mem_singleton.mp new]
          exact Or.inr ⟨email, own, (Option.filter_eq_some_iff.mp address).1, rfl,
            sameMailbox_symm same⟩
      have swept := Sweep.provisionOrUpgrade claimable
        (Sweep.claimUnclaimed claimable (Sweep.refl (state.addSubscription buyerEmail seats)))
      refine bought.sweep ?_ swept
      intro mailbox mailboxEq
      exact ⟨account.createdBy, ⟨account, accountIn, rfl, rfl⟩, Option.some.inj mailboxEq ▸ proved⟩

theorem listApiKeys (owned : Owned env state) (actor userId : Nat) :
    Owned env (listApiKeysRoute env state actor userId) := by
  unfold listApiKeysRoute
  split
  · exact owned.frame (mintDefaultApiKey_same env state userId)
  · exact owned

theorem createApiKey (owned : Owned env state) (actor : Nat) (userId : Option Nat) :
    Owned env (createApiKeyRoute env state actor userId) := by
  unfold createApiKeyRoute
  split
  · simp only
    split
    · cases created : Accounts.createApiKey state userId none with
      | none => exact owned
      | some result => exact owned.frame (createApiKey_same created)
    · cases minted : mintKey env state userId with
      | none => exact owned
      | some result => exact owned.frame (mintKey_same minted)
  · exact owned

theorem step (owned : Owned env state) {event : Event} (own : ownAccount env state event = true) :
    Owned env (step env state event) := by
  cases event with
  | register actor body expiresAt => exact owned.register actor body expiresAt
  | resendVerification email expiresAt refused =>
      exact owned.resendVerification email expiresAt refused
  | verifyEmail actor token now => exact owned.verifyEmail own
  | oauthLogin actor body suffix signupEnabled => exact owned.oauthLogin own
  | loginPost actor username password refused => exact owned.loginPost own
  | grantEntitlement buyerEmail seats => exact owned.grantEntitlement buyerEmail seats
  | listApiKeys actor userId => exact owned.listApiKeys actor userId
  | createApiKey actor userId => exact owned.createApiKey actor userId

theorem initial (tenants : Table Tenant) : Owned env (initial tenants) where
  accounts := Table.keyed_empty
  subscriptions := Table.keyed_empty
  passwords := fun _ member => absurd member List.not_mem_nil
  identities := fun _ member => absurd member List.not_mem_nil
  verified := fun _ member => absurd member List.not_mem_nil
  links := fun _ member => absurd member List.not_mem_nil
  sessions := fun _ member => absurd member List.not_mem_nil
  claims := fun _ member => absurd member List.not_mem_nil

end Owned

/-- Nobody holds a session on an account that claimed a subscription bought with a mailbox it
never proved, in a run where only creators reach accounts by their address. -/
theorem sessions_prove_mailbox (env : Env) (tenants : Table Tenant) (events : List Event)
    (steps : AllSteps (step env) (fun state event => ownAccount env state event = true)
      (initial tenants) events) :
    Lawful env (run (step env) (initial tenants) events) := by
  have reached := run_preserves_guarded (step env) _ (Owned env)
    (fun _ _ own owned => owned.step own) events (initial tenants) steps (.initial tenants)
  exact reached.lawful

def annaSignUp (password : String) : RegisterBody :=
  { username := "anna", email := "anna@shop.vn", password, refused := false }

def annaGoogle : OAuthLoginBody :=
  { provider := "google", oauthId := "g-2", email := "anna@shop.vn", emailVerified := true }

/-- Anna signs up, opens her link, buys, and logs in with her password and by OAuth. -/
def ownAccess : List Event :=
  [.register 2 (annaSignUp "annas-long-password") 100, .verifyEmail 2 0 10,
    .grantEntitlement (some "anna@shop.vn") 1, .oauthLogin 2 annaGoogle "ab12" true,
    .loginPost 2 "anna" "annas-long-password" false]

theorem own_access_proved :
    (run (step plainText) (initial twoTenants) ownAccess).sessions = [⟨2, 0⟩] ∧
      ((run (step plainText) (initial twoTenants) ownAccess).subscriptions.rows.map
        (·.claimedUserId)) = [some 0] ∧
      Lawful plainText (run (step plainText) (initial twoTenants) ownAccess) :=
  ⟨by decide +kernel, by decide +kernel,
    sessions_prove_mailbox plainText twoTenants ownAccess (by decide +kernel)⟩

/-- Somebody signs up with Anna's address before her OAuth login reaches the row. -/
def presetPassword : List Event :=
  [.register 1 (annaSignUp "somebodys-password") 100, .grantEntitlement (some "anna@shop.vn") 1,
    .oauthLogin 2 annaGoogle "ab12" true, .loginPost 1 "anna" "somebodys-password" false]

/-- Somebody logs in to Anna's account, which has no password, with the dummy text. -/
def dummyLogin : List Event :=
  [.grantEntitlement (some "anna@shop.vn") 1, .oauthLogin 2 annaGoogle "ab12" true,
    .loginPost 1 "anna_ab12" dummyPassword false]

theorem not_lawful_of_stranger {env : Env} {state : State} {holder userId : Nat} {email : String}
    (session : ⟨holder, userId⟩ ∈ state.sessions)
    (claimed : ∃ sub ∈ state.subscriptions.rows,
      sub.claimedUserId = some userId ∧ sub.buyerEmail = some email)
    (stranger : ∀ known ∈ state.proved, known.1 ≠ holder) : ¬ Lawful env state := by
  intro lawful
  obtain ⟨sub, subIn, isClaimed, bought⟩ := claimed
  obtain ⟨address, known, -⟩ := lawful _ session sub subIn email isClaimed bought
  exact stranger _ known rfl

theorem strangers_take_over :
    ¬ Lawful plainText (run (step plainText) (initial twoTenants) presetPassword) ∧
      ¬ Lawful plainText (run (step plainText) (initial twoTenants) dummyLogin) :=
  ⟨@not_lawful_of_stranger _ _ 1 0 "anna@shop.vn" (by decide +kernel) (by decide +kernel)
      (by decide +kernel),
    @not_lawful_of_stranger _ _ 1 0 "anna@shop.vn" (by decide +kernel) (by decide +kernel)
      (by decide +kernel)⟩

end OdooSemantic.WebUi.Takeover
