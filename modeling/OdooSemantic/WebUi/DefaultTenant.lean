import OdooSemantic.WebUi.Accounts

/-!
# Keys bound to the Viindoo tenant

The tenant of a new key is the one of the owner's domain, whether or not the address was
verified.  A plain user is exposed as long as that tenant is the Viindoo tenant and the address
is unverified.
-/

set_option autoImplicit false

namespace OdooSemantic.WebUi.DefaultTenant

open Lib Lib.Run WebUi.Accounts

section Exposure
variable (env : Env) (state : State)

def isMember (userId : Nat) : Bool := state.members.any (·.1 == userId)

/-- A key bound to the Viindoo tenant, whose owner is neither an admin nor a member of a tenant,
was minted for a verified address. -/
def Lawful : Prop :=
  ∀ key ∈ state.keys.rows, ∀ owner ∈ state.accounts.rows, key.userId = some owner.id →
    ∀ tenantId, key.tenantId = some tenantId → getViindooTenantId env state = some tenantId →
      owner.isAdmin = false → isMember state owner.id = false → key.mintedVerified = true

def ledToViindoo (email : Option String) : Bool :=
  env.viindooAddress email || getPublicTenantId state == getViindooTenantId env state

def exposed (account : Account) : Bool :=
  !account.isAdmin && !isMember state account.id && !account.emailVerified &&
    ledToViindoo env state account.email

/-- Nothing mints for an exposed account: neither of the two key routes, nor the claims of an
OAuth login, nor an OAuth sign-up. -/
def sparesExposed : Event → Bool
  | .oauthLogin actor request _ _ =>
      (env.validated request).all fun body =>
        match state.lookupUserByOAuth ⟨actor, body.provider, body.oauthId⟩ with
        | some account => !body.emailVerified || !exposed env state account
        | none =>
            match State.lookupUserByEmail env state body.email with
            | some account => !body.emailVerified || !exposed env state account
            | none => body.emailVerified || !ledToViindoo env state (some body.email)
  | .listApiKeys _ userId =>
      !(state.listApiKeys userId).isEmpty ||
        (state.account? userId).all fun account => !exposed env state account
  | .createApiKey _ userId =>
      (userId.bind state.account?).all fun account => !exposed env state account
  | _ => true

structure Bound : Prop where
  accounts : Table.Keyed Account.id state.accounts
  keys : ∀ key ∈ state.keys.rows, ∀ userId tenantId, key.userId = some userId →
    key.tenantId = some tenantId → getViindooTenantId env state = some tenantId →
      ∃ owner ∈ state.accounts.rows, owner.id = userId ∧
        (owner.isAdmin = true ∨ isMember state userId = true ∨ key.mintedVerified = true)

def Spared (userId : Nat) : Prop :=
  ∀ account ∈ state.accounts.rows, account.id = userId → exposed env state account = false

structure Widens (before after : State) : Prop where
  accounts : after.accounts = before.accounts
  keys : after.keys = before.keys
  viindoo : getViindooTenantId env after = getViindooTenantId env before
  shared : getPublicTenantId after = getPublicTenantId before
  members : ∀ userId, isMember before userId = true → isMember after userId = true

end Exposure

section Frames
variable {env : Env} {state mid after : State}

theorem Bound.lawful (bound : Bound env state) : Lawful env state := by
  intro key keyIn owner ownerIn owned tenantId tenant viindoo notAdmin notMember
  obtain ⟨found, foundIn, sameId, reason⟩ :=
    bound.keys key keyIn owner.id tenantId owned tenant viindoo
  rw [bound.accounts.eq_of_id foundIn ownerIn sameId] at reason
  rcases reason with admin | member | verified
  · rw [notAdmin] at admin
    cases admin
  · rw [notMember] at member
    cases member
  · exact verified

theorem exposed_iff (account : Account) :
    exposed env state account = true ↔
      account.isAdmin = false ∧ isMember state account.id = false ∧
        account.emailVerified = false ∧ ledToViindoo env state account.email = true := by
  simp [exposed, and_assoc]

theorem unexposed_cases {account : Account} (safe : exposed env state account = false) :
    account.isAdmin = true ∨ isMember state account.id = true ∨ account.emailVerified = true ∨
      ledToViindoo env state account.email = false := by
  by_contra none_holds
  simp only [not_or, Bool.not_eq_true, Bool.not_eq_false] at none_holds
  have shown := (exposed_iff account).mpr none_holds
  rw [safe] at shown
  cases shown

theorem Widens.trans (first : Widens env state mid) (second : Widens env mid after) :
    Widens env state after :=
  ⟨second.accounts.trans first.accounts, second.keys.trans first.keys,
    second.viindoo.trans first.viindoo, second.shared.trans first.shared,
    fun userId member => second.members userId (first.members userId member)⟩

theorem Widens.of_eq (accounts : after.accounts = state.accounts) (keys : after.keys = state.keys)
    (tenants : after.tenants = state.tenants) (members : after.members = state.members) :
    Widens env state after := by
  refine ⟨accounts, keys, ?_, ?_, ?_⟩
  · simp only [getViindooTenantId, State.tenantNamed, tenants]
  · simp only [getPublicTenantId, State.tenantNamed, tenants]
  · intro userId member
    simpa only [isMember, members] using member

theorem Bound.widen (bound : Bound env state) (widens : Widens env state after) :
    Bound env after := by
  refine ⟨widens.accounts ▸ bound.accounts, ?_⟩
  intro key keyIn userId tenantId owned tenant viindoo
  rw [widens.keys] at keyIn
  rw [widens.viindoo] at viindoo
  obtain ⟨owner, ownerIn, sameId, reason⟩ := bound.keys key keyIn userId tenantId owned tenant viindoo
  refine ⟨owner, widens.accounts ▸ ownerIn, sameId, ?_⟩
  rcases reason with admin | member | verified
  · exact Or.inl admin
  · exact Or.inr (Or.inl (widens.members userId member))
  · exact Or.inr (Or.inr verified)

theorem ledToViindoo_widen (widens : Widens env state after) (email : Option String) :
    ledToViindoo env after email = ledToViindoo env state email := by
  simp only [ledToViindoo, widens.viindoo, widens.shared]

theorem Spared.widen {userId : Nat} (spared : Spared env state userId)
    (widens : Widens env state after) : Spared env after userId := by
  intro account accountIn sameId
  rw [widens.accounts] at accountIn
  have safe := unexposed_cases (spared account accountIn sameId)
  by_contra shown
  obtain ⟨notAdmin, notMember, unverified, led⟩ :=
    (exposed_iff account).mp (Bool.not_eq_false _ ▸ shown)
  rcases safe with admin | member | verified | apart
  · rw [notAdmin] at admin
    cases admin
  · rw [widens.members _ member] at notMember
    cases notMember
  · rw [unverified] at verified
    cases verified
  · rw [ledToViindoo_widen widens, apart] at led
    cases led

theorem tenantNamed_insert {name : String} {make : Nat → Tenant}
    (apart : ∀ id, (make id).name ≠ name) :
    ({ state with tenants := state.tenants.insert make } : State).tenantNamed name =
      state.tenantNamed name := by
  have missed : List.find? (fun tenant : Tenant => tenant.name == name)
      [make state.tenants.nextId] = none := by
    simp [apart]
  simp only [State.tenantNamed, Table.insert_rows, List.find?_append, missed, Option.or_none]

theorem seatTenant_apart (subscriptionId : Nat) (rest : List Char) (first : Char)
    (other : first ≠ 's') :
    "sub-" ++ toString subscriptionId ≠ String.ofList (first :: rest) := by
  intro same
  have heads := congrArg (fun text : String => text.toList.head?) same
  simp at heads
  exact other heads.symm

theorem ensureTenant_widens (subscriptionId : Nat) :
    Widens env state (ensureTenant state subscriptionId).1 := by
  unfold ensureTenant
  split
  · exact .of_eq rfl rfl rfl rfl
  · refine ⟨rfl, rfl, ?_, ?_, fun _ member => member⟩
    · have same := @tenantNamed_insert state "Viindoo Technology JSC"
        (fun id => { id, name := "sub-" ++ toString subscriptionId })
        fun _ => seatTenant_apart subscriptionId _ 'V' (by decide)
      simp only [getViindooTenantId, same]
    · exact tenantNamed_insert fun _ => seatTenant_apart subscriptionId _ 'p' (by decide)

theorem addTenantMember_widens (userId tenantId : Nat) :
    Widens env state (addTenantMember state userId tenantId) := by
  unfold addTenantMember
  split
  · exact .of_eq rfl rfl rfl rfl
  · refine ⟨rfl, rfl, rfl, rfl, ?_⟩
    intro other member
    simp only [isMember, List.any_append, Bool.or_eq_true]
    exact Or.inl member

theorem updateSubscription_widens (guard : Subscription → Bool)
    (set : Subscription → Subscription) : Widens env state (state.updateSubscription guard set) :=
  .of_eq rfl rfl rfl rfl

theorem linkProvisioned_widens (sub : Subscription) (userId keyId : Nat) :
    Widens env state (linkProvisioned state sub userId keyId) := by
  unfold linkProvisioned
  refine Widens.trans ?_ (updateSubscription_widens _ _)
  split
  · exact ((ensureTenant_widens sub.id).trans (addTenantMember_widens userId _)).trans
      (updateSubscription_widens _ _)
  · exact .of_eq rfl rfl rfl rfl

end Frames

namespace Bound
variable {env : Env} {state after : State} {keyId : Nat}

theorem resolved_cases {account : Account} (found : state.account? account.id = some account)
    {tenantId : Nat}
    (resolved : resolveDefaultMintTenantId env state (some account.id) = some tenantId)
    (viindoo : getViindooTenantId env state = some tenantId) :
    isMember state account.id = true ∨ ledToViindoo env state account.email = true := by
  unfold resolveDefaultMintTenantId at resolved
  simp only [Option.map_some, Option.bind_some, found] at resolved
  split at resolved
  · rename_i only memberships
    refine Or.inl ?_
    have member : only ∈ state.listTenantIdsForUser account.id := by
      rw [Option.some.inj memberships]
      exact List.mem_singleton_self _
    obtain ⟨row, rowIn, -⟩ := List.mem_map.mp member
    obtain ⟨rowMember, test⟩ := List.mem_filter.mp rowIn
    exact List.any_eq_true.mpr ⟨row, rowMember, test⟩
  · refine Or.inr ?_
    split at resolved
    · rename_i address
      simp only [ledToViindoo, address, Bool.true_or]
    · simp [ledToViindoo, resolved, viindoo]

theorem createApiKey (bound : Bound env state) {userId tenantId : Option Nat}
    (created : createApiKey state userId tenantId = some (after, keyId))
    (sound : ∀ id tenant, userId = some id → tenantId = some tenant →
      getViindooTenantId env state = some tenant → ∀ account, state.account? id = some account →
        account.isAdmin = true ∨ isMember state id = true ∨ account.emailVerified = true) :
    Bound env after := by
  unfold Accounts.createApiKey at created
  split at created
  · rename_i exists'
    simp only [Option.some.injEq, Prod.mk.injEq] at created
    obtain ⟨rfl, -⟩ := created
    refine ⟨bound.accounts, ?_⟩
    intro key keyIn id tenant owned boundTo viindoo
    rcases List.mem_append.mp keyIn with old | new
    · exact bound.keys key old id tenant owned boundTo viindoo
    · obtain rfl := List.mem_singleton.mp new
      simp only at owned boundTo
      subst owned boundTo
      obtain ⟨account, found⟩ := Option.isSome_iff_exists.mp
        (show (state.account? id).isSome = true by simpa using exists')
      have sameId : account.id = id := by simpa using List.find?_some found
      refine ⟨account, List.mem_of_find?_eq_some found, sameId, ?_⟩
      rcases sound id tenant rfl rfl viindoo account found with admin | member | verified
      · exact Or.inl admin
      · exact Or.inr (Or.inl member)
      · exact Or.inr (Or.inr (by simp [found, verified]))
  · cases created

theorem mintKey (bound : Bound env state) {userId : Option Nat}
    (spared : ∀ id, userId = some id → Spared env state id)
    (minted : mintKey env state userId = some (after, keyId)) : Bound env after := by
  obtain ⟨tenantId, resolved, created⟩ := Option.bind_eq_some_iff.mp minted
  refine bound.createApiKey created ?_
  intro id tenant owner tenantEq viindoo account found
  obtain rfl := Option.some.inj tenantEq
  subst owner
  have sameId : account.id = id := by simpa using List.find?_some found
  subst sameId
  have safe := spared account.id rfl account (List.mem_of_find?_eq_some found) rfl
  rcases unexposed_cases safe with admin | member | verified | apart
  · exact Or.inl admin
  · exact Or.inr (Or.inl member)
  · exact Or.inr (Or.inr verified)
  · rcases resolved_cases found resolved viindoo with member | led
    · exact Or.inr (Or.inl member)
    · rw [apart] at led
      cases led

theorem mintDefaultApiKey (bound : Bound env state) {userId : Nat}
    (spared : (state.listApiKeys userId).isEmpty = true → Spared env state userId) :
    Bound env (mintDefaultApiKey env state userId) := by
  unfold Accounts.mintDefaultApiKey
  split
  · rename_i keyless
    cases minted : Accounts.mintKey env state (some userId) with
    | none => exact bound
    | some result =>
        refine bound.mintKey ?_ minted
        intro id same
        obtain rfl := Option.some.inj same
        exact spared keyless
  · exact bound

end Bound

theorem createApiKey_fields {state after : State} {userId tenantId : Option Nat} {keyId : Nat}
    (created : createApiKey state userId tenantId = some (after, keyId)) :
    after.accounts = state.accounts ∧ after.tenants = state.tenants ∧
      after.members = state.members := by
  unfold createApiKey at created
  split at created
  · simp only [Option.some.injEq, Prod.mk.injEq] at created
    obtain ⟨rfl, -⟩ := created
    exact ⟨rfl, rfl, rfl⟩
  · cases created

theorem Spared.of_eq {env : Env} {state after : State} {userId : Nat}
    (spared : Spared env state userId) (accounts : after.accounts = state.accounts)
    (tenants : after.tenants = state.tenants) (members : after.members = state.members) :
    Spared env after userId := by
  intro account accountIn sameId
  rw [accounts] at accountIn
  have safe := spared account accountIn sameId
  simpa only [exposed, isMember, ledToViindoo, getPublicTenantId, getViindooTenantId,
    State.tenantNamed, tenants, members] using safe

theorem Spared.mintKey {env : Env} {state after : State} {userId owner : Nat} {keyId : Nat}
    (spared : Spared env state userId)
    (minted : Accounts.mintKey env state (some owner) = some (after, keyId)) :
    Spared env after userId := by
  obtain ⟨tenantId, -, created⟩ := Option.bind_eq_some_iff.mp minted
  obtain ⟨accounts, tenants, members⟩ := createApiKey_fields created
  exact spared.of_eq accounts tenants members

theorem Spared.mintDefaultApiKey {env : Env} {state : State} {userId owner : Nat}
    (spared : Spared env state userId) :
    Spared env (Accounts.mintDefaultApiKey env state owner) userId := by
  unfold Accounts.mintDefaultApiKey
  split
  · cases minted : Accounts.mintKey env state (some owner) with
    | none => exact spared
    | some result => exact spared.mintKey minted
  · exact spared

section Sweeps
variable {env : Env} {state : State} {userId : Nat}

theorem provisionOrUpgrade_keeps (bound : Bound env state) (spared : Spared env state userId)
    (subscriptionId : Nat) :
    Bound env (provisionOrUpgrade env state subscriptionId userId) ∧
      Spared env (provisionOrUpgrade env state subscriptionId userId) userId := by
  unfold provisionOrUpgrade
  cases state.subscription? subscriptionId with
  | none => exact ⟨bound, spared⟩
  | some sub =>
      simp only
      split
      · exact ⟨bound, spared⟩
      · split
        · exact ⟨bound.widen (linkProvisioned_widens sub userId _),
            spared.widen (linkProvisioned_widens sub userId _)⟩
        · cases minted : mintKey env state (some userId) with
          | none => exact ⟨bound, spared⟩
          | some result =>
              have mintedBound := bound.mintKey
                (fun id same => Option.some.inj same ▸ spared) minted
              exact ⟨mintedBound.widen (linkProvisioned_widens sub userId _),
                (spared.mintKey minted).widen (linkProvisioned_widens sub userId _)⟩

theorem claimOne_keeps (bound : Bound env state) (spared : Spared env state userId)
    (sub : Subscription) :
    Bound env (claimOne env userId state sub) ∧
      Spared env (claimOne env userId state sub) userId := by
  unfold claimOne
  split
  · exact provisionOrUpgrade_keeps bound spared sub.id
  · split
    · have widens : Widens env state (state.claimUnclaimed sub.id userId) :=
        updateSubscription_widens _ _
      exact provisionOrUpgrade_keeps (bound.widen widens) (spared.widen widens) sub.id
    · exact ⟨bound, spared⟩

theorem Bound.claims (bound : Bound env state) (spared : Spared env state userId)
    (email : Option String) : Bound env (claimSubscriptionForUser env state userId email) := by
  have swept : ∀ (scanned : List Subscription) (reached : State),
      Bound env reached → Spared env reached userId →
        Bound env (scanned.foldl (claimOne env userId) reached) := by
    intro scanned
    induction scanned with
    | nil => intro reached boundReached _; exact boundReached
    | cons sub rest ih =>
        intro reached boundReached sparedReached
        obtain ⟨nextBound, nextSpared⟩ := claimOne_keeps boundReached sparedReached sub
        exact ih (claimOne env userId reached sub) nextBound nextSpared
  exact swept _ state bound spared

end Sweeps

namespace Bound
variable {env : Env} {state : State}

theorem spared_of (bound : Bound env state) {account : Account}
    (accountIn : account ∈ state.accounts.rows) (safe : exposed env state account = false) :
    Spared env state account.id := by
  intro other otherIn same
  rw [bound.accounts.eq_of_id otherIn accountIn same]
  exact safe

theorem addAccount (bound : Bound env state) (make : Nat → Account)
    (given_id : ∀ id, (make id).id = id) :
    Bound env (state.addAccount make) := by
  refine ⟨bound.accounts.insert given_id, ?_⟩
  intro key keyIn userId tenantId owned tenant viindoo
  obtain ⟨owner, ownerIn, reason⟩ := bound.keys key keyIn userId tenantId owned tenant viindoo
  exact ⟨owner, List.mem_append_left _ ownerIn, reason⟩

theorem updateAccount (bound : Bound env state) (target : Nat) (set : Account → Account)
    (same_id : ∀ account, (set account).id = account.id)
    (same_admin : ∀ account, (set account).isAdmin = account.isAdmin) :
    Bound env (state.updateAccount target set) := by
  refine ⟨bound.accounts.updateWhere same_id, ?_⟩
  intro key keyIn userId tenantId owned tenant viindoo
  obtain ⟨owner, ownerIn, sameId, reason⟩ :=
    bound.keys key keyIn userId tenantId owned tenant viindoo
  refine ⟨_, Table.mem_updateWhere.mpr ⟨owner, ownerIn, rfl⟩, ?_⟩
  split
  · rw [same_id, same_admin]
    exact ⟨sameId, reason⟩
  · exact ⟨sameId, reason⟩

theorem register (bound : Bound env state) (actor : Nat) (body : RegisterBody) (expiresAt : Nat) :
    Bound env (register env state actor body expiresAt) := by
  unfold Accounts.register
  simp only
  split
  · exact bound
  · exact (bound.addAccount (signUpAccount actor _ _ body.password) fun _ => rfl).widen
      (.of_eq rfl rfl rfl rfl)

theorem resendVerification (bound : Bound env state) (email : String) (expiresAt : Nat)
    (refused : Bool) : Bound env (resendVerification env state email expiresAt refused) := by
  unfold Accounts.resendVerification
  simp only
  split
  · exact bound
  · split
    · exact bound
    · exact bound.widen (.of_eq rfl rfl rfl rfl)

theorem verifyEmail (bound : Bound env state) (actor token now : Nat) :
    Bound env (verifyEmail env state actor token now) := by
  unfold Accounts.verifyEmail
  cases opened : state.openLink token now with
  | none => exact bound
  | some found =>
      obtain ⟨row, account⟩ := found
      have proved : Bound env (state.prove actor row.sentTo) :=
        bound.widen (.of_eq rfl rfl rfl rfl)
      have marked : Bound env ((state.prove actor row.sentTo).markVerified account.id) :=
        proved.updateAccount account.id _ (fun _ => by rfl) (fun _ => by rfl)
      have spared : Spared env ((state.prove actor row.sentTo).markVerified account.id)
          account.id := by
        intro other otherIn same
        obtain ⟨old, oldIn, rfl⟩ := Table.mem_updateWhere.mp otherIn
        by_contra shown
        obtain ⟨-, -, unverified, -⟩ := (exposed_iff _).mp (Bool.not_eq_false _ ▸ shown)
        split at same
        · rename_i hit
          rw [if_pos hit] at unverified
          cases unverified
        · rename_i miss
          simp [same] at miss
      have widens : Widens env ((state.prove actor row.sentTo).markVerified account.id)
          ((((state.prove actor row.sentTo).markVerified account.id).useLink token).openSession
            actor account.id) := .of_eq rfl rfl rfl rfl
      have sparedOpened := spared.widen widens
      exact ((marked.widen widens).mintDefaultApiKey fun _ => sparedOpened).claims
        sparedOpened.mintDefaultApiKey account.email

theorem oauthUser (bound : Bound env state) {actor : Nat} {body : OAuthLoginBody} {suffix : String}
    {signupEnabled : Bool} {found : State} {account : Account} {isNewUser : Bool}
    (reached : oauthUser env state actor body suffix signupEnabled =
      some (found, account, isNewUser))
    (known : ∀ user, state.lookupUserByOAuth ⟨actor, body.provider, body.oauthId⟩ = some user →
      body.emailVerified = true → exposed env state user = false)
    (merged : ∀ user, state.lookupUserByOAuth ⟨actor, body.provider, body.oauthId⟩ = none →
      State.lookupUserByEmail env state body.email = some user → body.emailVerified = true →
        exposed env state user = false)
    (fresh : state.lookupUserByOAuth ⟨actor, body.provider, body.oauthId⟩ = none →
      State.lookupUserByEmail env state body.email = none →
        body.emailVerified = true ∨ ledToViindoo env state (some body.email) = false) :
    Bound env found ∧
      ((isNewUser = true ∨ body.emailVerified = true) → Spared env found account.id) := by
  unfold Accounts.oauthUser at reached
  simp only at reached
  cases byIdentity : state.lookupUserByOAuth ⟨actor, body.provider, body.oauthId⟩ with
  | some user =>
      simp only [byIdentity, Option.some.injEq, Prod.mk.injEq] at reached
      obtain ⟨rfl, rfl, rfl⟩ := reached
      refine ⟨bound, ?_⟩
      rintro (new | verified)
      · cases new
      · exact bound.spared_of (List.mem_of_find?_eq_some byIdentity) (known user byIdentity verified)
  | none =>
      simp only [byIdentity] at reached
      cases byEmail : State.lookupUserByEmail env state body.email with
      | some user =>
          simp only [byEmail] at reached
          split at reached
          · rename_i verified
            simp only [Option.some.injEq, Prod.mk.injEq] at reached
            obtain ⟨rfl, rfl, rfl⟩ := reached
            refine ⟨bound.updateAccount user.id _ (fun _ => by rfl) (fun _ => by rfl), fun _ => ?_⟩
            have userSpared := bound.spared_of (List.mem_of_find?_eq_some byEmail)
              (merged user byIdentity byEmail verified)
            intro other otherIn same
            obtain ⟨old, oldIn, rfl⟩ := Table.mem_updateWhere.mp otherIn
            split at same
            · rename_i hit
              rw [if_pos hit]
              exact userSpared old oldIn same
            · rename_i miss
              rw [if_neg miss]
              exact userSpared old oldIn same
          · cases reached
      | none =>
          simp only [byEmail] at reached
          split at reached
          · simp only [Option.some.injEq, Prod.mk.injEq] at reached
            obtain ⟨rfl, rfl, rfl⟩ := reached
            have added := bound.addAccount (oauthAccount actor body suffix) fun _ => rfl
            refine ⟨added, fun _ => ?_⟩
            have safe : exposed env (state.addAccount (oauthAccount actor body suffix))
                (oauthAccount actor body suffix state.accounts.nextId) = false := by
              by_contra shown
              obtain ⟨-, -, unverified, led⟩ := (exposed_iff _).mp (Bool.not_eq_false _ ▸ shown)
              rcases fresh byIdentity byEmail with verified | apart
              · have same : body.emailVerified = false := unverified
                rw [verified] at same
                cases same
              · have same : ledToViindoo env state (some body.email) = true := led
                rw [apart] at same
                cases same
            exact added.spared_of (List.mem_append_right _ (List.mem_singleton_self _)) safe
          · cases reached

theorem oauthSession (bound : Bound env state) (actor : Nat) {body : OAuthLoginBody}
    {account : Account} {isNewUser : Bool}
    (spared : (isNewUser = true ∨ body.emailVerified = true) → Spared env state account.id) :
    Bound env (oauthSession env state actor body account isNewUser) := by
  have widens : Widens env state (state.openSession actor account.id) := .of_eq rfl rfl rfl rfl
  have opened := bound.widen widens
  unfold Accounts.oauthSession
  cases isNewUser with
  | true =>
      have safe := (spared (Or.inl rfl)).widen widens
      have minted := opened.mintDefaultApiKey fun _ => safe
      simp only [if_true]
      split
      · exact minted.claims safe.mintDefaultApiKey (some body.email)
      · exact minted
  | false =>
      simp only [Bool.false_eq_true, if_false]
      split
      · rename_i verified
        exact opened.claims ((spared (Or.inr verified)).widen widens) (some body.email)
      · exact opened

theorem oauthLogin (bound : Bound env state) {actor : Nat} {request : OAuthLoginBody}
    {suffix : String} {signupEnabled : Bool}
    (spares : sparesExposed env state (.oauthLogin actor request suffix signupEnabled) = true) :
    Bound env (oauthLogin env state actor request suffix signupEnabled) := by
  unfold Accounts.oauthLogin
  cases valid : env.validated request with
  | none => exact bound
  | some body =>
      have accounts : (state.assert actor body).accounts = state.accounts := by
        unfold State.assert
        split <;> rfl
      have widens : Widens env state (state.assert actor body) := by
        unfold State.assert
        split <;> exact .of_eq rfl rfl rfl rfl
      have sameExposed : ∀ user, exposed env (state.assert actor body) user =
          exposed env state user := by
        intro user
        unfold State.assert
        split <;> rfl
      have asserted := bound.widen widens
      have sameIdentity : (state.assert actor body).lookupUserByOAuth
          ⟨actor, body.provider, body.oauthId⟩ =
            state.lookupUserByOAuth ⟨actor, body.provider, body.oauthId⟩ := by
        simp only [State.lookupUserByOAuth, accounts]
      have sameEmail : State.lookupUserByEmail env (state.assert actor body) body.email =
          State.lookupUserByEmail env state body.email := by
        simp only [State.lookupUserByEmail, accounts]
      simp only [sparesExposed, valid, Option.all_some] at spares
      simp only
      cases reached : Accounts.oauthUser env (state.assert actor body) actor body suffix
          signupEnabled with
      | none => exact asserted
      | some result =>
          obtain ⟨found, account, isNewUser⟩ := result
          obtain ⟨boundFound, spared⟩ := asserted.oauthUser reached
            (by
              intro user known verified
              rw [sameIdentity] at known
              rw [sameExposed]
              simpa [known, verified] using spares)
            (by
              intro user unknown matched verified
              rw [sameIdentity] at unknown
              rw [sameEmail] at matched
              rw [sameExposed]
              simpa [unknown, matched, verified] using spares)
            (by
              intro unknown unmatched
              rw [sameIdentity] at unknown
              rw [sameEmail] at unmatched
              rw [ledToViindoo_widen widens]
              simpa [unknown, unmatched] using spares)
          simp only
          split
          · exact boundFound.oauthSession actor spared
          · exact boundFound

theorem loginPost (bound : Bound env state) (actor : Nat) (username text : String)
    (refused : Bool) : Bound env (loginPost env state actor username text refused) := by
  unfold Accounts.loginPost
  cases found : state.accounts.rows.find? (·.username == env.strip username) with
  | none => exact bound
  | some user =>
      have userIn := List.mem_of_find?_eq_some found
      have widens : Widens env state
          (State.openSession { state with sessions := state.sessions.filter (·.userId != user.id) }
            actor user.id) := .of_eq rfl rfl rfl rfl
      simp only
      split
      · exact bound
      · split
        · rename_i verified
          have safe : exposed env state user = false := by
            simp only [Bool.and_eq_true] at verified
            simp [exposed, verified.1]
          exact (bound.widen widens).claims ((bound.spared_of userIn safe).widen widens) user.email
        · exact bound.widen widens

theorem grantEntitlement (bound : Bound env state) (buyerEmail : Option String) (seats : Nat) :
    Bound env (grantEntitlement env state buyerEmail seats) := by
  have widens : Widens env state (state.addSubscription buyerEmail seats) :=
    .of_eq rfl rfl rfl rfl
  have granted := bound.widen widens
  unfold Accounts.grantEntitlement
  simp only
  split
  · exact granted
  · split
    · exact granted
    · rename_i account found
      have test := List.find?_some found
      simp only [Bool.and_eq_true] at test
      have safe : exposed env state account = false := by
        simp [exposed, test.1]
      have spared := (bound.spared_of (List.mem_of_find?_eq_some found) safe).widen widens
      have claimed : Widens env (state.addSubscription buyerEmail seats)
          ((state.addSubscription buyerEmail seats).claimUnclaimed state.subscriptions.nextId
            account.id) := updateSubscription_widens _ _
      exact (provisionOrUpgrade_keeps (granted.widen claimed) (spared.widen claimed) _).1

theorem listApiKeysRoute (bound : Bound env state) {actor userId : Nat}
    (spares : sparesExposed env state (.listApiKeys actor userId) = true) :
    Bound env (listApiKeysRoute env state actor userId) := by
  unfold Accounts.listApiKeysRoute
  split
  · refine bound.mintDefaultApiKey ?_
    intro keyless account accountIn sameId
    have found := bound.accounts.find? accountIn
    rw [sameId] at found
    have lookup : state.account? userId = some account := found
    simpa [sparesExposed, keyless, lookup] using spares
  · exact bound

theorem createApiKeyRoute (bound : Bound env state) {actor : Nat} {userId : Option Nat}
    (spares : sparesExposed env state (.createApiKey actor userId) = true) :
    Bound env (createApiKeyRoute env state actor userId) := by
  unfold Accounts.createApiKeyRoute
  split
  · simp only
    split
    · cases created : Accounts.createApiKey state userId none with
      | none => exact bound
      | some result => exact bound.createApiKey created fun _ _ _ noTenant => by cases noTenant
    · cases minted : Accounts.mintKey env state userId with
      | none => exact bound
      | some result =>
          refine bound.mintKey ?_ minted
          rintro id rfl account accountIn sameId
          have found := bound.accounts.find? accountIn
          rw [sameId] at found
          have lookup : state.account? id = some account := found
          simpa [sparesExposed, lookup] using spares
  · exact bound

theorem step (bound : Bound env state) {event : Event}
    (spares : sparesExposed env state event = true) : Bound env (step env state event) := by
  cases event with
  | register actor body expiresAt => exact bound.register actor body expiresAt
  | resendVerification email expiresAt refused =>
      exact bound.resendVerification email expiresAt refused
  | verifyEmail actor token now => exact bound.verifyEmail actor token now
  | oauthLogin actor body suffix signupEnabled => exact bound.oauthLogin spares
  | loginPost actor username password refused =>
      exact bound.loginPost actor username password refused
  | grantEntitlement buyerEmail seats => exact bound.grantEntitlement buyerEmail seats
  | listApiKeys actor userId => exact bound.listApiKeysRoute spares
  | createApiKey actor userId => exact bound.createApiKeyRoute spares

end Bound

/-- From any accounts without keys, keys of plain users are bound to the Viindoo tenant for
verified addresses only, in a run that mints nothing for exposed accounts. -/
theorem viindoo_keys_verified (env : Env) (start : State)
    (keyed : Table.Keyed Account.id start.accounts) (keyless : start.keys.rows = [])
    (events : List Event)
    (steps : AllSteps (step env) (fun state event => sparesExposed env state event = true)
      start events) :
    Lawful env (run (step env) start events) := by
  have bound : Bound env start := by
    refine ⟨keyed, ?_⟩
    intro key keyIn
    rw [keyless] at keyIn
    cases keyIn
  have reached := run_preserves_guarded (step env) _ (Bound env)
    (fun _ _ spares held => held.step spares) events start steps bound
  exact reached.lawful

def eveSignUp : RegisterBody :=
  { username := "eve", email := "eve@viindoo.com", password := "eves-long-password"
    refused := false }

/-- Eve opens the link mailed to her address before she mints. -/
def verifiedMint : List Event :=
  [.register 1 eveSignUp 100, .verifyEmail 1 0 10, .createApiKey 1 (some 0)]

theorem verified_mint_lawful :
    (run (step plainText) (initial twoTenants) verifiedMint).keys.rows =
        [⟨0, some 0, some 1, true, true⟩, ⟨1, some 0, some 1, true, true⟩] ∧
      Lawful plainText (run (step plainText) (initial twoTenants) verifiedMint) :=
  ⟨by decide +kernel,
    viindoo_keys_verified plainText (initial twoTenants) Table.keyed_empty rfl verifiedMint
      (by decide +kernel)⟩

/-- Eve logs in without opening the link and asks for a key. -/
def explicitMint : List Event :=
  [.register 1 eveSignUp 100, .loginPost 1 "eve" "eves-long-password" false,
    .createApiKey 1 (some 0)]

/-- Eve opens the key page instead. -/
def lazyMint : List Event :=
  [.register 1 eveSignUp 100, .loginPost 1 "eve" "eves-long-password" false, .listApiKeys 1 0]

/-- The provider has not verified the address of a new account. -/
def oauthMint : List Event :=
  [.oauthLogin 1
    { provider := "github", oauthId := "h-1", email := "eve@viindoo.com", emailVerified := false }
    "ab12" true]

theorem not_lawful_of_unverified {env : Env} {state : State}
    (unverified : ∃ key ∈ state.keys.rows, ∃ owner ∈ state.accounts.rows,
      key.userId = some owner.id ∧ key.tenantId.isSome = true ∧
        getViindooTenantId env state = key.tenantId ∧ owner.isAdmin = false ∧
          isMember state owner.id = false ∧ key.mintedVerified = false) : ¬ Lawful env state := by
  intro lawful
  obtain ⟨key, keyIn, owner, ownerIn, owned, bound, viindoo, notAdmin, notMember, minted⟩ :=
    unverified
  obtain ⟨tenantId, tenant⟩ := Option.isSome_iff_exists.mp bound
  have verified := lawful key keyIn owner ownerIn owned tenantId tenant (viindoo.trans tenant)
    notAdmin notMember
  rw [minted] at verified
  cases verified

theorem unverified_mints :
    ¬ Lawful plainText (run (step plainText) (initial twoTenants) explicitMint) ∧
      ¬ Lawful plainText (run (step plainText) (initial twoTenants) lazyMint) ∧
      ¬ Lawful plainText (run (step plainText) (initial twoTenants) oauthMint) :=
  ⟨not_lawful_of_unverified (by decide +kernel), not_lawful_of_unverified (by decide +kernel),
    not_lawful_of_unverified (by decide +kernel)⟩

end OdooSemantic.WebUi.DefaultTenant
