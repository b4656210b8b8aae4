import OdooSemantic.Lib.Run
import OdooSemantic.Lib.Table

/-!
# Accounts, their e-mail addresses and what comes with them

An account is reached by a password, by an OAuth identity or by a verification link; it claims
the subscriptions bought with its address and is given API keys in the tenant of its domain.
A principal presents the passwords it chose and the identities a provider asserts for it; it
opens the links mailed to the mailboxes it reads.
-/

set_option autoImplicit false

namespace OdooSemantic.WebUi.Accounts

open Lib

/-! ## Tables -/

structure Secret where
  chosenBy : Nat
  text : String
  deriving DecidableEq

structure Identity where
  holder : Nat
  provider : String
  oauthId : String
  deriving DecidableEq

/-- `createdBy` is whose request inserted the row. -/
structure Account where
  id : Nat
  username : String
  email : Option String
  emailVerified : Bool
  password : Option Secret
  oauth : Option Identity
  isAdmin : Bool
  isActive : Bool
  createdBy : Nat

/-- `sentTo` is the address the link was mailed to. -/
structure Verification where
  token : Nat
  userId : Nat
  expiresAt : Nat
  used : Bool
  sentTo : String

structure Session where
  holder : Nat
  userId : Nat
  deriving DecidableEq

structure Subscription where
  id : Nat
  buyerEmail : Option String
  active : Bool
  seats : Nat
  claimedUserId : Option Nat
  apiKeyId : Option Nat
  tenantId : Option Nat

/-- `mintedVerified`: the owner's address was verified when the key was minted. -/
structure Key where
  id : Nat
  userId : Option Nat
  tenantId : Option Nat
  active : Bool
  mintedVerified : Bool
  deriving DecidableEq

structure Tenant where
  id : Nat
  name : String

/-- `proved` holds who proved control of which mailbox. -/
structure State where
  accounts : Table Account
  verifications : Table Verification
  sessions : List Session
  subscriptions : Table Subscription
  keys : Table Key
  tenants : Table Tenant
  members : List (Nat × Nat)
  proved : List (Nat × String)

/-- The text functions, and the tenants that own the Viindoo profiles. -/
structure Env where
  strip : String → String
  pyLower : String → String
  sqlLower : String → String
  viindooOwners : List Nat

/-- No account, no subscription and no key. -/
def initial (tenants : Table Tenant) : State :=
  { accounts := .empty, verifications := .empty, sessions := [], subscriptions := .empty
    keys := .empty, tenants, members := [], proved := [] }

def State.account? (state : State) (userId : Nat) : Option Account :=
  state.accounts.rows.find? fun account => account.id == userId

def State.addAccount (state : State) (make : Nat → Account) : State :=
  { state with accounts := state.accounts.insert make }

def State.updateAccount (state : State) (userId : Nat) (set : Account → Account) : State :=
  { state with accounts := state.accounts.updateWhere (·.id == userId) set }

def State.openSession (state : State) (holder userId : Nat) : State :=
  { state with sessions := state.sessions ++ [⟨holder, userId⟩] }

def State.prove (state : State) (holder : Nat) (email : String) : State :=
  { state with proved := state.proved ++ [(holder, email)] }

def State.taken (state : State) (username : String) (email : Option String) : Bool :=
  state.accounts.rows.any fun account =>
    account.username == username || (email.isSome && account.email == email)

/-- `rsplit("@", 1)[1]`. -/
def afterAt : List Char → Option (List Char)
  | [] => none
  | char :: rest =>
      match afterAt rest with
      | some found => some found
      | none => if char = '@' then some rest else none

def viindooEmailDomains : List String := ["viindoo.com"]

def Env.emailDomain (env : Env) (email : String) : Option String :=
  (afterAt email.toList).map fun domain => env.pyLower (env.strip (String.ofList domain))

def Env.viindooAddress (env : Env) (email : Option String) : Bool :=
  (email.bind env.emailDomain).any viindooEmailDomains.contains

def State.listTenantIdsForUser (state : State) (userId : Nat) : List Nat :=
  (state.members.filter (·.1 == userId)).map (·.2)

def State.tenantNamed (state : State) (name : String) : Option Nat :=
  (state.tenants.rows.find? (·.name == name)).map (·.id)

def getPublicTenantId (state : State) : Option Nat := state.tenantNamed "public"

def getViindooTenantId (env : Env) (state : State) : Option Nat :=
  match env.viindooOwners with
  | [] => state.tenantNamed "Viindoo Technology JSC"
  | [owner] => some owner
  | _ => none

def resolveDefaultMintTenantId (env : Env) (state : State) (userId : Option Nat) : Option Nat :=
  match userId.map state.listTenantIdsForUser with
  | some [tenantId] => some tenantId
  | _ =>
      if env.viindooAddress ((userId.bind state.account?).bind (·.email)) then
        getViindooTenantId env state
      else getPublicTenantId state

/-- The new row and its id; nothing when the owner does not exist. -/
def createApiKey (state : State) (userId tenantId : Option Nat) : Option (State × Nat) :=
  if userId.all fun id => (state.account? id).isSome then
    some
      ({ state with
          keys := state.keys.insert fun id =>
            { id, userId, tenantId, active := true
              mintedVerified := (userId.bind state.account?).any (·.emailVerified) } },
        state.keys.nextId)
  else none

/-- The resolver, then the insert. -/
def mintKey (env : Env) (state : State) (userId : Option Nat) : Option (State × Nat) :=
  (resolveDefaultMintTenantId env state userId).bind fun tenantId =>
    createApiKey state userId (some tenantId)

def State.listApiKeys (state : State) (userId : Nat) : List Key :=
  state.keys.rows.filter (·.userId == some userId)

def mintDefaultApiKey (env : Env) (state : State) (userId : Nat) : State :=
  if (state.listApiKeys userId).isEmpty then
    ((mintKey env state (some userId)).map (·.1)).getD state
  else state

/-- Only keys, tenants and memberships differ. -/
structure SameLogins (before after : State) : Prop where
  accounts : after.accounts = before.accounts
  verifications : after.verifications = before.verifications
  sessions : after.sessions = before.sessions
  subscriptions : after.subscriptions = before.subscriptions
  proved : after.proved = before.proved

theorem SameLogins.refl (state : State) : SameLogins state state := ⟨rfl, rfl, rfl, rfl, rfl⟩

theorem createApiKey_same {state after : State} {userId tenantId : Option Nat} {keyId : Nat}
    (created : createApiKey state userId tenantId = some (after, keyId)) :
    SameLogins state after := by
  unfold createApiKey at created
  split at created
  · simp only [Option.some.injEq, Prod.mk.injEq] at created
    obtain ⟨rfl, -⟩ := created
    exact ⟨rfl, rfl, rfl, rfl, rfl⟩
  · cases created

theorem mintKey_same {env : Env} {state after : State} {userId : Option Nat} {keyId : Nat}
    (minted : mintKey env state userId = some (after, keyId)) : SameLogins state after := by
  obtain ⟨tenantId, -, created⟩ := Option.bind_eq_some_iff.mp minted
  exact createApiKey_same created

theorem mintDefaultApiKey_same (env : Env) (state : State) (userId : Nat) :
    SameLogins state (mintDefaultApiKey env state userId) := by
  unfold mintDefaultApiKey
  split
  · cases minted : mintKey env state (some userId) with
    | none => exact .refl state
    | some result => exact mintKey_same minted
  · exact .refl state

def State.subscription? (state : State) (id : Nat) : Option Subscription :=
  state.subscriptions.rows.find? fun row => row.id == id

/-- `_ensure_tenant` of `sub-<id>`. -/
def ensureTenant (state : State) (subscriptionId : Nat) : State × Nat :=
  match state.tenantNamed ("sub-" ++ toString subscriptionId) with
  | some tenantId => (state, tenantId)
  | none =>
      ({ state with
          tenants := state.tenants.insert fun id =>
            { id, name := "sub-" ++ toString subscriptionId } },
        state.tenants.nextId)

def addTenantMember (state : State) (userId tenantId : Nat) : State :=
  if state.members.contains (userId, tenantId) then state
  else { state with members := state.members ++ [(userId, tenantId)] }

theorem ensureTenant_same (state : State) (subscriptionId : Nat) :
    SameLogins state (ensureTenant state subscriptionId).1 := by
  unfold ensureTenant
  split
  · exact .refl state
  · exact ⟨rfl, rfl, rfl, rfl, rfl⟩

theorem addTenantMember_same (state : State) (userId tenantId : Nat) :
    SameLogins state (addTenantMember state userId tenantId) := by
  unfold addTenantMember
  split
  · exact .refl state
  · exact ⟨rfl, rfl, rfl, rfl, rfl⟩

def State.updateSubscription (state : State) (guard : Subscription → Bool)
    (set : Subscription → Subscription) : State :=
  { state with subscriptions := state.subscriptions.updateWhere guard set }

/-- Steps 2 and 3 of `provision_or_upgrade`: the seats, then the links. -/
def linkProvisioned (state : State) (sub : Subscription) (userId keyId : Nat) : State :=
  let seated :=
    if 1 < sub.seats then
      let (named, tenantId) := ensureTenant state sub.id
      (addTenantMember named userId tenantId).updateSubscription (·.id == sub.id)
        fun row => { row with tenantId := some tenantId }
    else state
  seated.updateSubscription (·.id == sub.id) fun row =>
    { row with apiKeyId := some keyId, claimedUserId := some userId }

def provisionOrUpgrade (env : Env) (state : State) (subscriptionId userId : Nat) : State :=
  match state.subscription? subscriptionId with
  | none => state
  | some sub =>
      if sub.apiKeyId.isSome then state
      else
        match (state.listApiKeys userId).find? (·.active) with
        | some key => linkProvisioned state sub userId key.id
        | none =>
            match mintKey env state (some userId) with
            | none => state
            | some (minted, keyId) => linkProvisioned minted sub userId keyId

/-- `claim_unclaimed_for_user`. -/
def State.claimUnclaimed (state : State) (subscriptionId userId : Nat) : State :=
  state.updateSubscription (fun row => row.id == subscriptionId && row.claimedUserId == none)
    fun row => { row with claimedUserId := some userId }

def State.unclaimed (state : State) (subscriptionId : Nat) : Bool :=
  state.subscriptions.rows.any fun row => row.id == subscriptionId && row.claimedUserId == none

def claimOne (env : Env) (userId : Nat) (state : State) (sub : Subscription) : State :=
  if sub.claimedUserId = some userId then provisionOrUpgrade env state sub.id userId
  else if state.unclaimed sub.id then
    provisionOrUpgrade env (state.claimUnclaimed sub.id userId) sub.id userId
  else state

def Env.sameMailbox (env : Env) (first second : String) : Bool :=
  env.sqlLower first == env.sqlLower second

/-- `find_unclaimed_active_by_email`, newest first. -/
def findUnclaimedActiveByEmail (env : Env) (state : State) (email : Option String) :
    List Subscription :=
  (state.subscriptions.rows.filter fun row =>
    row.active && row.claimedUserId == none &&
      row.buyerEmail.any fun buyer => email.any (env.sameMailbox buyer)).reverse

def findClaimedUnprovisionedActive (state : State) (userId : Nat) : List Subscription :=
  (state.subscriptions.rows.filter fun row =>
    row.claimedUserId == some userId && row.active && row.apiKeyId == none).reverse

def claimSubscriptionForUser (env : Env) (state : State) (userId : Nat) (email : Option String) :
    State :=
  (findUnclaimedActiveByEmail env state email ++
    findClaimedUnprovisionedActive state userId).foldl (claimOne env userId) state

def State.addSubscription (state : State) (buyerEmail : Option String) (seats : Nat) : State :=
  { state with
    subscriptions := state.subscriptions.insert fun id =>
      { id, buyerEmail, active := true, seats, claimedUserId := none, apiKeyId := none
        tenantId := none } }

/-- A purchase: `grant_entitlement` of a new subscription. -/
def grantEntitlement (env : Env) (state : State) (buyerEmail : Option String) (seats : Nat) :
    State :=
  let granted := state.addSubscription buyerEmail seats
  match buyerEmail.filter (· != "") with
  | none => granted
  | some email =>
      match granted.accounts.rows.find? fun account =>
          account.emailVerified && account.email.any (env.sameMailbox email) with
      | none => granted
      | some account =>
          provisionOrUpgrade env (granted.claimUnclaimed state.subscriptions.nextId account.id)
            state.subscriptions.nextId account.id

/-! ## Sign-up and login -/

/-- A link is mailed. -/
def State.sendVerification (state : State) (userId : Nat) (email : String) (expiresAt : Nat) :
    State :=
  { state with
    verifications := state.verifications.insert fun token =>
      { token, userId, expiresAt, used := false, sentTo := email } }

/-- `refused`: sign-up is off, no consent, no captcha, or the password policy. -/
structure RegisterBody where
  username : String
  email : String
  password : String
  refused : Bool

def signUpAccount (actor : Nat) (username email password : String) (id : Nat) : Account :=
  { id, username, email := some email, emailVerified := false, password := some ⟨actor, password⟩
    oauth := none, isAdmin := false, isActive := true, createdBy := actor }

def register (env : Env) (state : State) (actor : Nat) (body : RegisterBody) (expiresAt : Nat) :
    State :=
  let email := env.pyLower (env.strip body.email)
  let username := env.strip body.username
  if body.refused || !email.toList.contains '@' || decide (username.length < 2) ||
      decide (64 < username.length) || state.taken username (some email) then state
  else
    (state.addAccount (signUpAccount actor username email body.password)).sendVerification
      state.accounts.nextId email expiresAt

/-- `refused`: more than three links in an hour. -/
def resendVerification (env : Env) (state : State) (email : String) (expiresAt : Nat)
    (refused : Bool) : State :=
  let address := env.pyLower (env.strip email)
  match state.accounts.rows.find? fun account =>
      account.email == some address && !account.emailVerified with
  | none => state
  | some account => if refused then state else state.sendVerification account.id address expiresAt

def State.openLink (state : State) (token now : Nat) : Option (Verification × Account) :=
  (state.verifications.rows.find? (·.token == token)).bind fun row =>
    if row.used || decide (row.expiresAt < now) then none
    else (state.account? row.userId).map fun account => (row, account)

def State.useLink (state : State) (token : Nat) : State :=
  { state with
    verifications := state.verifications.updateWhere (·.token == token)
      fun old => { old with used := true } }

def State.markVerified (state : State) (userId : Nat) : State :=
  state.updateAccount userId fun old => { old with emailVerified := true }

/-- `verify_email`: whoever opens the link is logged in. -/
def verifyEmail (env : Env) (state : State) (actor token now : Nat) : State :=
  match state.openLink token now with
  | none => state
  | some (row, account) =>
      let marked := ((state.prove actor row.sentTo).markVerified account.id).useLink token
      let opened := marked.openSession actor account.id
      claimSubscriptionForUser env (mintDefaultApiKey env opened account.id) account.id
        account.email

structure OAuthLoginBody where
  provider : String
  oauthId : String
  email : String
  emailVerified : Bool

def State.lookupUserByOAuth (state : State) (identity : Identity) : Option Account :=
  state.accounts.rows.find? fun account => account.oauth == some identity

def State.lookupUserByEmail (env : Env) (state : State) (email : String) : Option Account :=
  state.accounts.rows.find? fun account => account.email.any (env.sameMailbox email)

def oauthUsername (email suffix : String) : String :=
  String.ofList ((email.toList.takeWhile (· != '@')).take 40) ++ "_" ++ suffix

def oauthAccount (actor : Nat) (body : OAuthLoginBody) (suffix : String) (id : Nat) : Account :=
  { id, username := oauthUsername body.email suffix, email := some body.email
    emailVerified := body.emailVerified, password := none
    oauth := some ⟨actor, body.provider, body.oauthId⟩, isAdmin := false, isActive := true
    createdBy := actor }

def oauthUser (env : Env) (state : State) (actor : Nat) (body : OAuthLoginBody) (suffix : String)
    (signupEnabled : Bool) : Option (State × Account × Bool) :=
  let identity : Identity := ⟨actor, body.provider, body.oauthId⟩
  match state.lookupUserByOAuth identity with
  | some account => some (state, account, false)
  | none =>
      match State.lookupUserByEmail env state body.email with
      | some account =>
          if body.emailVerified then
            some (state.updateAccount account.id fun old => { old with oauth := some identity },
              account, false)
          else none
      | none =>
          if signupEnabled && !state.taken (oauthUsername body.email suffix) (some body.email) then
            some (state.addAccount (oauthAccount actor body suffix),
              oauthAccount actor body suffix state.accounts.nextId, true)
          else none

def allowedProviders : List String := ["google", "github"]

def Env.validated (env : Env) (request : OAuthLoginBody) : Option OAuthLoginBody :=
  let body : OAuthLoginBody :=
    { request with
      oauthId := env.strip request.oauthId
      email := env.pyLower (env.strip request.email) }
  if allowedProviders.contains body.provider && body.oauthId != "" &&
      body.email.toList.contains '@' then some body
  else none

def oauthSession (env : Env) (state : State) (actor : Nat) (body : OAuthLoginBody)
    (account : Account) (isNewUser : Bool) : State :=
  let opened := state.openSession actor account.id
  let minted := if isNewUser then mintDefaultApiKey env opened account.id else opened
  if body.emailVerified then claimSubscriptionForUser env minted account.id (some body.email)
  else minted

def State.assert (state : State) (actor : Nat) (body : OAuthLoginBody) : State :=
  if body.emailVerified then state.prove actor body.email else state

def oauthLogin (env : Env) (state : State) (actor : Nat) (request : OAuthLoginBody)
    (suffix : String) (signupEnabled : Bool) : State :=
  match env.validated request with
  | none => state
  | some body =>
      let asserted := state.assert actor body
      match oauthUser env asserted actor body suffix signupEnabled with
      | none => asserted
      | some (found, account, isNewUser) =>
          if account.isActive then oauthSession env found actor body account isNewUser else found

/-- The text `_DUMMY_HASH` is made from. -/
def dummyPassword : String := "dummy-for-timing-defense"

/-- `verify_password`; a row without a password is checked against the dummy hash. -/
def Account.passwordOk (account : Account) (actor : Nat) (text : String) : Bool :=
  match account.password with
  | none => text == dummyPassword
  | some secret => secret == ⟨actor, text⟩

/-- `refused`: rate limits, the length of the password, the blocklist, or a pending second
factor. -/
def loginPost (env : Env) (state : State) (actor : Nat) (username text : String)
    (refused : Bool) : State :=
  match state.accounts.rows.find? (·.username == env.strip username) with
  | none => state
  | some user =>
      if refused || !user.passwordOk actor text || !user.isActive then state
      else
        let rotated := { state with sessions := state.sessions.filter (·.userId != user.id) }
        let opened := rotated.openSession actor user.id
        if user.emailVerified && user.email.any (· != "") then
          claimSubscriptionForUser env opened user.id user.email
        else opened

/-- `is_admin_session`. -/
def State.isAdmin (state : State) (userId : Option Nat) : Bool :=
  (userId.bind state.account?).any (·.isAdmin)

def State.signedIn (state : State) (actor : Nat) (userId : Option Nat) : Bool :=
  userId.all fun id => state.sessions.contains ⟨actor, id⟩

def listApiKeysRoute (env : Env) (state : State) (actor userId : Nat) : State :=
  if state.signedIn actor (some userId) && !state.isAdmin (some userId) then
    mintDefaultApiKey env state userId
  else state

def createApiKeyRoute (env : Env) (state : State) (actor : Nat) (userId : Option Nat) : State :=
  if state.signedIn actor userId then
    let created :=
      if state.isAdmin userId then createApiKey state userId none else mintKey env state userId
    (created.map (·.1)).getD state
  else state

inductive Event where
  | register (actor : Nat) (body : RegisterBody) (expiresAt : Nat)
  | resendVerification (email : String) (expiresAt : Nat) (refused : Bool)
  | verifyEmail (actor token now : Nat)
  | oauthLogin (actor : Nat) (body : OAuthLoginBody) (suffix : String) (signupEnabled : Bool)
  | loginPost (actor : Nat) (username password : String) (refused : Bool)
  | grantEntitlement (buyerEmail : Option String) (seats : Nat)
  | listApiKeys (actor userId : Nat)
  | createApiKey (actor : Nat) (userId : Option Nat)

def step (env : Env) (state : State) : Event → State
  | .register actor body expiresAt => register env state actor body expiresAt
  | .resendVerification email expiresAt refused =>
      resendVerification env state email expiresAt refused
  | .verifyEmail actor token now => verifyEmail env state actor token now
  | .oauthLogin actor body suffix signupEnabled =>
      oauthLogin env state actor body suffix signupEnabled
  | .loginPost actor username password refused => loginPost env state actor username password refused
  | .grantEntitlement buyerEmail seats => grantEntitlement env state buyerEmail seats
  | .listApiKeys actor userId => listApiKeysRoute env state actor userId
  | .createApiKey actor userId => createApiKeyRoute env state actor userId

def plainText : Env :=
  { strip := fun text => text, pyLower := fun text => text, sqlLower := fun text => text
    viindooOwners := [] }

def twoTenants : Table Tenant := ⟨[⟨0, "public"⟩, ⟨1, "Viindoo Technology JSC"⟩], 2⟩

end OdooSemantic.WebUi.Accounts
