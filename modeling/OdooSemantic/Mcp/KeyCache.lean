import OdooSemantic.Lib.Run

/-!
# The caches of a presented API key

One key's state is spread over three dictionaries with a common timestamp, each
read and written in a lock section of its own, and a plan cache.  Requests of the
middleware, tenant lookups of tool bodies, invalidations and changes of the key's
row interleave at these sections and at the database reads between them.
-/

set_option autoImplicit false

namespace OdooSemantic.Mcp.KeyCache

open Lib.Run

/-- What `verify_api_key_full` reads of an active key beside its id. -/
structure KeyRow where
  tenantId : Option Nat
  userId : Option Nat
  ownerIsAdmin : Bool
  deriving DecidableEq

structure PlanInfo where
  planId : Nat
  slug : String
  quotaCallsPerMonth : Nat
  rateLimitRpm : Nat
  rateLimitOverride : Option Nat
  quotaOverride : Option Nat
  deriving DecidableEq

structure KeyData where
  row : Option KeyRow
  plan : Option PlanInfo

/-- The answer of a verification: none when no active row matches. -/
abbrev Answer := Read (Option KeyRow)

/-- The entries of the key's hash.  An entry keeps the whole answer it was written from;
`withRow`, `tenantOf` and `ownerOf` are what the dictionaries hold of it. -/
structure Caches where
  key : Option Answer
  ts : Option Nat
  tenant : Option Answer
  owner : Option Answer
  plan : Option (Read PlanInfo × Nat)

def cacheTtl : Nat := 300

/-- `ts is not None and time.monotonic() - ts < _CACHE_TTL`. -/
def live (caches : Caches) (now : Nat) : Bool :=
  caches.ts.any fun ts => decide (now - ts < cacheTtl)

def withRow (entry : Option Answer) : Bool :=
  entry.any (·.value.isSome)

def tenantOf (entry : Option Answer) : Option Nat :=
  (entry.bind (·.value)).bind (·.tenantId)

def ownerOf (entry : Option Answer) : Option Nat × Bool :=
  match entry.bind (·.value) with
  | none => (none, false)
  | some row => (row.userId, row.ownerIsAdmin)

/-- The result of a cache read: none for a miss, else the entry, which may be missing. -/
abbrev Lookup := Option (Option Answer)

def cacheGet (caches : Caches) (now : Nat) : Lookup :=
  if live caches now then some caches.key else none

/-- `_cache_get_tenant`: a missing entry under a valid timestamp is a hit. -/
def cacheGetTenant (caches : Caches) (now : Nat) : Lookup :=
  if live caches now then some caches.tenant else none

/-- `_cache_get_owner`: a missing entry is a miss. -/
def cacheGetOwner (caches : Caches) (now : Nat) : Lookup :=
  if live caches now then caches.owner.map some else none

def cacheSet (answer : Answer) (now : Nat) (caches : Caches) : Caches :=
  { caches with key := some answer, ts := some now }

def cacheSetTenant (answer : Answer) (caches : Caches) : Caches :=
  { caches with tenant := some answer }

def cacheSetOwner (answer : Answer) (caches : Caches) : Caches :=
  { caches with owner := some answer }

/-- `_cache_invalidate`: the plan stays. -/
def cacheInvalidate (caches : Caches) : Caches :=
  { caches with key := none, ts := none, tenant := none, owner := none }

/-- `_cache_invalidate_by_key_id` for the key's id. -/
def cacheInvalidateByKeyId (caches : Caches) : Caches :=
  { if withRow caches.key then cacheInvalidate caches else caches with plan := none }

def isNullTenantEscalation (tenantId : Option Nat) (owner : Option Nat × Bool) : Bool :=
  owner.1.isSome && !owner.2 && tenantId.isNone

inductive Caller where
  | middleware
  | tool
  deriving DecidableEq

/-- The entries a request is authorised from. -/
structure Identity where
  key : Option Answer
  tenant : Option Answer
  owner : Option Answer
  deriving DecidableEq

/-- Where a thread stands between two sections. -/
inductive Phase where
  | idle
  | begun (caller : Caller)
  | keyRead (key : Lookup)
  | tenantRead (key tenant : Lookup)
  | verifying (caller : Caller)
  | verified (caller : Caller) (answer : Answer)
  | keyWritten (caller : Caller) (answer : Answer)
  | tenantWritten (caller : Caller) (answer : Answer)
  | resolved (identity : Identity)
  | planMissed (identity : Identity) (since : Nat)
  | planFetched (identity : Identity) (plan : Read PlanInfo) (since : Nat)
  | served (identity : Identity) (plan : Option (Read PlanInfo))
  | tenantResolved (tenant : Option Answer)
  | refused
  deriving DecidableEq

structure State where
  data : KeyData
  past : List KeyData
  caches : Caches
  phase : Nat → Phase

def State.changes (state : State) : Nat := state.past.length

def State.reading {Value : Type} (state : State) (value : Value) : Read Value :=
  ⟨value, state.changes⟩

def afterWrites (caller : Caller) (answer : Answer) : Phase :=
  match caller with
  | .middleware => .resolved ⟨some answer, some answer, some answer⟩
  | .tool => .tenantResolved (some answer)

/-- What follows the answer of the database: a tool body denies before it writes. -/
def afterVerify (caller : Caller) (answer : Answer) : Phase :=
  match caller with
  | .middleware => .verified .middleware answer
  | .tool =>
      if answer.value.isNone ||
          isNullTenantEscalation (tenantOf (some answer)) (ownerOf (some answer)) then .refused
      else .verified .tool answer

/-- `_get_plan_for_key` up to its cache read, after the guards of the dispatch. -/
def planLookup (state : State) (identity : Identity) (now : Nat) (fails : Bool) : Phase :=
  if !withRow identity.key ||
      isNullTenantEscalation (tenantOf identity.tenant) (ownerOf identity.owner) then .refused
  else if fails then .served identity none
  else match state.caches.plan with
    | some (plan, ts) =>
        if now - ts < cacheTtl then .served identity (some plan) else .planMissed identity now
    | none => .planMissed identity now

/-- The next section of a thread in this phase: what it leaves in the caches, and the phase
it goes to.  `fails` is a database error. -/
def advance (state : State) (now : Nat) (fails : Bool) : Phase → Caches × Phase
  | .begun .middleware => (state.caches, .keyRead (cacheGet state.caches now))
  | .begun .tool =>
      match cacheGetTenant state.caches now with
      | some tenant => (state.caches, .tenantResolved tenant)
      | none => (state.caches, .verifying .tool)
  | .keyRead key => (state.caches, .tenantRead key (cacheGetTenant state.caches now))
  | .tenantRead key tenant =>
      match key, tenant, cacheGetOwner state.caches now with
      | some key, some tenant, some owner => (state.caches, .resolved ⟨key, tenant, owner⟩)
      | _, _, _ => (state.caches, .verifying .middleware)
  | .verifying caller =>
      if fails then (state.caches, .refused)
      else (state.caches, afterVerify caller (state.reading state.data.row))
  | .verified caller answer => (cacheSet answer now state.caches, .keyWritten caller answer)
  | .keyWritten caller answer => (cacheSetTenant answer state.caches, .tenantWritten caller answer)
  | .tenantWritten caller answer =>
      (cacheSetOwner answer state.caches, afterWrites caller answer)
  | .resolved identity => (state.caches, planLookup state identity now fails)
  | .planMissed identity since =>
      match state.data.plan with
      | some plan =>
          if fails then (state.caches, .served identity none)
          else (state.caches, .planFetched identity (state.reading plan) since)
      | none => (state.caches, .served identity none)
  | .planFetched identity plan since =>
      ({ state.caches with plan := some (plan, since) }, .served identity (some plan))
  | phase => (state.caches, phase)

def act (state : State) (thread now : Nat) (fails : Bool) : State :=
  { state with
    caches := (advance state now fails (state.phase thread)).1
    phase := Function.update state.phase thread (advance state now fails (state.phase thread)).2 }

inductive Event where
  | start (thread : Nat) (caller : Caller)
  | act (thread : Nat) (now : Nat) (fails : Bool)
  | change (data : KeyData)
  | invalidate
  | invalidateByKeyId

def step (state : State) : Event → State
  | .start thread caller =>
      if state.phase thread = .idle then
        { state with phase := Function.update state.phase thread (.begun caller) }
      else state
  | .act thread now fails => act state thread now fails
  | .change data => { state with data, past := state.data :: state.past }
  | .invalidate => { state with caches := cacheInvalidate state.caches }
  | .invalidateByKeyId => { state with caches := cacheInvalidateByKeyId state.caches }

/-- A process that has cached nothing and serves nothing yet. -/
def State.initial (data : KeyData) : State :=
  { data, past := [], caches := ⟨none, none, none, none, none⟩, phase := fun _ => .idle }

def Identity.answers (identity : Identity) : List Answer :=
  identity.key.toList ++ identity.tenant.toList ++ identity.owner.toList

def Phase.identity : Phase → Option Identity
  | .resolved identity => some identity
  | .planMissed identity _ => some identity
  | .planFetched identity _ _ => some identity
  | .served identity _ => some identity
  | _ => none

def Phase.writes : Phase → Option Answer
  | .verified _ answer => some answer
  | .keyWritten _ answer => some answer
  | .tenantWritten _ answer => some answer
  | _ => none

def Phase.entries : Phase → List Answer
  | .keyRead key => key.join.toList
  | .tenantRead key tenant => key.join.toList ++ tenant.join.toList
  | .tenantResolved tenant => tenant.toList
  | _ => []

def Phase.answers (phase : Phase) : List Answer :=
  phase.entries ++ phase.writes.toList ++ (phase.identity.map Identity.answers).getD []

section Answers
variable {caller : Caller} {identity : Identity}

@[simp] theorem answers_begun : (Phase.begun caller).answers = [] := rfl

@[simp] theorem answers_keyRead (key : Lookup) : (Phase.keyRead key).answers = key.join.toList := by
  simp [Phase.answers, Phase.entries, Phase.writes, Phase.identity]

@[simp] theorem answers_tenantRead (key tenant : Lookup) :
    (Phase.tenantRead key tenant).answers = key.join.toList ++ tenant.join.toList := by
  simp [Phase.answers, Phase.entries, Phase.writes, Phase.identity]

@[simp] theorem answers_verifying : (Phase.verifying caller).answers = [] := rfl

@[simp] theorem answers_verified (answer : Answer) :
    (Phase.verified caller answer).answers = [answer] := rfl

@[simp] theorem answers_tenantWritten (answer : Answer) :
    (Phase.tenantWritten caller answer).answers = [answer] := rfl

@[simp] theorem answers_resolved : (Phase.resolved identity).answers = identity.answers := rfl

@[simp] theorem answers_planMissed (since : Nat) :
    (Phase.planMissed identity since).answers = identity.answers := rfl

@[simp] theorem answers_served (plan : Option (Read PlanInfo)) :
    (Phase.served identity plan).answers = identity.answers := rfl

@[simp] theorem answers_tenantResolved (tenant : Option Answer) :
    (Phase.tenantResolved tenant).answers = tenant.toList := by
  simp [Phase.answers, Phase.entries, Phase.writes, Phase.identity]

@[simp] theorem answers_refused : Phase.refused.answers = [] := rfl

end Answers

def Phase.plans : Phase → List (Read PlanInfo)
  | .planFetched _ plan _ => [plan]
  | .served _ plan => plan.toList
  | _ => []

def Caches.answers (caches : Caches) : List Answer :=
  caches.key.toList ++ caches.tenant.toList ++ caches.owner.toList

variable {caches : Caches} {now : Nat} {answer : Answer} {state : State} {identity : Identity}
variable {fails : Bool}

theorem cacheGet_entry
    (member : answer ∈ (cacheGet caches now).join.toList) : answer ∈ caches.answers := by
  unfold cacheGet at member
  split at member
  · simp_all [Caches.answers]
  · cases member

theorem cacheGetTenant_entry
    (member : answer ∈ (cacheGetTenant caches now).join.toList) : answer ∈ caches.answers := by
  unfold cacheGetTenant at member
  split at member
  · simp_all [Caches.answers]
  · cases member

theorem cacheGetOwner_entry
    (member : answer ∈ (cacheGetOwner caches now).join.toList) : answer ∈ caches.answers := by
  unfold cacheGetOwner at member
  split at member
  · cases found : caches.owner with
    | none => simp [found] at member
    | some entry => simp_all [Caches.answers]
  · cases member

theorem advance_caches (state : State) (now : Nat) (fails : Bool) (phase : Phase)
    (answer : Answer) (member : answer ∈ (advance state now fails phase).1.answers) :
    answer ∈ state.caches.answers ∨ phase.writes = some answer := by
  cases phase with
  | verified caller written =>
      dsimp only [advance] at member
      simp only [cacheSet, Caches.answers, Option.toList_some, List.mem_append,
        List.mem_singleton] at member
      simp only [Caches.answers, List.mem_append, Phase.writes, Option.some.injEq]
      tauto
  | keyWritten caller written =>
      dsimp only [advance] at member
      simp only [cacheSetTenant, Caches.answers, Option.toList_some, List.mem_append,
        List.mem_singleton] at member
      simp only [Caches.answers, List.mem_append, Phase.writes, Option.some.injEq]
      tauto
  | tenantWritten caller written =>
      dsimp only [advance] at member
      simp only [cacheSetOwner, Caches.answers, Option.toList_some, List.mem_append,
        List.mem_singleton] at member
      simp only [Caches.answers, List.mem_append, Phase.writes, Option.some.injEq]
      tauto
  | begun caller =>
      cases caller with
      | middleware => exact Or.inl member
      | tool =>
          dsimp only [advance] at member
          split at member <;> exact Or.inl member
  | tenantRead key tenant | verifying caller =>
      dsimp only [advance] at member
      split at member <;> exact Or.inl member
  | planMissed identity since =>
      dsimp only [advance] at member
      split at member
      · split at member <;> exact Or.inl member
      · exact Or.inl member
  | _ => exact Or.inl member

theorem afterVerify_answers {caller : Caller} {written answer : Answer}
    (member : answer ∈ (afterVerify caller written).answers) : answer = written := by
  cases caller with
  | middleware => simpa [afterVerify] using member
  | tool =>
      unfold afterVerify at member
      simp only at member
      split at member
      · simp at member
      · simpa using member

theorem afterWrites_answers {caller : Caller} {written answer : Answer}
    (member : answer ∈ (afterWrites caller written).answers) : answer = written := by
  cases caller with
  | middleware =>
      simpa [afterWrites, Identity.answers] using member
  | tool =>
      simpa [afterWrites] using member

theorem planLookup_answers
    (member : answer ∈ (planLookup state identity now fails).answers) :
    answer ∈ identity.answers := by
  unfold planLookup at member
  split at member
  · simp at member
  · split at member
    · simpa using member
    · split at member
      · split at member
        · simpa using member
        · simpa using member
      · simpa using member

theorem advance_answers (state : State) (now : Nat) (fails : Bool) (phase : Phase)
    (answer : Answer) (member : answer ∈ (advance state now fails phase).2.answers) :
    answer ∈ phase.answers ∨ answer ∈ state.caches.answers ∨
      answer = state.reading state.data.row := by
  cases phase with
  | begun caller =>
      cases caller with
      | middleware =>
          right; left
          dsimp only [advance] at member
          simp only [answers_keyRead] at member
          exact cacheGet_entry member
      | tool =>
          dsimp only [advance] at member
          split at member
          · rename_i tenant hit
            right; left
            apply @cacheGetTenant_entry state.caches now
            rw [hit]
            simpa using member
          · simp at member
  | keyRead key =>
      dsimp only [advance] at member ⊢
      simp only [answers_keyRead, answers_tenantRead, List.mem_append] at member ⊢
      rcases member with known | read
      · exact Or.inl known
      · exact Or.inr (Or.inl (cacheGetTenant_entry read))
  | tenantRead key tenant =>
      dsimp only [advance] at member
      split at member
      · rename_i keyEntry tenantEntry owner hit
        simp only [answers_resolved, answers_tenantRead, Identity.answers, List.mem_append,
          Option.join_some] at member ⊢
        rcases member with (known | known) | read
        · exact Or.inl (Or.inl known)
        · exact Or.inl (Or.inr known)
        · right; left
          apply @cacheGetOwner_entry state.caches now
          rw [hit]
          exact read
      · simp at member
  | verifying caller =>
      dsimp only [advance] at member
      split at member
      · simp at member
      · exact Or.inr (Or.inr (afterVerify_answers member))
  | tenantWritten caller written =>
      left
      rw [afterWrites_answers member]
      exact List.mem_singleton_self written
  | resolved identity =>
      left
      have known := planLookup_answers member
      simpa using known
  | planMissed identity since =>
      left
      dsimp only [advance] at member
      split at member
      · split at member <;> exact member
      · exact member
  | _ => exact Or.inl member

theorem planLookup_plans
    {plan : Read PlanInfo} (member : plan ∈ (planLookup state identity now fails).plans) :
    ∃ ts, state.caches.plan = some (plan, ts) := by
  unfold planLookup at member
  split at member
  · cases member
  · split at member
    · cases member
    · split at member
      · rename_i found ts cached
        split at member
        · have same : plan = found := by simpa [Phase.plans] using member
          exact ⟨ts, same ▸ cached⟩
        · cases member
      · cases member

theorem advance_plans (state : State) (now : Nat) (fails : Bool) (phase : Phase)
    (plan : Read PlanInfo) (member : plan ∈ (advance state now fails phase).2.plans) :
    plan ∈ phase.plans ∨ (∃ ts, state.caches.plan = some (plan, ts)) ∨
      plan.at' = state.changes := by
  cases phase with
  | begun caller =>
      cases caller with
      | middleware => cases member
      | tool =>
          dsimp only [advance] at member
          split at member <;> cases member
  | tenantRead key tenant =>
      dsimp only [advance] at member
      split at member <;> cases member
  | verifying caller =>
      dsimp only [advance] at member
      split at member
      · cases member
      · cases caller with
        | middleware => cases member
        | tool =>
            unfold afterVerify at member
            simp only at member
            split at member <;> cases member
  | tenantWritten caller written => cases caller <;> cases member
  | resolved identity => exact Or.inr (Or.inl (planLookup_plans member))
  | planMissed identity since =>
      dsimp only [advance] at member
      split at member
      · split at member
        · cases member
        · rename_i found _ _
          have same : plan = state.reading found := by simpa [Phase.plans] using member
          exact Or.inr (Or.inr (by rw [same]; rfl))
      · cases member
  | planFetched identity known since | _ => exact Or.inl member

theorem advance_planEntry (state : State) (now : Nat) (fails : Bool) (phase : Phase)
    (plan : Read PlanInfo) (ts : Nat)
    (cached : (advance state now fails phase).1.plan = some (plan, ts)) :
    state.caches.plan = some (plan, ts) ∨ ∃ identity since, phase = .planFetched identity plan since := by
  cases phase with
  | begun caller =>
      cases caller with
      | middleware => exact Or.inl cached
      | tool =>
          dsimp only [advance] at cached
          split at cached <;> exact Or.inl cached
  | tenantRead key tenant | verifying caller =>
      dsimp only [advance] at cached
      split at cached <;> exact Or.inl cached
  | planMissed identity since =>
      dsimp only [advance] at cached
      split at cached
      · split at cached <;> exact Or.inl cached
      · exact Or.inl cached
  | planFetched identity known since =>
      dsimp only [advance] at cached
      simp only [Option.some.injEq, Prod.mk.injEq] at cached
      exact Or.inr ⟨identity, since, by rw [cached.1]⟩
  | _ => exact Or.inl cached

def State.rows (state : State) : List KeyRow :=
  (state.data :: state.past).filterMap (·.row)

/-- The key's row has had no tenant. -/
def NullSeen (state : State) : Prop :=
  ∃ row ∈ state.rows, row.tenantId = none

def admitted (identity : Identity) : Bool :=
  withRow identity.key &&
    !isNullTenantEscalation (tenantOf identity.tenant) (ownerOf identity.owner)

/-- A request that is served from the tenant entry it reads finds an entry that a
verification with a row wrote. -/
def tenantKnown (state : State) : Event → Bool
  | .act thread now _ =>
      match state.phase thread with
      | .begun .tool => !live state.caches now || withRow state.caches.tenant
      | .tenantRead key tenant =>
          match key, tenant, cacheGetOwner state.caches now with
          | some key, some tenant, some owner =>
              !admitted ⟨key, tenant, owner⟩ || withRow tenant
          | _, _, _ => true
      | _ => true
  | _ => true

def Phase.toolWrites : Phase → Option Answer
  | .verified .tool answer => some answer
  | .keyWritten .tool answer => some answer
  | .tenantWritten .tool answer => some answer
  | _ => none

/-- A request resolves the key to no tenant: a tool body, or a dispatch that lets it pass. -/
def resolvesNone : Phase → Bool
  | .tenantResolved tenant => (tenantOf tenant).isNone
  | phase => phase.identity.any fun identity =>
      admitted identity && (tenantOf identity.tenant).isNone

structure Grounded (state : State) : Prop where
  caches : ∀ answer ∈ state.caches.answers, ∀ row, answer.value = some row → row ∈ state.rows
  threads : ∀ thread, ∀ answer ∈ (state.phase thread).answers, ∀ row,
    answer.value = some row → row ∈ state.rows
  tools : ∀ thread answer, (state.phase thread).toolWrites = some answer →
    withRow (some answer) = true
  resolved : ∀ thread, resolvesNone (state.phase thread) = true → NullSeen state

theorem rows_change (state : State) (data : KeyData) (row : KeyRow) (member : row ∈ state.rows) :
    row ∈ (step state (.change data)).rows := by
  simp only [State.rows, step, List.mem_filterMap, List.mem_cons] at member ⊢
  obtain ⟨known, knownIn, same⟩ := member
  exact ⟨known, Or.inr knownIn, same⟩

theorem nullSeen_of_entry (state : State) (entry : Option Answer) (known : withRow entry = true)
    (grounded : ∀ answer ∈ entry.toList, ∀ row, answer.value = some row → row ∈ state.rows)
    (isNone : (tenantOf entry).isNone = true) : NullSeen state := by
  cases entry with
  | none => cases known
  | some answer =>
      cases found : answer.value with
      | none => simp [withRow, found] at known
      | some row =>
          refine ⟨row, grounded answer (by simp) row found, ?_⟩
          simpa [tenantOf, found] using isNone

theorem admitted_row
    (passes : admitted ⟨some answer, some answer, some answer⟩ = true) :
    withRow (some answer) = true := by
  simp only [admitted, Bool.and_eq_true] at passes
  exact passes.1

theorem planLookup_resolves
    (isNone : resolvesNone (planLookup state identity now fails) = true) :
    resolvesNone (.resolved identity) = true := by
  unfold planLookup at isNone
  split at isNone
  · cases isNone
  · split at isNone
    · exact isNone
    · split at isNone
      · split at isNone <;> exact isNone
      · exact isNone

theorem advance_resolves (state : State) (now : Nat) (fails : Bool) (thread : Nat)
    (known : tenantKnown state (.act thread now fails) = true) (grounded : Grounded state)
    (isNone : resolvesNone (advance state now fails (state.phase thread)).2 = true) :
    NullSeen state := by
  have held := grounded.threads thread
  have before := grounded.resolved thread
  cases phase : state.phase thread with
  | begun caller =>
      rw [phase] at isNone
      cases caller with
      | middleware => cases isNone
      | tool =>
          simp only [tenantKnown, phase, Bool.or_eq_true, Bool.not_eq_true'] at known
          dsimp only [advance] at isNone
          simp only [cacheGetTenant] at isNone
          by_cases valid : live state.caches now = true
          · rw [valid] at known isNone
            simp only [if_true, Bool.true_eq_false, false_or] at known isNone
            apply nullSeen_of_entry state state.caches.tenant known _ isNone
            intro answer member
            exact grounded.caches answer (by simp_all [Caches.answers])
          · simp only [valid] at isNone
            cases isNone
  | tenantRead key tenant =>
      rw [phase] at isNone held
      simp only [tenantKnown, phase] at known
      dsimp only [advance] at isNone
      split at isNone
      · rename_i keyEntry tenantEntry owner hit
        rw [hit] at known
        simp only [resolvesNone, Phase.identity, Option.any_some, Bool.and_eq_true] at isNone
        simp only [isNone.1, Bool.not_true, Bool.false_or] at known
        apply nullSeen_of_entry state tenantEntry known _ isNone.2
        intro answer member
        apply held answer
        simp only [answers_tenantRead, Option.join_some, List.mem_append]
        exact Or.inr member
      · cases isNone
  | tenantWritten caller answer =>
      rw [phase] at isNone held
      have written : ∀ row, answer.value = some row → row ∈ state.rows :=
        held answer (by simp)
      have listed : ∀ other ∈ (some answer).toList, ∀ row, other.value = some row →
          row ∈ state.rows := by
        intro other member
        rw [List.mem_singleton.mp member]
        exact written
      cases caller with
      | middleware =>
          dsimp only [advance] at isNone
          simp only [afterWrites, resolvesNone, Phase.identity, Option.any_some,
            Bool.and_eq_true] at isNone
          exact nullSeen_of_entry state (some answer) (admitted_row isNone.1) listed isNone.2
      | tool =>
          have hasRow := grounded.tools thread answer (by rw [phase]; rfl)
          exact nullSeen_of_entry state (some answer) hasRow listed isNone
  | resolved identity =>
      rw [phase] at isNone before
      exact before (planLookup_resolves isNone)
  | planMissed identity since =>
      rw [phase] at isNone before
      dsimp only [advance] at isNone
      split at isNone
      · split at isNone <;> exact before isNone
      · exact before isNone
  | planFetched identity plan since | served identity plan | tenantResolved tenant =>
      rw [phase] at isNone before
      exact before isNone
  | verifying caller =>
      rw [phase] at isNone
      dsimp only [advance] at isNone
      split at isNone
      · cases isNone
      · cases caller with
        | middleware => cases isNone
        | tool =>
            unfold afterVerify at isNone
            simp only at isNone
            split at isNone <;> cases isNone
  | _ =>
      -- the other statements resolve nothing
      rw [phase] at isNone
      cases isNone

theorem advance_toolWrites (state : State) (now : Nat) (fails : Bool) (phase : Phase)
    (answer : Answer) (writes : (advance state now fails phase).2.toolWrites = some answer) :
    phase.toolWrites = some answer ∨ withRow (some answer) = true := by
  cases phase with
  | begun caller =>
      cases caller with
      | middleware => cases writes
      | tool =>
          dsimp only [advance] at writes
          split at writes <;> cases writes
  | tenantRead key tenant =>
      dsimp only [advance] at writes
      split at writes <;> cases writes
  | verifying caller =>
      dsimp only [advance] at writes
      split at writes
      · cases writes
      · cases caller with
        | middleware => cases writes
        | tool =>
            unfold afterVerify at writes
            simp only at writes
            split at writes
            · cases writes
            · rename_i accepted
              cases writes
              right
              simp only [Bool.or_eq_true, Option.isNone_iff_eq_none, not_or] at accepted
              simpa [withRow, Option.isSome_iff_ne_none] using accepted.1
  | verified caller written | keyWritten caller written => cases caller <;> exact Or.inl writes
  | tenantWritten caller written => cases caller <;> cases writes
  | resolved identity =>
      dsimp only [advance] at writes
      simp only [planLookup] at writes
      split at writes
      · cases writes
      · split at writes
        · cases writes
        · split at writes
          · split at writes <;> cases writes
          · cases writes
  | planMissed identity since =>
      dsimp only [advance] at writes
      split at writes
      · split at writes <;> cases writes
      · cases writes
  | idle | keyRead key | planFetched identity plan since | served identity plan
  | tenantResolved tenant | refused => cases writes

theorem Grounded.act {thread now : Nat}
    (known : tenantKnown state (.act thread now fails) = true) (grounded : Grounded state) :
    Grounded (act state thread now fails) := by
  have fresh : ∀ row, (state.reading state.data.row).value = some row → row ∈ state.rows := by
    intro row isRow
    exact List.mem_filterMap.mpr ⟨state.data, List.mem_cons_self, isRow⟩
  constructor
  · intro answer member row isRow
    rcases advance_caches state now fails (state.phase thread) answer member with cached | writes
    · exact grounded.caches answer cached row isRow
    · exact grounded.threads thread answer (by simp [Phase.answers, writes]) row isRow
  · intro other answer member row isRow
    by_cases acting : other = thread
    · subst acting
      simp only [KeyCache.act, Function.update_self] at member
      rcases advance_answers state now fails _ answer member with held | cached | read
      · exact grounded.threads other answer held row isRow
      · exact grounded.caches answer cached row isRow
      · exact fresh row (read ▸ isRow)
    · simp only [KeyCache.act, Function.update_of_ne acting] at member
      exact grounded.threads other answer member row isRow
  · intro other answer writes
    by_cases acting : other = thread
    · subst acting
      simp only [KeyCache.act, Function.update_self] at writes
      rcases advance_toolWrites state now fails _ answer writes with held | found
      · exact grounded.tools other answer held
      · exact found
    · simp only [KeyCache.act, Function.update_of_ne acting] at writes
      exact grounded.tools other answer writes
  · intro other isNone
    by_cases acting : other = thread
    · subst acting
      simp only [KeyCache.act, Function.update_self] at isNone
      exact advance_resolves state now fails other known grounded isNone
    · simp only [KeyCache.act, Function.update_of_ne acting] at isNone
      exact grounded.resolved other isNone

theorem cacheInvalidateByKeyId_answers (caches : Caches) (answer : Answer)
    (member : answer ∈ (cacheInvalidateByKeyId caches).answers) : answer ∈ caches.answers := by
  unfold cacheInvalidateByKeyId at member
  split at member
  · cases member
  · exact member

theorem Grounded.step {event : Event} (known : tenantKnown state event = true)
    (grounded : Grounded state) : Grounded (step state event) := by
  cases event with
  | act thread now fails => exact grounded.act known
  | start thread caller =>
      simp only [KeyCache.step]
      split
      · refine ⟨grounded.caches, ?_, ?_, ?_⟩
        · intro other answer member
          by_cases starting : other = thread
          · subst starting
            simp at member
          · simp only [Function.update_of_ne starting] at member
            exact grounded.threads other answer member
        · intro other answer writes
          by_cases starting : other = thread
          · subst starting
            simp [Phase.toolWrites] at writes
          · simp only [Function.update_of_ne starting] at writes
            exact grounded.tools other answer writes
        · intro other isNone
          by_cases starting : other = thread
          · subst starting
            simp [resolvesNone, Phase.identity] at isNone
          · simp only [Function.update_of_ne starting] at isNone
            exact grounded.resolved other isNone
      · exact grounded
  | change data =>
      refine ⟨?_, ?_, grounded.tools, ?_⟩
      · exact fun answer member row isRow =>
          rows_change state data row (grounded.caches answer member row isRow)
      · exact fun thread answer member row isRow =>
          rows_change state data row (grounded.threads thread answer member row isRow)
      · intro thread isNone
        obtain ⟨row, rowIn, noTenant⟩ := grounded.resolved thread isNone
        exact ⟨row, rows_change state data row rowIn, noTenant⟩
  | invalidate =>
      exact ⟨fun _ member => absurd member List.not_mem_nil, grounded.threads, grounded.tools,
        grounded.resolved⟩
  | invalidateByKeyId =>
      exact ⟨fun answer member => grounded.caches answer
        (cacheInvalidateByKeyId_answers state.caches answer member), grounded.threads,
        grounded.tools, grounded.resolved⟩

/-- When every request that is served from the tenant entry it reads finds one that a
verification with a row wrote, a key is resolved to no tenant only if its row had none. -/
theorem none_only_for_null_tenant (data : KeyData) (events : List Event)
    (known : AllSteps step (fun state event => tenantKnown state event = true)
      (State.initial data) events) (thread : Nat)
    (isNone : resolvesNone ((run step (State.initial data) events).phase thread) = true) :
    ∃ row ∈ (run step (State.initial data) events).rows, row.tenantId = none := by
  have initial : Grounded (State.initial data) := by
    refine ⟨fun _ member => absurd member List.not_mem_nil, ?_, ?_, ?_⟩
    · exact fun _ _ member => absurd member List.not_mem_nil
    · intro _ _ writes
      cases writes
    · intro _ isNone
      cases isNone
  have reached := run_preserves_guarded step (fun state event => tenantKnown state event = true)
    Grounded (fun state event guard => Grounded.step guard) events (State.initial data) known
    initial
  exact reached.resolved thread isNone

def tenantKey : KeyData :=
  { row := some { tenantId := some 5, userId := some 1, ownerIsAdmin := true }
    plan := some { planId := 2, slug := "team", quotaCallsPerMonth := 1000, rateLimitRpm := 60
                   rateLimitOverride := none, quotaOverride := none } }

def globalKey : KeyData :=
  { tenantKey with row := some { tenantId := none, userId := none, ownerIsAdmin := false } }

def ownerless : KeyData :=
  { tenantKey with row := some { tenantId := some 5, userId := none, ownerIsAdmin := false } }

def acts (thread now count : Nat) : List Event :=
  List.replicate count (.act thread now false)

/-- A request is served; an admin changes the key and invalidates it; the next request has
written the key entry when the tool body of the first one looks up its tenant. -/
def midWrite : List Event :=
  [.start 0 .middleware] ++ acts 0 10 10 ++ [.change ownerless, .invalidateByKeyId,
    .start 1 .middleware] ++ acts 1 20 5 ++ [.start 2 .tool] ++ acts 2 21 1

def globalRequest : List Event :=
  [.start 0 .middleware] ++ acts 0 10 10

theorem global_key_served :
    ∃ row ∈ (run step (State.initial globalKey) globalRequest).rows, row.tenantId = none := by
  have known : AllSteps step (fun state event => tenantKnown state event = true)
      (State.initial globalKey) globalRequest := by decide +kernel
  have isNone : resolvesNone ((run step (State.initial globalKey) globalRequest).phase 0) = true :=
    by decide +kernel
  exact none_only_for_null_tenant globalKey globalRequest known 0 isNone

/-- The tool body of a key of tenant 5 is told that the key has no tenant. -/
theorem mid_write_resolves_none :
    resolvesNone ((run step (State.initial tenantKey) midWrite).phase 2) = true ∧
      (run step (State.initial tenantKey) midWrite).phase 2 = .tenantResolved none ∧
      ∀ row ∈ (run step (State.initial tenantKey) midWrite).rows, row.tenantId = some 5 := by
  decide +kernel

end OdooSemantic.Mcp.KeyCache
