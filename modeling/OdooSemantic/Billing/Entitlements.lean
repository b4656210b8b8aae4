import OdooSemantic.Lib.Run

/-!
# Subscription state from billing webhooks

Grant, update and revoke events of one subscription reach the webhook pipeline in any order
and any number of times.  Each handler compares the event's time with the newest one stored;
update and revoke need the row a grant has made.
-/

set_option autoImplicit false

namespace OdooSemantic.Billing.Entitlements

open Lib.Run

inductive Status where
  | pending
  | active
  | pastDue
  | cancelled
  | expired
  | trialing
  | refunded
  deriving DecidableEq

structure Subscription where
  status : Status
  planId : Nat
  seats : Nat
  buyerEmail : Option String
  cancelAtPeriodEnd : Bool
  lastEventAt : Option Nat

/-- What `event_action_fn` maps an event type to. -/
inductive EventAction where
  | grant
  | update
  | revoke
  deriving DecidableEq

/-- An event as the adapter reads it; `plan` is what `resolve_plan_fn` gives or raises. -/
structure Event where
  id : String
  action : EventAction
  eventAt : Option Nat
  plan : Except String Nat
  status : Status
  seats : Nat
  buyerEmail : Option String
  cancelAtPeriodEnd : Option Bool
  deriving DecidableEq

inductive Raised where
  | valueError (message : String)
  | lookupError (message : String)
  | integrityError (constraint : String)

/-- `_PERMANENT_DISPATCH_ERRORS`. -/
def Raised.permanent : Raised → Bool
  | .valueError _ => true
  | .integrityError _ => true
  | .lookupError _ => false

def Raised.text : Raised → String
  | .valueError message => message
  | .lookupError message => message
  | .integrityError constraint => constraint

/-- A row of `billing_webhook_events`. -/
structure LedgerRow where
  processed : Bool
  processingError : Option Raised

structure State where
  subscription : Option Subscription
  ledger : String → Option LedgerRow

structure Env where
  externalRef : String
  planSlug : Nat → Option String
  teamPlanSlug : String
  teamMinSeats : Nat

inductive Response where
  | duplicate
  | configError
  | permanentError
  | retry
  | ok

def current (incoming stored : Option Nat) : Bool :=
  match incoming, stored with
  | some incoming, some stored => decide (stored ≤ incoming)
  | _, _ => true

/-- `GREATEST` over the times that are there. -/
def greatest : Option Nat → Option Nat → Option Nat
  | some stored, some incoming => some (max stored incoming)
  | some stored, none => some stored
  | none, incoming => incoming

section Handlers
variable (env : Env)

def enforceTeamMinSeats (planId seats : Nat) : Option Raised :=
  if env.planSlug planId = some env.teamPlanSlug ∧ seats < env.teamMinSeats then
    some (.valueError ("team tier requires >= " ++ toString env.teamMinSeats ++
      " seats (got " ++ toString seats ++ ")"))
  else none

def proposedRow (event : Event) : Option Raised :=
  if event.buyerEmail.isNone then some (.integrityError "subscriptions_no_orphan_active")
  else if event.seats = 0 then some (.integrityError "subscriptions_seats_positive")
  else none

/-- `upsert_by_external_ref(status='active', …)`. -/
def upsertByExternalRef (event : Event) (planId : Nat) : Option Subscription → Subscription
  | none =>
      { status := .active, planId, seats := event.seats, buyerEmail := event.buyerEmail
        cancelAtPeriodEnd := false, lastEventAt := event.eventAt }
  | some stored =>
      let isCurrent := current event.eventAt stored.lastEventAt
      { stored with
        status := if isCurrent then .active else stored.status
        planId := if isCurrent then planId else stored.planId
        seats := if isCurrent then event.seats else stored.seats
        lastEventAt := greatest stored.lastEventAt event.eventAt
        buyerEmail := event.buyerEmail.or stored.buyerEmail }

def grantEntitlement (event : Event) (planId : Nat) (row : Option Subscription) :
    Except Raised (Option Subscription) :=
  match enforceTeamMinSeats env planId event.seats with
  | some raised => .error raised
  | none =>
      match proposedRow event with
      | some raised => .error raised
      | none => .ok (some (upsertByExternalRef event planId row))

/-- `update_entitlement`: a stale event only moves the time of the last event. -/
def updateEntitlement (event : Event) (planId : Nat) :
    Option Subscription → Except Raised (Option Subscription)
  | none => .error (.lookupError
      ("update_entitlement: no subscription for external_ref='" ++ env.externalRef ++ "'"))
  | some stored =>
      let lastEventAt := greatest stored.lastEventAt event.eventAt
      if current event.eventAt stored.lastEventAt then
        .ok (some { stored with
          planId, status := event.status, seats := event.seats, lastEventAt
          cancelAtPeriodEnd := event.cancelAtPeriodEnd.getD stored.cancelAtPeriodEnd })
      else .ok (some { stored with lastEventAt })

/-- `revoke_entitlement`: an unknown subscription is a no-op, `voluntary` only schedules. -/
def revokeEntitlement (voluntary : Bool) (eventAt : Option Nat) :
    Option Subscription → Option Subscription
  | none => none
  | some stored =>
      if voluntary then some { stored with cancelAtPeriodEnd := true }
      else
        let lastEventAt := greatest stored.lastEventAt eventAt
        if current eventAt stored.lastEventAt then
          some { stored with status := .cancelled, lastEventAt }
        else some { stored with lastEventAt }

/-- Steps 11 and 12: a plan is resolved for a grant and an update, then the handler runs. -/
def dispatch (event : Event) (row : Option Subscription) : Except Raised (Option Subscription) :=
  match event.action, event.plan with
  | .revoke, _ => .ok (revokeEntitlement false event.eventAt row)
  | .grant, .ok planId => grantEntitlement env event planId row
  | .update, .ok planId => updateEntitlement env event planId row
  | _, .error message => .error (.valueError message)

def State.setLedger (state : State) (id : String) (row : LedgerRow) : State :=
  { state with ledger := Function.update state.ledger id (some row) }

/-- `record_webhook_event`: a row that is there stays as it is. -/
def recordWebhookEvent (state : State) (id : String) : State :=
  match state.ledger id with
  | some _ => state
  | none => state.setLedger id { processed := false, processingError := none }

def alreadyProcessed (state : State) (id : String) : Bool :=
  (state.ledger id).any (·.processed)

/-- `run_webhook_pipeline` for an authentic event of a mapped type. -/
def runWebhookPipeline (state : State) (event : Event) : State × Response :=
  if alreadyProcessed state event.id then (state, .duplicate)
  else
    let recorded := recordWebhookEvent state event.id
    match dispatch env event recorded.subscription with
    | .ok row =>
        ({ recorded with subscription := row }.setLedger event.id
          { processed := true, processingError := none }, .ok)
    | .error raised =>
        if raised.permanent then
          (recorded.setLedger event.id { processed := true, processingError := some raised },
            if event.plan = .error raised.text then .configError else .permanentError)
        -- nothing is marked: the vendor is asked to deliver the event again
        else (recorded, .retry)

def step (state : State) (event : Event) : State := (runWebhookPipeline env state event).1

end Handlers

/-- Before the first delivery. -/
def noSubscription : State := ⟨none, fun _ => none⟩

def Event.givenStatus (event : Event) : Status :=
  match event.action with
  | .grant => .active
  | .update => event.status
  | .revoke => .cancelled

def Event.givenPlan (event : Event) : Option Nat :=
  match event.action with
  | .revoke => none
  | _ => event.plan.toOption

def Shows (row : Subscription) (event : Event) : Prop :=
  row.status = event.givenStatus ∧ ∀ planId, event.givenPlan = some planId → row.planId = planId

/-- A grant whose plan resolves and which passes its checks. -/
def accepted (env : Env) (event : Event) : Bool :=
  match event.action, event.plan with
  | .grant, .ok planId =>
      (enforceTeamMinSeats env planId event.seats).isNone && (proposedRow event).isNone
  | _, _ => false

def granted (env : Env) (events : List Event) : Bool := events.any (accepted env)

def TakesEffect (env : Env) (events : List Event) (event : Event) : Prop :=
  match event.action with
  | .grant => event ∈ events ∧ accepted env event = true
  | .update => event.plan.toOption.isSome = true ∧
      ∃ earlier later, events = earlier ++ event :: later ∧ granted env earlier = true
  | .revoke => ∃ earlier later, events = earlier ++ event :: later ∧ event ∉ earlier ∧
      granted env earlier = true

structure Distinct (events : List Event) : Prop where
  timed : ∀ event ∈ events, event.eventAt.isSome = true
  times : ∀ first ∈ events, ∀ second ∈ events, first.eventAt = second.eventAt → first = second
  ids : ∀ first ∈ events, ∀ second ∈ events, first.id = second.id → first = second

theorem Distinct.time {events : List Event} {event : Event} (distinct : Distinct events)
    (member : event ∈ events) : ∃ time, event.eventAt = some time :=
  Option.isSome_iff_exists.mp (distinct.timed event member)

theorem Distinct.sublist {events rest : List Event} (distinct : Distinct events)
    (kept : ∀ event ∈ rest, event ∈ events) : Distinct rest :=
  ⟨fun event member => distinct.timed event (kept event member),
    fun first firstIn second secondIn =>
      distinct.times first (kept first firstIn) second (kept second secondIn),
    fun first firstIn second secondIn =>
      distinct.ids first (kept first firstIn) second (kept second secondIn)⟩

/-- What a handler that returns has done to the row, for an event of this time. -/
inductive Effect (env : Env) (event : Event) (time : Nat) :
    Option Subscription → Option Subscription → Prop where
  | unknown (revokes : event.action = .revoke) : Effect env event time none none
  | inserted (after : Subscription) (grants : accepted env event = true)
      (stamp : after.lastEventAt = some time) (shown : Shows after event) :
      Effect env event time none (some after)
  | written (stored after : Subscription) (newest : Nat) (was : stored.lastEventAt = some newest)
      (current : newest ≤ time) (stamp : after.lastEventAt = some time)
      (shown : Shows after event) : Effect env event time (some stored) (some after)
  | dropped (stored after : Subscription) (newest : Nat) (was : stored.lastEventAt = some newest)
      (stale : time < newest) (stamp : after.lastEventAt = some newest)
      (status : after.status = stored.status) (planId : after.planId = stored.planId) :
      Effect env event time (some stored) (some after)

section Handled
variable {env : Env} {event : Event} {time newest : Nat} {stored : Subscription}

theorem guard_cases (timed : event.eventAt = some time) (was : stored.lastEventAt = some newest) :
    (newest ≤ time ∧ current event.eventAt stored.lastEventAt = true ∧
        greatest stored.lastEventAt event.eventAt = some time) ∨
      (time < newest ∧ current event.eventAt stored.lastEventAt = false ∧
        greatest stored.lastEventAt event.eventAt = some newest) := by
  rw [timed, was]
  by_cases older : newest ≤ time
  · exact Or.inl ⟨older, decide_eq_true older, congrArg some (Nat.max_eq_right older)⟩
  · have newer : time < newest := Nat.lt_of_not_le older
    exact Or.inr ⟨newer, decide_eq_false older, congrArg some (Nat.max_eq_left (Nat.le_of_lt newer))⟩

variable {row next : Option Subscription}

theorem grantEntitlement_effect {planId : Nat}
    (grants : event.action = .grant) (plan : event.plan = .ok planId)
    (ran : grantEntitlement env event planId row = .ok next) (timed : event.eventAt = some time)
    (stamped : ∀ stored, row = some stored → ∃ newest, stored.lastEventAt = some newest) :
    Effect env event time row next := by
  unfold grantEntitlement at ran
  cases seats : enforceTeamMinSeats env planId event.seats with
  | some raised => simp [seats] at ran
  | none =>
      cases proposed : proposedRow event with
      | some raised => simp [seats, proposed] at ran
      | none =>
          simp only [seats, proposed, Except.ok.injEq] at ran
          subst ran
          have isAccepted : accepted env event = true := by
            simp [accepted, grants, plan, seats, proposed]
          have carried : ∀ other, event.givenPlan = some other → planId = other := by
            intro other given
            simpa [Event.givenPlan, grants, plan, Except.toOption] using given
          cases row with
          | none =>
              exact .inserted _ isAccepted timed ⟨by simp [Event.givenStatus, grants,
                upsertByExternalRef], carried⟩
          | some stored =>
              obtain ⟨newest, was⟩ := stamped stored rfl
              rcases guard_cases timed was with
                ⟨notOlder, isCurrent, stamp⟩ | ⟨stale, isStale, stamp⟩
              · refine .written stored _ newest was notOlder stamp ⟨?_, ?_⟩
                · simp [upsertByExternalRef, isCurrent, Event.givenStatus, grants]
                · simpa [upsertByExternalRef, isCurrent] using carried
              · exact .dropped stored _ newest was stale stamp
                  (by simp [upsertByExternalRef, isStale])
                  (by simp [upsertByExternalRef, isStale])

theorem updateEntitlement_effect {planId : Nat}
    (updates : event.action = .update) (plan : event.plan = .ok planId)
    (ran : updateEntitlement env event planId row = .ok next) (timed : event.eventAt = some time)
    (stamped : ∀ stored, row = some stored → ∃ newest, stored.lastEventAt = some newest) :
    Effect env event time row next := by
  cases row with
  | none => cases ran
  | some stored =>
      obtain ⟨newest, was⟩ := stamped stored rfl
      rcases guard_cases timed was with ⟨notOlder, isCurrent, stamp⟩ | ⟨stale, isStale, stamp⟩
      · simp only [updateEntitlement, isCurrent, if_true, Except.ok.injEq] at ran
        subst ran
        refine .written stored _ newest was notOlder stamp ⟨?_, ?_⟩
        · simp [Event.givenStatus, updates]
        · intro other given
          simpa [Event.givenPlan, updates, plan, Except.toOption] using given
      · simp only [updateEntitlement, isStale, Bool.false_eq_true, if_false, Except.ok.injEq] at ran
        subst ran
        exact .dropped stored _ newest was stale stamp rfl rfl

theorem revokeEntitlement_effect {row : Option Subscription} (revokes : event.action = .revoke)
    (timed : event.eventAt = some time)
    (stamped : ∀ stored, row = some stored → ∃ newest, stored.lastEventAt = some newest) :
    Effect env event time row (revokeEntitlement false event.eventAt row) := by
  cases row with
  | none => exact .unknown revokes
  | some stored =>
      obtain ⟨newest, was⟩ := stamped stored rfl
      rcases guard_cases timed was with ⟨notOlder, isCurrent, stamp⟩ | ⟨stale, isStale, stamp⟩
      · simp only [revokeEntitlement, isCurrent, if_true]
        refine .written stored _ newest was notOlder stamp ⟨?_, ?_⟩
        · simp [Event.givenStatus, revokes]
        · intro other given
          simp [Event.givenPlan, revokes] at given
      · simp only [revokeEntitlement, isStale]
        exact .dropped stored _ newest was stale stamp rfl rfl

theorem dispatch_effect
    (ran : dispatch env event row = .ok next) (timed : event.eventAt = some time)
    (stamped : ∀ stored, row = some stored → ∃ newest, stored.lastEventAt = some newest) :
    Effect env event time row next := by
  unfold dispatch at ran
  cases action : event.action with
  | revoke =>
      simp only [action, Except.ok.injEq] at ran
      subst ran
      exact revokeEntitlement_effect action timed stamped
  | grant =>
      cases plan : event.plan with
      | error message => simp [action, plan] at ran
      | ok planId =>
          simp only [action, plan] at ran
          exact grantEntitlement_effect action plan ran timed stamped
  | update =>
      cases plan : event.plan with
      | error message => simp [action, plan] at ran
      | ok planId =>
          simp only [action, plan] at ran
          exact updateEntitlement_effect action plan ran timed stamped

theorem enforceTeamMinSeats_permanent {planId seats : Nat} {raised : Raised}
    (refused : enforceTeamMinSeats env planId seats = some raised) : raised.permanent = true := by
  unfold enforceTeamMinSeats at refused
  split at refused
  · cases refused
    rfl
  · cases refused

theorem proposedRow_permanent {raised : Raised} (refused : proposedRow event = some raised) :
    raised.permanent = true := by
  unfold proposedRow at refused
  split at refused
  · cases refused
    rfl
  · split at refused
    · cases refused
      rfl
    · cases refused

theorem dispatch_error {row : Option Subscription} {raised : Raised}
    (ran : dispatch env event row = .error raised) :
    accepted env event = false ∧ event.action ≠ .revoke ∧
      (raised.permanent = false → event.action = .update ∧ row = none) ∧
      (raised.permanent = true → event.action = .update → event.plan.toOption = none) := by
  unfold dispatch at ran
  cases action : event.action with
  | revoke => simp [action] at ran
  | grant =>
      cases plan : event.plan with
      | error message =>
          simp only [action, plan, Except.error.injEq] at ran
          subst ran
          simp [accepted, action, plan, Raised.permanent]
      | ok planId =>
          simp only [action, plan, grantEntitlement] at ran
          cases seats : enforceTeamMinSeats env planId event.seats with
          | some raised' =>
              simp only [seats, Except.error.injEq] at ran
              subst ran
              simp [accepted, action, plan, seats, enforceTeamMinSeats_permanent seats]
          | none =>
              cases proposed : proposedRow event with
              | none => simp [seats, proposed] at ran
              | some raised' =>
                  simp only [seats, proposed, Except.error.injEq] at ran
                  subst ran
                  simp [accepted, action, plan, proposed, proposedRow_permanent proposed]
  | update =>
      cases plan : event.plan with
      | error message =>
          simp only [action, plan, Except.error.injEq] at ran
          subst ran
          simp [accepted, action, Raised.permanent, Except.toOption]
      | ok planId =>
          simp only [action, plan] at ran
          cases row with
          | none =>
              simp only [updateEntitlement, Except.error.injEq] at ran
              subst ran
              simp [accepted, action, Raised.permanent]
          | some stored =>
              simp only [updateEntitlement] at ran
              split at ran <;> cases ran

theorem dispatch_ok (ran : dispatch env event row = .ok next) :
    (event.action = .grant → accepted env event = true) ∧
      (event.action = .update → event.plan.toOption.isSome = true ∧ row.isSome = true) := by
  unfold dispatch at ran
  constructor
  · intro action
    cases plan : event.plan with
    | error message => simp [action, plan] at ran
    | ok planId =>
        simp only [action, plan, grantEntitlement] at ran
        cases seats : enforceTeamMinSeats env planId event.seats with
        | some raised => simp [seats] at ran
        | none =>
            cases proposed : proposedRow event with
            | some raised => simp [seats, proposed] at ran
            | none => simp [accepted, action, plan, seats, proposed]
  · intro action
    cases plan : event.plan with
    | error message => simp [action, plan] at ran
    | ok planId =>
        cases row with
        | none => simp [action, plan, updateEntitlement] at ran
        | some stored => exact ⟨rfl, rfl⟩

end Handled

section Delivered
variable {env : Env} {state : State} {event : Event}

theorem alreadyProcessed_setLedger (id other : String) (row : LedgerRow) :
    alreadyProcessed (state.setLedger id row) other =
      if other = id then row.processed else alreadyProcessed state other := by
  unfold alreadyProcessed State.setLedger
  by_cases same : other = id
  · subst same
    simp
  · simp [same]

theorem recordWebhookEvent_subscription (id : String) :
    (recordWebhookEvent state id).subscription = state.subscription := by
  unfold recordWebhookEvent
  split <;> rfl

theorem alreadyProcessed_record (id other : String) :
    alreadyProcessed (recordWebhookEvent state id) other = alreadyProcessed state other := by
  unfold recordWebhookEvent
  cases found : state.ledger id with
  | some row => rfl
  | none =>
      simp only [alreadyProcessed_setLedger]
      by_cases same : other = id
      · subst same
        simp [alreadyProcessed, found]
      · simp [same]

theorem step_cases (env : Env) (state : State) (event : Event) :
    (alreadyProcessed state event.id = true ∧ step env state event = state) ∨
    (alreadyProcessed state event.id = false ∧
      ((∃ next, dispatch env event state.subscription = .ok next ∧
          (step env state event).subscription = next ∧
          ∀ id, alreadyProcessed (step env state event) id =
            if id = event.id then true else alreadyProcessed state id) ∨
        ∃ raised, dispatch env event state.subscription = .error raised ∧
          (step env state event).subscription = state.subscription ∧
          ∀ id, alreadyProcessed (step env state event) id =
            if id = event.id then raised.permanent else alreadyProcessed state id)) := by
  unfold step runWebhookPipeline
  cases seen : alreadyProcessed state event.id with
  | true => exact Or.inl ⟨rfl, rfl⟩
  | false =>
      refine Or.inr ⟨rfl, ?_⟩
      simp only [Bool.false_eq_true, if_false, recordWebhookEvent_subscription]
      cases ran : dispatch env event state.subscription with
      | ok next =>
          refine Or.inl ⟨next, rfl, rfl, fun id => ?_⟩
          rw [alreadyProcessed_setLedger]
          exact if_congr Iff.rfl rfl (alreadyProcessed_record event.id id)
      | error raised =>
          refine Or.inr ⟨raised, rfl, ?_⟩
          simp only
          split
          · rename_i lasting
            refine ⟨recordWebhookEvent_subscription event.id, fun id => ?_⟩
            rw [alreadyProcessed_setLedger]
            exact if_congr Iff.rfl lasting.symm (alreadyProcessed_record event.id id)
          · rename_i retried
            refine ⟨recordWebhookEvent_subscription event.id, fun id => ?_⟩
            rw [alreadyProcessed_record]
            split
            · rename_i same
              rw [same, seen]
              simpa using retried
            · rfl

end Delivered

section Runs
variable {env : Env} {events : List Event} {event other : Event}

theorem granted_append (earlier later : List Event) :
    granted env (earlier ++ later) = (granted env earlier || granted env later) := by
  simp [granted]

theorem TakesEffect.granted (takes : TakesEffect env events event) : granted env events = true := by
  unfold TakesEffect at takes
  split at takes
  · exact List.any_eq_true.mpr ⟨event, takes.1, takes.2⟩
  · obtain ⟨-, earlier, later, rfl, before⟩ := takes
    simp [granted_append, before]
  · obtain ⟨earlier, later, rfl, -, before⟩ := takes
    simp [granted_append, before]

theorem TakesEffect.snoc (takes : TakesEffect env events event) :
    TakesEffect env (events ++ [other]) event := by
  unfold TakesEffect at takes ⊢
  split at takes
  · exact ⟨List.mem_append_left _ takes.1, takes.2⟩
  · obtain ⟨plan, earlier, later, rfl, before⟩ := takes
    exact ⟨plan, earlier, later ++ [other], by simp, before⟩
  · obtain ⟨earlier, later, rfl, first, before⟩ := takes
    exact ⟨earlier, later ++ [other], by simp, first, before⟩

theorem takesEffect_snoc (takes : TakesEffect env (events ++ [other]) event) :
    TakesEffect env events event ∨
      (event = other ∧
        match event.action with
        | .grant => accepted env event = true
        | .update => event.plan.toOption.isSome = true ∧ Entitlements.granted env events = true
        | .revoke => event ∉ events ∧ Entitlements.granted env events = true) := by
  have last : ∀ earlier later, events ++ [other] = earlier ++ event :: later →
      (event = other ∧ earlier = events) ∨ ∃ rest, events = earlier ++ event :: rest := by
    intro earlier later split
    rcases List.eq_nil_or_concat later with rfl | ⟨rest, final, rfl⟩
    · obtain ⟨same, single⟩ := List.append_inj' split rfl
      exact Or.inl ⟨(List.cons.inj single).1.symm, same.symm⟩
    · have shifted : events ++ [other] = (earlier ++ event :: rest) ++ [final] := by
        simpa using split
      exact Or.inr ⟨rest, (List.append_inj' shifted rfl).1⟩
  unfold TakesEffect at takes ⊢
  cases action : event.action with
  | grant =>
      simp only [action] at takes ⊢
      rcases List.mem_append.mp takes.1 with old | new
      · exact Or.inl ⟨old, takes.2⟩
      · exact Or.inr ⟨List.mem_singleton.mp new, takes.2⟩
  | update =>
      simp only [action] at takes ⊢
      obtain ⟨plan, earlier, later, split, before⟩ := takes
      rcases last earlier later split with ⟨same, rfl⟩ | ⟨rest, old⟩
      · exact Or.inr ⟨same, plan, before⟩
      · exact Or.inl ⟨plan, earlier, rest, old, before⟩
  | revoke =>
      simp only [action] at takes ⊢
      obtain ⟨earlier, later, split, first, before⟩ := takes
      rcases last earlier later split with ⟨same, rfl⟩ | ⟨rest, old⟩
      · exact Or.inr ⟨same, first, before⟩
      · exact Or.inl ⟨earlier, rest, old, first, before⟩

/-- How the row and the ledger follow from the deliveries. -/
structure Tracks (env : Env) (state : State) (events : List Event) : Prop where
  row : state.subscription.isSome = granted env events
  shown : ∀ stored, state.subscription = some stored →
    ∃ event ∈ events, stored.lastEventAt = event.eventAt ∧ Shows stored event
  covered : ∀ stored, state.subscription = some stored → ∀ event, TakesEffect env events event →
    ∀ time newest, event.eventAt = some time → stored.lastEventAt = some newest → time ≤ newest
  processed : ∀ id, alreadyProcessed state id = true → ∃ event ∈ events, event.id = id ∧
    (event.action = .update → event.plan.toOption.isSome = true → TakesEffect env events event)
  pending : ∀ event ∈ events, alreadyProcessed state event.id = false → event.action = .update

theorem raised_without_effect {state : State} {raised : Raised} (tracks : Tracks env state events)
    (ran : dispatch env other state.subscription = .error raised)
    (takes : TakesEffect env (events ++ [other]) event) : TakesEffect env events event := by
  obtain ⟨refused, notRevoke, retried, lasting⟩ := dispatch_error ran
  rcases takesEffect_snoc takes with old | ⟨rfl, now⟩
  · exact old
  · exfalso
    cases action : event.action with
    | grant =>
        simp only [action] at now
        simp [refused] at now
    | revoke => exact notRevoke action
    | update =>
        simp only [action] at now
        cases permanent : raised.permanent with
        | true => simp [lasting permanent action] at now
        | false =>
            have known := tracks.row
            rw [(retried permanent).2, now.2] at known
            cases known

/-- A duplicate changes nothing, and makes nothing take effect. -/
theorem Tracks.duplicate {state : State} (distinct : Distinct (events ++ [other]))
    (tracks : Tracks env state events) (seen : alreadyProcessed state other.id = true) :
    Tracks env state (events ++ [other]) := by
  have oldIn : ∀ event ∈ events, event ∈ events ++ [other] := fun _ => List.mem_append_left _
  have otherIn : other ∈ events ++ [other] := by simp
  obtain ⟨event, eventIn, sameId, updated⟩ := tracks.processed other.id seen
  have same : event = other := distinct.ids event (oldIn event eventIn) other otherIn sameId
  subst same
  have nothing : ∀ another, TakesEffect env (events ++ [event]) another →
      TakesEffect env events another := by
    intro another takes
    rcases takesEffect_snoc takes with old | ⟨rfl, now⟩
    · exact old
    · cases action : another.action with
      | grant =>
          simp only [action] at now
          simpa [TakesEffect, action] using ⟨eventIn, now⟩
      | update =>
          simp only [action] at now
          exact updated action now.1
      | revoke =>
          simp only [action] at now
          exact absurd eventIn now.1
  refine ⟨?_, ?_, ?_, ?_, ?_⟩
  · rw [tracks.row, granted_append]
    cases isAccepted : accepted env event with
    | false => simp [granted, isAccepted]
    | true =>
        have before : granted env events = true := List.any_eq_true.mpr ⟨event, eventIn, isAccepted⟩
        simp [before]
  · intro stored found
    obtain ⟨shownBy, shownIn, shown⟩ := tracks.shown stored found
    exact ⟨shownBy, oldIn shownBy shownIn, shown⟩
  · exact fun stored found another takes => tracks.covered stored found another (nothing another takes)
  · intro id processed
    obtain ⟨another, anotherIn, anotherId, took⟩ := tracks.processed id processed
    exact ⟨another, oldIn another anotherIn, anotherId,
      fun action plan => (took action plan).snoc⟩
  · intro another anotherIn notSeen
    rcases List.mem_append.mp anotherIn with old | new
    · exact tracks.pending another old notSeen
    · rw [List.mem_singleton.mp new] at notSeen
      rw [seen] at notSeen
      cases notSeen

variable {state next : State}

theorem Tracks.ledger {flag : Bool} (distinct : Distinct (events ++ [other]))
    (tracks : Tracks env state events)
    (marks : ∀ id, alreadyProcessed next id =
      if id = other.id then flag else alreadyProcessed state id)
    (took : flag = true → other.action = .update → other.plan.toOption.isSome = true →
      TakesEffect env (events ++ [other]) other)
    (waits : flag = false → other.action = .update) :
    (∀ id, alreadyProcessed next id = true → ∃ event ∈ events ++ [other], event.id = id ∧
      (event.action = .update → event.plan.toOption.isSome = true →
        TakesEffect env (events ++ [other]) event)) ∧
    ∀ event ∈ events ++ [other], alreadyProcessed next event.id = false →
      event.action = .update := by
  have otherIn : other ∈ events ++ [other] := by simp
  constructor
  · intro id processed
    rw [marks] at processed
    split at processed
    · rename_i same
      exact ⟨other, otherIn, same.symm, took processed⟩
    · obtain ⟨event, eventIn, sameId, updated⟩ := tracks.processed id processed
      exact ⟨event, List.mem_append_left _ eventIn, sameId,
        fun action plan => (updated action plan).snoc⟩
  · intro event eventIn notSeen
    rw [marks] at notSeen
    split at notSeen
    · rename_i same
      rw [distinct.ids event eventIn other otherIn same]
      exact waits notSeen
    · rename_i apart
      rcases List.mem_append.mp eventIn with old | new
      · exact tracks.pending event old notSeen
      · exact absurd (congrArg Event.id (List.mem_singleton.mp new)) apart

theorem Tracks.raised {raised : Raised}
    (distinct : Distinct (events ++ [other])) (tracks : Tracks env state events)
    (ran : dispatch env other state.subscription = .error raised)
    (subscription : next.subscription = state.subscription)
    (marks : ∀ id, alreadyProcessed next id =
      if id = other.id then raised.permanent else alreadyProcessed state id) :
    Tracks env next (events ++ [other]) := by
  obtain ⟨refused, -, retried, lasting⟩ := dispatch_error ran
  obtain ⟨processed, pending⟩ := tracks.ledger distinct marks
    (fun permanent action plan => by simp [lasting permanent action] at plan)
    (fun transient => (retried transient).1)
  refine ⟨?_, ?_, ?_, processed, pending⟩
  · rw [subscription, tracks.row, granted_append]
    simp [granted, refused]
  · intro stored found
    rw [subscription] at found
    obtain ⟨shownBy, shownIn, shown⟩ := tracks.shown stored found
    exact ⟨shownBy, List.mem_append_left _ shownIn, shown⟩
  · intro stored found event takes
    rw [subscription] at found
    exact tracks.covered stored found event (raised_without_effect tracks ran takes)

theorem Tracks.returned {time : Nat}
    (distinct : Distinct (events ++ [other])) (tracks : Tracks env state events)
    (timed : other.eventAt = some time)
    (ran : dispatch env other state.subscription = .ok next.subscription)
    (effect : Effect env other time state.subscription next.subscription)
    (marks : ∀ id, alreadyProcessed next id =
      if id = other.id then true else alreadyProcessed state id) :
    Tracks env next (events ++ [other]) := by
  have otherIn : other ∈ events ++ [other] := by simp
  have known := tracks.row
  have took : other.action = .update → other.plan.toOption.isSome = true →
      TakesEffect env (events ++ [other]) other := by
    intro action plan
    have before : granted env events = true := by rw [← known, ((dispatch_ok ran).2 action).2]
    simp only [TakesEffect, action]
    exact ⟨plan, events, [], rfl, before⟩
  obtain ⟨processed, pending⟩ := tracks.ledger distinct marks (fun _ => took)
    (fun transient => by cases transient)
  have onlyOther : ∀ event, TakesEffect env (events ++ [other]) event →
      TakesEffect env events event ∨ event = other :=
    fun event takes => (takesEffect_snoc takes).imp_right And.left
  generalize before : state.subscription = row at effect
  generalize after : next.subscription = row' at effect
  cases effect with
  | unknown revokes =>
      have isGranted : granted env (events ++ [other]) = false := by
        rw [granted_append, ← known, before]
        simp [granted, accepted, revokes]
      refine ⟨by rw [after, isGranted]; rfl, ?_, ?_, processed, pending⟩
      · intro stored found
        rw [after] at found
        cases found
      · intro stored found
        rw [after] at found
        cases found
  | inserted new grants stamp shown =>
      have none : granted env events = false := by rw [← known, before]; rfl
      refine ⟨?_, ?_, ?_, processed, pending⟩
      · rw [after, granted_append]
        simp [granted, grants]
      · intro stored found
        rw [after] at found
        cases found
        exact ⟨other, otherIn, stamp.trans timed.symm, shown⟩
      · intro stored found event takes eventTime newest isTime isNewest
        rw [after] at found
        cases found
        rcases onlyOther event takes with old | rfl
        · rw [old.granted] at none
          cases none
        · rw [timed] at isTime
          rw [stamp] at isNewest
          cases isTime
          cases isNewest
          exact Nat.le_refl _
  | written stored new newest was isCurrent stamp shown =>
      refine ⟨?_, ?_, ?_, processed, pending⟩
      · rw [after, granted_append, ← known, before]
        rfl
      · intro found' found
        rw [after] at found
        cases found
        exact ⟨other, otherIn, stamp.trans timed.symm, shown⟩
      · intro found' found event takes eventTime latest isTime isLatest
        rw [after] at found
        cases found
        rw [stamp] at isLatest
        cases isLatest
        rcases onlyOther event takes with old | rfl
        · have covered := tracks.covered stored before event old eventTime newest isTime was
          omega
        · rw [timed] at isTime
          cases isTime
          exact Nat.le_refl _
  | dropped stored new newest was stale stamp status planId =>
      refine ⟨?_, ?_, ?_, processed, pending⟩
      · rw [after, granted_append, ← known, before]
        rfl
      · intro found' found
        rw [after] at found
        cases found
        obtain ⟨shownBy, shownIn, itsTime, shown⟩ := tracks.shown stored before
        refine ⟨shownBy, List.mem_append_left _ shownIn, stamp.trans (was.symm.trans itsTime), ?_⟩
        exact ⟨status.trans shown.1, fun plan given => planId.trans (shown.2 plan given)⟩
      · intro found' found event takes eventTime latest isTime isLatest
        rw [after] at found
        cases found
        rw [stamp] at isLatest
        cases isLatest
        rcases onlyOther event takes with old | rfl
        · exact tracks.covered stored before event old eventTime newest isTime was
        · rw [timed] at isTime
          cases isTime
          omega

theorem Tracks.step {state : State} (distinct : Distinct (events ++ [other]))
    (tracks : Tracks env state events) :
    Tracks env (Entitlements.step env state other) (events ++ [other]) := by
  have otherIn : other ∈ events ++ [other] := by simp
  obtain ⟨time, timed⟩ := distinct.time otherIn
  have stamped : ∀ stored, state.subscription = some stored →
      ∃ newest, stored.lastEventAt = some newest := by
    intro stored found
    obtain ⟨event, eventIn, stamp, -⟩ := tracks.shown stored found
    obtain ⟨newest, eventTime⟩ := distinct.time (List.mem_append_left _ eventIn)
    exact ⟨newest, stamp.trans eventTime⟩
  rcases step_cases env state other with ⟨seen, same⟩ |
    ⟨-, ⟨next, ran, subscription, marks⟩ | ⟨raised, ran, subscription, marks⟩⟩
  · rw [same]
    exact tracks.duplicate distinct seen
  · rw [← subscription] at ran
    exact tracks.returned distinct timed ran (dispatch_effect ran timed stamped) marks
  · exact tracks.raised distinct ran subscription marks

theorem tracks_run (env : Env) (deliveries : List Event) (distinct : Distinct deliveries) :
    Tracks env (run (Entitlements.step env) noSubscription deliveries) deliveries := by
  induction deliveries using List.reverseRecOn with
  | nil =>
      refine ⟨rfl, ?_, ?_, ?_, ?_⟩
      · intro stored found
        cases found
      · intro stored found
        cases found
      · intro id processed
        cases processed
      · intro event eventIn
        cases eventIn
  | append_singleton earlier last ih =>
      rw [run_append]
      exact (ih (distinct.sublist fun _ => List.mem_append_left _)).step distinct

/-- In every delivery order, with any repetitions, the newest event decides the final status, and
the plan if it carries one, when it takes effect. -/
theorem newest_event_decides (env : Env) (deliveries : List Event) (newest : Event)
    (distinct : Distinct deliveries) (newestIn : newest ∈ deliveries)
    (isNewest : ∀ event ∈ deliveries, ∀ time ∈ event.eventAt, ∀ latest ∈ newest.eventAt,
      time ≤ latest)
    (takes : TakesEffect env deliveries newest) :
    ∃ row, (run (Entitlements.step env) noSubscription deliveries).subscription = some row ∧
      Shows row newest := by
  have tracks := tracks_run env deliveries distinct
  have known := tracks.row
  rw [takes.granted] at known
  obtain ⟨row, found⟩ := Option.isSome_iff_exists.mp known
  obtain ⟨event, eventIn, stamp, shown⟩ := tracks.shown row found
  obtain ⟨time, eventTime⟩ := distinct.time eventIn
  obtain ⟨latest, newestTime⟩ := distinct.time newestIn
  have upper := isNewest event eventIn time eventTime latest newestTime
  have lower := tracks.covered row found newest takes latest time newestTime
    (stamp.trans eventTime)
  have sameTime : event.eventAt = newest.eventAt := by
    rw [eventTime, newestTime]
    exact congrArg some (Nat.le_antisymm upper lower)
  rw [distinct.times event eventIn newest newestIn sameTime] at shown
  exact ⟨row, found, shown⟩

end Runs

def proPlan : Env :=
  { externalRef := "sub_1", planSlug := fun planId => if planId = 7 then some "pro" else none
    teamPlanSlug := "team", teamMinSeats := 3 }

def bought : Event :=
  { id := "evt_1", action := .grant, eventAt := some 10, plan := .ok 7, status := .active, seats := 1
    buyerEmail := some "anna@example.com", cancelAtPeriodEnd := none }

def renewed : Event := { bought with id := "evt_2", action := .update, eventAt := some 20 }

def ended : Event :=
  { bought with id := "evt_3", action := .revoke, eventAt := some 30, plan := .error "no product" }

def overtaken : List Event := [bought, ended, renewed, ended, bought, renewed]

theorem overtaken_distinct : Distinct overtaken :=
  ⟨by decide, by decide, by decide⟩

theorem overtaken_ends_cancelled :
    ∃ row, (run (Entitlements.step proPlan) noSubscription overtaken).subscription = some row ∧
      Shows row ended :=
  newest_event_decides proPlan overtaken ended overtaken_distinct (by decide) (by decide)
    ⟨[bought], [renewed, ended, bought, renewed], rfl, by decide, by decide⟩

/-- The event is the newest one of the run, and the row of the run does not show it. -/
def Misses (events : List Event) (event : Event) : Prop :=
  Distinct events ∧
    (∀ other ∈ events, ∀ time ∈ other.eventAt, ∀ latest ∈ event.eventAt, time ≤ latest) ∧
    ¬ ∃ row, (run (Entitlements.step proPlan) noSubscription events).subscription = some row ∧
      Shows row event

theorem misses_of_status {events : List Event} {event : Event} {status : Status}
    (distinct : Distinct events)
    (isNewest : ∀ other ∈ events, ∀ time ∈ other.eventAt, ∀ latest ∈ event.eventAt, time ≤ latest)
    (ends : (run (Entitlements.step proPlan) noSubscription events).subscription.map (·.status) =
      some status) (differs : status ≠ event.givenStatus) : Misses events event := by
  refine ⟨distinct, isNewest, ?_⟩
  rintro ⟨row, found, shown, -⟩
  rw [found, Option.map_some, Option.some.injEq, shown] at ends
  exact differs ends.symm

/-- An update delivered before its grant is refused and a revoke is acknowledged without
effect: the older grant stays. -/
theorem early_event_lost :
    Misses [{ renewed with status := .pastDue }, bought] { renewed with status := .pastDue } ∧
      Misses [ended, bought, ended] ended :=
  ⟨@misses_of_status _ _ .active ⟨by decide, by decide, by decide⟩ (by decide)
      (by decide +kernel) (by decide),
    @misses_of_status _ _ .active ⟨by decide, by decide, by decide⟩ (by decide)
      (by decide +kernel) (by decide)⟩

theorem older_step {env : Env} {state : State} {row : Subscription} {event : Event}
    {newest time : Nat} (found : state.subscription = some row)
    (was : row.lastEventAt = some newest) (timed : event.eventAt = some time)
    (older : time < newest) :
    ∃ after, (step env state event).subscription = some after ∧ after.lastEventAt = some newest ∧
      after.status = row.status ∧ after.planId = row.planId := by
  rcases step_cases env state event with ⟨-, same⟩ |
    ⟨-, ⟨next, ran, subscription, -⟩ | ⟨raised, ran, subscription, -⟩⟩
  · exact ⟨row, by rw [same, found], was, rfl, rfl⟩
  · have stamped : ∀ stored, state.subscription = some stored →
        ∃ latest, stored.lastEventAt = some latest := by
      intro stored isStored
      rw [found, Option.some.injEq] at isStored
      exact ⟨newest, isStored ▸ was⟩
    have effect := dispatch_effect ran timed stamped
    rw [found] at effect
    cases effect with
    | written _ after latest isLatest current =>
        rw [was, Option.some.injEq] at isLatest
        omega
    | dropped _ after latest isLatest stale stamp status planId =>
        exact ⟨after, subscription, stamp.trans (isLatest.symm.trans was), status, planId⟩
  · exact ⟨row, subscription.trans found, was, rfl, rfl⟩

/-- However many older events are delivered, in whatever order, the entitlement stays. -/
theorem older_events_ignored (env : Env) (start : State) (row : Subscription) (newest : Nat)
    (found : start.subscription = some row) (was : row.lastEventAt = some newest)
    (deliveries : List Event)
    (older : ∀ event ∈ deliveries, ∃ time, event.eventAt = some time ∧ time < newest) :
    ∃ after, (run (step env) start deliveries).subscription = some after ∧
      after.lastEventAt = some newest ∧ after.status = row.status ∧ after.planId = row.planId := by
  induction deliveries generalizing start row with
  | nil => exact ⟨row, found, was, rfl, rfl⟩
  | cons event rest ih =>
      obtain ⟨time, timed, before⟩ := older event List.mem_cons_self
      obtain ⟨after, isAfter, stamp, status, planId⟩ := older_step found was timed before
      obtain ⟨last, isLast, lastStamp, lastStatus, lastPlan⟩ := ih _ after isAfter stamp
        fun other member => older other (List.mem_cons_of_mem _ member)
      exact ⟨last, isLast, lastStamp, lastStatus.trans status, lastPlan.trans planId⟩

theorem ended_stays_cancelled :
    ∃ after, (run (step proPlan) (run (step proPlan) noSubscription [bought, ended])
        [renewed, bought, renewed]).subscription = some after ∧ after.lastEventAt = some 30 ∧
      after.status = .cancelled ∧ after.planId = 7 :=
  older_events_ignored proPlan (run (step proPlan) noSubscription [bought, ended])
    ⟨.cancelled, 7, 1, some "anna@example.com", false, some 30⟩ 30 rfl rfl
    [renewed, bought, renewed] (by decide)

end OdooSemantic.Billing.Entitlements
