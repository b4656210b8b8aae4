import OdooSemantic.Billing.Effects

/-!
# Webhook deliveries

A worker receives a delivery, records it in the ledger of events, judges it, dispatches it and
marks it processed; the ledger is written by commits of their own, so that a worker may die
between any two of them.  The log says what workers made of their deliveries.
-/

set_option autoImplicit false

namespace OdooSemantic.Billing.Webhooks

open Billing.Entitlements (Status Raised EventAction)
open Billing.Activation
open Lib.Run

/-- The headers the adapter names and the raw body. -/
structure Request where
  msgId : String
  timestamp : String
  signature : String
  body : String

/-- `WebhookAdapter` of one vendor; `loads` is `json.loads`, whose value may be no object. -/
structure Adapter (Payload Data : Type) where
  vendor : Source
  secret : Option String
  toleranceSeconds : Nat
  verify : String → Request → Nat → Nat → Bool
  loads : String → Option (Option Payload)
  idOf : Payload → String
  withId : Payload → String → Payload
  dataOf : Payload → Data
  parseEvent : Payload → Except String (String × String × String)
  eventAction : String → Option EventAction
  watchedEventPrefixes : List String
  extractEmail : Data → Option String
  mapStatus : Payload → Status
  extractCancelAtPeriodEnd : Data → Option Bool
  extractInterval : Data → Option String
  normalizeInterval : Option String → Option String
  extractSeats : Data → Nat
  seatsPositive : ∀ data, 0 < extractSeats data
  extractAmount : Data → Option Nat
  extractCurrency : Data → Option String
  extractPeriod : Data → Option Nat × Option Nat × Option Nat
  extractEventAt : Request → Payload → Option Nat

structure Delivery (Payload : Type) where
  request : Request
  receivedAt : Nat
  signatureValid : Bool
  rawPayload : Payload
  eventId : String
  eventType : String
  externalRef : String

inductive Response where
  | rateLimited
  | notConfigured
  | invalidJson
  | invalidEnvelope
  | missingEventId
  | parseError (detail : String)
  | invalidSignature
  | duplicate
  | ignored (eventType : String)
  | configError (detail : String)
  | permanentError
  | retry
  | raised
  | ok (action : EventAction)

def Response.statusCode : Response → Nat
  | .rateLimited => 429
  | .notConfigured => 503
  | .invalidJson | .invalidEnvelope | .missingEventId | .parseError _ | .invalidSignature => 400
  | .duplicate | .ignored _ | .configError _ | .permanentError | .ok _ => 200
  | .retry => 503
  | .raised => 500

section Receive
variable {Payload Data : Type} (adapter : Adapter Payload Data)

/-- `verify_fn` under the secret, if there is one. -/
def verified (request : Request) (receivedAt : Nat) : Bool :=
  adapter.secret.any fun secret =>
    secret != "" && adapter.verify secret request adapter.toleranceSeconds receivedAt

/-- The steps before the ledger; `allowed` is what the rate limit of the vendor says. -/
def receive (request : Request) (allowed : Bool) (now : Nat) :
    Except Response (Delivery Payload) :=
  if !allowed then .error .rateLimited
  else if !adapter.secret.any (· != "") then .error .notConfigured
  else
    match adapter.loads request.body with
    | none => .error .invalidJson
    | some none => .error .invalidEnvelope
    | some (some rawPayload) =>
        let eventId := if request.msgId != "" then request.msgId else adapter.idOf rawPayload
        if eventId = "" then .error .missingEventId
        else
          match adapter.parseEvent (adapter.withId rawPayload eventId) with
          | .error detail => .error (.parseError detail)
          | .ok (_, eventType, externalRef) =>
              .ok
                { request
                  receivedAt := now
                  signatureValid := verified adapter request now
                  rawPayload
                  eventId
                  eventType
                  externalRef }

end Receive

/-- A row of `billing_webhook_events`; `processed` is whether `processed_at` is set. -/
structure LedgerRow (Payload : Type) where
  eventType : String
  signatureValid : Bool
  payload : Payload
  processed : Bool
  subscriptionId : Option Nat
  processingError : Option String

/-- What a mark is written for, and the answer that follows it. -/
structure Mark where
  subscriptionId : Option Nat
  error : Option String
  response : Response

inductive Phase (Payload : Type) where
  | idle
  | recorded (delivery : Delivery Payload) (alreadyProcessed : Bool)
  | dispatching (delivery : Delivery Payload) (action : EventAction) (planId : Option Nat)
  | marking (delivery : Delivery Payload) (mark : Mark)

/-- What a dispatch came to. -/
inductive Ended where
  | completed
  | permanent (raised : Raised)
  | transient

/-- What a worker made of a delivery. -/
inductive Verdict where
  | badSignature
  | duplicate
  | unmapped
  | planError (detail : String)
  | dispatched (ended : Ended)

structure Entry (Payload : Type) where
  delivery : Delivery Payload
  verdict : Verdict

/-- The ledger of the vendor by event id, the workers, and the log, newest first. -/
structure State (Payload : Type) where
  store : Store
  ledger : String → Option (LedgerRow Payload)
  phases : Nat → Phase Payload
  log : List (Entry Payload)

/-- `resolve_plan_fn`: a `ValueError` is a configuration error, anything else goes up. -/
inductive PlanAnswer where
  | resolved (planId : Nat)
  | valueError (detail : String)
  | raised

/-- What a dispatch reads besides the store; with `failed` a statement raised that is not
permanent, or the worker died on the way, and the store is what was committed by then. -/
structure Answers where
  verifiedUser : Option Nat
  choice : RowChoice
  now : Nat
  failed : Option Store

namespace State

variable {Payload : Type}

def goto (state : State Payload) (worker : Nat) (phase : Phase Payload) : State Payload :=
  { state with phases := Function.update state.phases worker phase }

def note (state : State Payload) (delivery : Delivery Payload) (verdict : Verdict) :
    State Payload :=
  { state with log := ⟨delivery, verdict⟩ :: state.log }

/-- `record_webhook_event`: a row that is there stays as it is. -/
def record (state : State Payload) (delivery : Delivery Payload) (payload : Payload) :
    State Payload :=
  match state.ledger delivery.eventId with
  | some _ => state
  | none =>
      { state with
        ledger := Function.update state.ledger delivery.eventId (some
          { eventType := delivery.eventType
            signatureValid := delivery.signatureValid
            payload
            processed := false
            subscriptionId := none
            processingError := none }) }

def alreadyProcessed (state : State Payload) (eventId : String) : Bool :=
  (state.ledger eventId).any LedgerRow.processed

def markEventProcessed (state : State Payload) (eventId : String) (mark : Mark) :
    State Payload :=
  { state with
    ledger := Function.update state.ledger eventId ((state.ledger eventId).map fun row =>
      { row with
        processed := true
        subscriptionId := mark.subscriptionId
        processingError := mark.error }) }

end State

section Dispatch
variable {Payload Data : Type} (adapter : Adapter Payload Data) (settings : Settings)

def grantOf (delivery : Delivery Payload) (planId : Nat) : EntitlementGrant :=
  let data := adapter.dataOf delivery.rawPayload
  let period := adapter.extractPeriod data
  { planId
    externalRef := delivery.externalRef
    source := adapter.vendor
    seats := adapter.extractSeats data
    buyerEmail := adapter.extractEmail data
    snapshot :=
      { amountCents := adapter.extractAmount data
        currency := adapter.extractCurrency data
        billingInterval := adapter.normalizeInterval (adapter.extractInterval data)
        currentPeriodStart := period.1
        currentPeriodEnd := period.2.1
        trialEndsAt := period.2.2 } }

def eventAt (delivery : Delivery Payload) : Option Nat :=
  adapter.extractEventAt delivery.request (adapter.withId delivery.rawPayload delivery.eventId)

theorem extractSeats_given (data : Data) (count : Nat)
    (given : some (adapter.extractSeats data) = some count) : 0 < count := by
  cases given
  exact adapter.seatsPositive data

def updateOf (delivery : Delivery Payload) (planId : Option Nat) : EntitlementUpdate :=
  let data := adapter.dataOf delivery.rawPayload
  let period := adapter.extractPeriod data
  { planId
    status := some (adapter.mapStatus delivery.rawPayload)
    seats := some (adapter.extractSeats data)
    currentPeriodStart := period.1
    currentPeriodEnd := period.2.1
    trialEndsAt := period.2.2
    cancelAtPeriodEnd := adapter.extractCancelAtPeriodEnd data
    lastEventAt := eventAt adapter delivery
    seatsPositive := extractSeats_given adapter data }

def handle (store : Store) (delivery : Delivery Payload) (action : EventAction)
    (planId : Option Nat) (answers : Answers) : Outcome × Option Nat :=
  match action with
  | .grant =>
      let grant := grantOf adapter delivery (planId.getD 0)
      (grantEntitlement settings store grant (eventAt adapter delivery) answers.verifiedUser,
        some ((store.conflicting grant.source grant.externalRef).getD store.nextSub))
  | .update =>
      (updateEntitlement settings store answers.choice delivery.externalRef
        (updateOf adapter delivery planId),
        store.getByExternalRef answers.choice delivery.externalRef)
  | .revoke =>
      (revokeEntitlement settings store answers.choice delivery.externalRef false
        (eventAt adapter delivery) answers.now,
        store.getByExternalRef answers.choice delivery.externalRef)

def errorSubscription (action : EventAction) (found : Option Nat) : Option Nat :=
  match action with
  | .revoke => found
  | .grant | .update => none

def dispatch (state : State Payload) (worker : Nat) (delivery : Delivery Payload)
    (action : EventAction) (planId : Option Nat) (answers : Answers) : State Payload :=
  match answers.failed with
  | some store =>
      ({ state with store }.note delivery (.dispatched .transient)).goto worker .idle
  | none =>
      let (outcome, found) := handle adapter settings state.store delivery action planId answers
      let state := { state with store := outcome.store }
      match outcome.raised with
      | none =>
          (state.note delivery (.dispatched .completed)).goto worker
            (.marking delivery ⟨found, none, .ok action⟩)
      | some raised =>
          if raised.permanent then
            (state.note delivery (.dispatched (.permanent raised))).goto worker
              (.marking delivery
                ⟨errorSubscription action found, some raised.text, .permanentError⟩)
          else (state.note delivery (.dispatched .transient)).goto worker .idle

def unmappedError (eventType : String) : Option String :=
  if adapter.watchedEventPrefixes.any (eventType.startsWith ·) then
    some ("unmapped event_type='" ++ eventType ++ "'")
  else none

/-- From the ledger to the dispatch: signature, duplicate, action and plan. -/
def judge (state : State Payload) (worker : Nat) (delivery : Delivery Payload)
    (alreadyProcessed : Bool) (plan : PlanAnswer) : State Payload :=
  if !delivery.signatureValid then (state.note delivery .badSignature).goto worker .idle
  else if alreadyProcessed then (state.note delivery .duplicate).goto worker .idle
  else
    match adapter.eventAction delivery.eventType with
    | none =>
        (state.note delivery .unmapped).goto worker (.marking delivery
          ⟨none, unmappedError adapter delivery.eventType, .ignored delivery.eventType⟩)
    | some .revoke => state.goto worker (.dispatching delivery .revoke none)
    | some action =>
        match plan with
        | .resolved planId => state.goto worker (.dispatching delivery action (some planId))
        | .valueError detail =>
            (state.note delivery (.planError detail)).goto worker
              (.marking delivery ⟨none, some detail, .configError detail⟩)
        | .raised => state.goto worker .idle

inductive Event where
  | deliver (worker : Nat) (request : Request) (allowed : Bool) (now : Nat)
  | judge (worker : Nat) (plan : PlanAnswer)
  | dispatch (worker : Nat) (answers : Answers)
  | mark (worker : Nat)
  | crash (worker : Nat)

def Event.worker : Event → Nat
  | .deliver worker _ _ _ | .judge worker _ | .dispatch worker _ | .mark worker
  | .crash worker => worker

/-- A statement that raises outside the dispatch ends the request, as a crash does. -/
def step (state : State Payload) : Event → State Payload
  | .deliver worker request allowed now =>
      match state.phases worker, receive adapter request allowed now with
      | .idle, .ok delivery =>
          (state.record delivery (adapter.withId delivery.rawPayload delivery.eventId)).goto
            worker (.recorded delivery (state.alreadyProcessed delivery.eventId))
      | _, _ => state
  | .judge worker plan =>
      match state.phases worker with
      | .recorded delivery alreadyProcessed =>
          judge adapter state worker delivery alreadyProcessed plan
      | _ => state
  | .dispatch worker answers =>
      match state.phases worker with
      | .dispatching delivery action planId =>
          dispatch adapter settings state worker delivery action planId answers
      | _ => state
  | .mark worker =>
      match state.phases worker with
      | .marking delivery mark =>
          (state.markEventProcessed delivery.eventId mark).goto worker .idle
      | _ => state
  | .crash worker => state.goto worker .idle

end Dispatch

end OdooSemantic.Billing.Webhooks
