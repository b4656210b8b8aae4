import OdooSemantic.Billing.Webhooks

/-!
# Redelivered events

A row of the ledger is processed only when the log has an authentic delivery of its event that
came to a final verdict, whatever forged deliveries and crashes came in between; an event whose
row is not processed is attended again when it is delivered again.
-/

set_option autoImplicit false

namespace OdooSemantic.Billing.Webhooks

open Billing.Entitlements (Raised EventAction)
open Billing.Activation
open Lib.Run

def Verdict.final : Verdict → Bool
  | .unmapped | .planError _ | .dispatched .completed | .dispatched (.permanent _) => true
  | .badSignature | .duplicate | .dispatched .transient => false

section Accounts
variable {Payload Data : Type} (adapter : Adapter Payload Data)

def Delivery.Authentic (delivery : Delivery Payload) : Prop :=
  verified adapter delivery.request delivery.receivedAt = true

/-- An authentic delivery of the event came to a final verdict. -/
def Settled (log : List (Entry Payload)) (eventId : String) : Prop :=
  ∃ entry ∈ log, entry.delivery.eventId = eventId ∧ entry.delivery.Authentic adapter ∧
    entry.verdict.final = true

def Justified (earlier : List (Entry Payload)) (delivery : Delivery Payload) : Verdict → Prop
  | .badSignature => ¬ delivery.Authentic adapter
  | .duplicate => delivery.Authentic adapter ∧ Settled adapter earlier delivery.eventId
  | .unmapped => delivery.Authentic adapter ∧ adapter.eventAction delivery.eventType = none
  | .planError _ =>
      delivery.Authentic adapter ∧
        ∃ action ≠ EventAction.revoke, adapter.eventAction delivery.eventType = some action
  | .dispatched ended =>
      delivery.Authentic adapter ∧
        (∃ action, adapter.eventAction delivery.eventType = some action) ∧
        ∀ raised, ended = .permanent raised → raised.permanent = true

def LogJustified : List (Entry Payload) → Prop
  | [] => True
  | entry :: earlier =>
      Justified adapter earlier entry.delivery entry.verdict ∧ LogJustified earlier

theorem LogJustified.entry {later earlier : List (Entry Payload)} {entry : Entry Payload}
    (justified : LogJustified adapter (later ++ entry :: earlier)) :
    Justified adapter earlier entry.delivery entry.verdict := by
  induction later with
  | nil => exact justified.1
  | cons first rest ih => exact ih justified.2

variable {log : List (Entry Payload)} {delivery : Delivery Payload} {phase : Phase Payload}
variable {worker : Nat} {state : State Payload} {request : Request} {now : Nat}

theorem Settled.cons {eventId : String} (entry : Entry Payload)
    (settled : Settled adapter log eventId) : Settled adapter (entry :: log) eventId := by
  obtain ⟨cause, listed, same, authentic, final⟩ := settled
  exact ⟨cause, List.mem_cons_of_mem entry listed, same, authentic, final⟩

theorem Settled.first
    {verdict : Verdict} (authentic : delivery.Authentic adapter)
    (final : verdict.final = true) : Settled adapter (⟨delivery, verdict⟩ :: log) delivery.eventId :=
  ⟨⟨delivery, verdict⟩, List.mem_cons_self, rfl, authentic, final⟩

def PhaseOk (log : List (Entry Payload)) : Phase Payload → Prop
  | .idle => True
  | .recorded delivery alreadyProcessed =>
      delivery.signatureValid = verified adapter delivery.request delivery.receivedAt ∧
        (alreadyProcessed = true → Settled adapter log delivery.eventId)
  | .dispatching delivery action _ =>
      delivery.Authentic adapter ∧ adapter.eventAction delivery.eventType = some action
  | .marking delivery _ => Settled adapter log delivery.eventId

theorem PhaseOk.cons (entry : Entry Payload)
    (ok : PhaseOk adapter log phase) : PhaseOk adapter (entry :: log) phase := by
  cases phase with
  | idle => trivial
  | recorded delivery alreadyProcessed =>
      exact ⟨ok.1, fun already => (ok.2 already).cons adapter entry⟩
  | dispatching => exact ok
  | marking => exact Settled.cons adapter entry ok

structure Inv (state : State Payload) : Prop where
  processed : ∀ eventId, state.alreadyProcessed eventId = true →
    Settled adapter state.log eventId
  log : LogJustified adapter state.log
  phases : ∀ worker, PhaseOk adapter state.log (state.phases worker)

/-! ## What a step of one worker does -/

structure Moves (worker : Nat) (before after : State Payload) : Prop where
  log : after.log = before.log ∨
    ∃ entry, after.log = entry :: before.log ∧
      Justified adapter before.log entry.delivery entry.verdict
  processed : ∀ eventId, after.alreadyProcessed eventId = true →
    before.alreadyProcessed eventId = true ∨ Settled adapter after.log eventId
  store : after.store = before.store ∨
    ∃ delivery ended, after.log = ⟨delivery, .dispatched ended⟩ :: before.log
  others : ∀ other, other ≠ worker → after.phases other = before.phases other
  own : PhaseOk adapter after.log (after.phases worker)

theorem Moves.inv {before after : State Payload} (inv : Inv adapter before)
    (moves : Moves adapter worker before after) : Inv adapter after := by
  have keeps : ∀ eventId, Settled adapter before.log eventId →
      Settled adapter after.log eventId := by
    intro eventId settled
    obtain same | ⟨entry, appended, -⟩ := moves.log
    · rwa [same]
    · rw [appended]
      exact settled.cons adapter entry
  refine ⟨?_, ?_, ?_⟩
  · intro eventId already
    obtain earlier | settled := moves.processed eventId already
    · exact keeps eventId (inv.processed eventId earlier)
    · exact settled
  · obtain same | ⟨entry, appended, justified⟩ := moves.log
    · rw [same]
      exact inv.log
    · rw [appended]
      exact ⟨justified, inv.log⟩
  · intro other
    by_cases mine : other = worker
    · rw [mine]
      exact moves.own
    · rw [moves.others other mine]
      obtain same | ⟨entry, appended, -⟩ := moves.log
      · rw [same]
        exact inv.phases other
      · rw [appended]
        exact (inv.phases other).cons adapter entry

theorem goto_own (state : State Payload) (worker : Nat) (phase : Phase Payload) :
    (state.goto worker phase).phases worker = phase :=
  Function.update_self ..

theorem goto_other (state : State Payload) {worker other : Nat} (phase : Phase Payload)
    (distinct : other ≠ worker) :
    (state.goto worker phase).phases other = state.phases other :=
  Function.update_of_ne distinct ..

theorem Moves.stays (inv : Inv adapter state) :
    Moves adapter worker state state where
  log := .inl rfl
  processed := fun _ => Or.inl
  store := .inl rfl
  others := fun _ _ => rfl
  own := inv.phases worker

theorem Moves.goes
    (ok : PhaseOk adapter state.log phase) :
    Moves adapter worker state (state.goto worker phase) where
  log := .inl rfl
  processed := fun _ => Or.inl
  store := .inl rfl
  others := fun _ => goto_other state phase
  own := by
    rw [goto_own]
    exact ok

theorem Moves.notes
    {verdict : Verdict}
    (justified : Justified adapter state.log delivery verdict)
    (ok : PhaseOk adapter (⟨delivery, verdict⟩ :: state.log) phase) :
    Moves adapter worker state ((state.note delivery verdict).goto worker phase) where
  log := .inr ⟨⟨delivery, verdict⟩, rfl, justified⟩
  processed := fun _ => Or.inl
  store := .inl rfl
  others := fun _ => goto_other (state.note delivery verdict) phase
  own := by
    rw [goto_own]
    exact ok

theorem Moves.dispatches
    {ended : Ended} (store : Store)
    (justified : Justified adapter state.log delivery (.dispatched ended))
    (ok : PhaseOk adapter (⟨delivery, .dispatched ended⟩ :: state.log) phase) :
    Moves adapter worker state
      (({ state with store }.note delivery (.dispatched ended)).goto worker phase) where
  log := .inr ⟨⟨delivery, .dispatched ended⟩, rfl, justified⟩
  processed := fun _ => Or.inl
  store := .inr ⟨delivery, ended, rfl⟩
  others := fun _ => goto_other ({ state with store }.note delivery (.dispatched ended)) phase
  own := by
    rw [goto_own]
    exact ok

theorem record_alreadyProcessed (state : State Payload) (delivery : Delivery Payload)
    (payload : Payload) (eventId : String) :
    (state.record delivery payload).alreadyProcessed eventId =
      state.alreadyProcessed eventId := by
  cases row : state.ledger delivery.eventId with
  | some stored => simp only [State.record, row]
  | none =>
      simp only [State.record, row, State.alreadyProcessed]
      by_cases same : eventId = delivery.eventId
      · rw [same, Function.update_self, row]
        rfl
      · rw [Function.update_of_ne same]

theorem record_log (state : State Payload) (delivery : Delivery Payload) (payload : Payload) :
    (state.record delivery payload).log = state.log := by
  cases row : state.ledger delivery.eventId with
  | some stored | none => simp only [State.record, row]

theorem record_store (state : State Payload) (delivery : Delivery Payload) (payload : Payload) :
    (state.record delivery payload).store = state.store := by
  cases row : state.ledger delivery.eventId with
  | some stored | none => simp only [State.record, row]

theorem record_phases (state : State Payload) (delivery : Delivery Payload) (payload : Payload) :
    (state.record delivery payload).phases = state.phases := by
  cases row : state.ledger delivery.eventId with
  | some stored | none => simp only [State.record, row]

theorem mark_alreadyProcessed {marked eventId : String} {mark : Mark}
    (already : (state.markEventProcessed marked mark).alreadyProcessed eventId = true) :
    state.alreadyProcessed eventId = true ∨ eventId = marked := by
  by_cases same : eventId = marked
  · exact .inr same
  · simp only [State.alreadyProcessed, State.markEventProcessed,
      Function.update_of_ne same] at already
    exact .inl already

theorem receive_signature {allowed : Bool}
    (received : receive adapter request allowed now = .ok delivery) :
    delivery.signatureValid = verified adapter delivery.request delivery.receivedAt := by
  simp only [receive] at received
  split at received
  · cases received
  · split at received
    · cases received
    · split at received
      · cases received
      · cases received
      · next rawPayload _ =>
          generalize (if request.msgId != "" then request.msgId
            else adapter.idOf rawPayload) = eventId at received
          split at received
          · cases received
          · split at received
            · cases received
            · cases received
              rfl

theorem deliver_moves (inv : Inv adapter state) (worker : Nat)
    (payload : Payload)
    (signature : delivery.signatureValid =
      verified adapter delivery.request delivery.receivedAt) :
    Moves adapter worker state
      ((state.record delivery payload).goto worker
        (.recorded delivery (state.alreadyProcessed delivery.eventId))) where
  log := .inl (record_log state delivery payload)
  processed := by
    intro eventId already
    rw [← record_alreadyProcessed state delivery payload eventId]
    exact .inl already
  store := .inl (record_store state delivery payload)
  others := by
    intro other distinct
    rw [goto_other _ _ distinct, record_phases]
  own := by
    rw [goto_own]
    refine ⟨signature, fun already => ?_⟩
    have settled := inv.processed delivery.eventId already
    rwa [← record_log state delivery payload] at settled

theorem judge_moves (state : State Payload) (worker : Nat)
    {alreadyProcessed : Bool} (plan : PlanAnswer)
    (ok : PhaseOk adapter state.log (.recorded delivery alreadyProcessed)) :
    Moves adapter worker state
      (judge adapter state worker delivery alreadyProcessed plan) := by
  obtain ⟨signature, processed⟩ := ok
  simp only [judge]
  cases valid : delivery.signatureValid with
  | false =>
      have forged : ¬ delivery.Authentic adapter := by
        rw [Delivery.Authentic, ← signature, valid]
        exact Bool.false_ne_true
      exact Moves.notes adapter forged trivial
  | true =>
      have authentic : delivery.Authentic adapter := signature.symm.trans valid
      cases alreadyProcessed with
      | true => exact Moves.notes adapter ⟨authentic, processed rfl⟩ trivial
      | false =>
          cases mapped : adapter.eventAction delivery.eventType with
          | none =>
              exact Moves.notes adapter ⟨authentic, mapped⟩ (Settled.first adapter authentic rfl)
          | some action =>
              cases action with
              | revoke => exact Moves.goes adapter ⟨authentic, mapped⟩
              | grant | update =>
                  cases plan with
                  | resolved planId => exact Moves.goes adapter ⟨authentic, mapped⟩
                  | raised => exact Moves.goes adapter trivial
                  | valueError detail =>
                      refine Moves.notes adapter ⟨authentic, _, ?_, mapped⟩
                        (Settled.first adapter authentic rfl)
                      decide

theorem dispatch_moves (settings : Settings) (state : State Payload) (worker : Nat)
    {action : EventAction} (planId : Option Nat)
    (answers : Answers) (authentic : delivery.Authentic adapter)
    (mapped : adapter.eventAction delivery.eventType = some action) :
    Moves adapter worker state
      (dispatch adapter settings state worker delivery action planId answers) := by
  have justified : ∀ ended, (∀ raised, ended = .permanent raised → raised.permanent = true) →
      Justified adapter state.log delivery (.dispatched ended) :=
    fun ended permanent => ⟨authentic, ⟨action, mapped⟩, permanent⟩
  cases failure : answers.failed with
  | some store =>
      simp only [dispatch, failure]
      exact Moves.dispatches adapter store (justified .transient nofun) trivial
  | none =>
      simp only [dispatch, failure]
      obtain ⟨outcome, found⟩ := handle adapter settings state.store delivery action planId answers
      cases ended : outcome.raised with
      | none =>
          simp only
          exact Moves.dispatches adapter outcome.store (justified .completed nofun)
            (Settled.first adapter authentic rfl)
      | some raised =>
          simp only
          by_cases poison : raised.permanent = true
          · rw [if_pos poison]
            refine Moves.dispatches adapter outcome.store (justified (.permanent raised) ?_)
              (Settled.first adapter authentic rfl)
            intro other same
            cases same
            exact poison
          · rw [if_neg poison]
            exact Moves.dispatches adapter outcome.store (justified .transient nofun) trivial

theorem mark_moves (worker : Nat)
    {mark : Mark} (settled : Settled adapter state.log delivery.eventId) :
    Moves adapter worker state
      ((state.markEventProcessed delivery.eventId mark).goto worker .idle) where
  log := .inl rfl
  processed := by
    intro eventId already
    obtain earlier | same := mark_alreadyProcessed already
    · exact .inl earlier
    · rw [same]
      exact .inr settled
  store := .inl rfl
  others := fun _ => goto_other (state.markEventProcessed delivery.eventId mark) .idle
  own := by
    rw [goto_own]
    trivial

theorem step_moves (settings : Settings) (inv : Inv adapter state)
    (event : Event) :
    Moves adapter event.worker state (step adapter settings state event) := by
  cases event with
  | deliver worker request allowed now =>
      cases phase : state.phases worker with
      | idle =>
          cases received : receive adapter request allowed now with
          | error response =>
              simp only [step, phase, received]
              exact Moves.stays adapter inv
          | ok delivery =>
              simp only [step, phase, received]
              exact deliver_moves adapter inv worker _ (receive_signature adapter received)
      | recorded | dispatching | marking =>
          simp only [step, phase]
          exact Moves.stays adapter inv
  | judge worker plan =>
      have known := inv.phases worker
      cases phase : state.phases worker with
      | recorded delivery alreadyProcessed =>
          rw [phase] at known
          simp only [step, phase]
          exact judge_moves adapter state worker plan known
      | idle | dispatching | marking =>
          simp only [step, phase]
          exact Moves.stays adapter inv
  | dispatch worker answers =>
      have known := inv.phases worker
      cases phase : state.phases worker with
      | dispatching delivery action planId =>
          rw [phase] at known
          simp only [step, phase]
          exact dispatch_moves adapter settings state worker planId answers known.1 known.2
      | idle | recorded | marking =>
          simp only [step, phase]
          exact Moves.stays adapter inv
  | mark worker =>
      have known := inv.phases worker
      cases phase : state.phases worker with
      | marking delivery mark =>
          rw [phase] at known
          simp only [step, phase]
          exact mark_moves adapter worker known
      | idle | recorded | dispatching =>
          simp only [step, phase]
          exact Moves.stays adapter inv
  | crash worker => exact Moves.goes adapter trivial

theorem step_inv (settings : Settings) (state : State Payload) (event : Event)
    (inv : Inv adapter state) : Inv adapter (step adapter settings state event) :=
  (step_moves adapter settings inv event).inv adapter inv

/-- Nothing has been delivered yet. -/
def start (store : Store) : State Payload := ⟨store, fun _ => none, fun _ => .idle, []⟩

theorem start_inv (store : Store) : Inv adapter (start store) where
  processed := by
    intro eventId already
    cases already
  log := trivial
  phases := fun _ => trivial

theorem run_inv (settings : Settings) (inv : Inv adapter state)
    (events : List Event) : Inv adapter (run (step adapter settings) state events) :=
  run_preserves (step adapter settings) (Inv adapter) (step_inv adapter settings) state inv events

theorem run_keeps_phase (settings : Settings) (events : List Event)
    (inv : Inv adapter state)
    (others : ∀ event ∈ events, event.worker ≠ worker) :
    (run (step adapter settings) state events).phases worker = state.phases worker := by
  induction events generalizing state with
  | nil => rfl
  | cons event rest ih =>
      have first := others event List.mem_cons_self
      rw [run_cons, ih (step_inv adapter settings state event inv)
        fun later listed => others later (List.mem_cons_of_mem event listed)]
      exact (step_moves adapter settings inv event).others worker first.symm

theorem deliver_recorded (settings : Settings)
    (idle : state.phases worker = .idle)
    (received : receive adapter request true now = .ok delivery) :
    (step adapter settings state (.deliver worker request true now)).phases worker =
      .recorded delivery (state.alreadyProcessed delivery.eventId) := by
  simp only [step, idle, received]
  exact goto_own ..

theorem dispatch_logged (settings : Settings)
    {action : EventAction} {planId : Option Nat}
    (phase : state.phases worker = .dispatching delivery action planId) (answers : Answers) :
    ∃ ended, (step adapter settings state (.dispatch worker answers)).log.head? =
      some ⟨delivery, .dispatched ended⟩ := by
  simp only [step, phase, dispatch]
  cases answers.failed with
  | some store => exact ⟨.transient, rfl⟩
  | none =>
      obtain ⟨outcome, found⟩ := handle adapter settings state.store delivery action planId answers
      cases outcome.raised with
      | none => exact ⟨.completed, rfl⟩
      | some raised =>
          cases poison : raised.permanent with
          | true => exact ⟨.permanent raised, by simp only [poison]; rfl⟩
          | false => exact ⟨.transient, by simp only [poison]; rfl⟩

/-- What comes of a delivery by its action and the answer for its plan: `judged` is when it
has been judged, and `dispatched` when it had time to be dispatched as well. -/
def Attended (worker : Nat) (delivery : Delivery Payload) (plan : PlanAnswer)
    (judged dispatched : State Payload) : Prop :=
  match adapter.eventAction delivery.eventType, plan with
  | none, _ => judged.log.head? = some ⟨delivery, .unmapped⟩
  | some .revoke, _ | some .grant, .resolved _ | some .update, .resolved _ =>
      ∃ ended, dispatched.log.head? = some ⟨delivery, .dispatched ended⟩
  | some .grant, .valueError detail | some .update, .valueError detail =>
      judged.log.head? = some ⟨delivery, .planError detail⟩
  | some .grant, .raised | some .update, .raised => judged.phases worker = .idle

theorem judge_attended {before dispatched : State Payload}
    (plan : PlanAnswer) (valid : delivery.signatureValid = true)
    (dispatches : ∀ action planId,
      (judge adapter before worker delivery false plan).phases worker =
        .dispatching delivery action planId →
      ∃ ended, dispatched.log.head? = some ⟨delivery, .dispatched ended⟩) :
    Attended adapter worker delivery plan (judge adapter before worker delivery false plan)
      dispatched := by
  cases mapped : adapter.eventAction delivery.eventType with
  | none =>
      simp only [Attended, judge, valid, mapped]
      rfl
  | some action =>
      cases action with
      | revoke =>
          simp only [Attended, mapped]
          refine dispatches .revoke none ?_
          simp only [judge, valid, mapped]
          exact goto_own ..
      | grant | update =>
          cases plan with
          | resolved planId =>
              simp only [Attended, mapped]
              apply dispatches
              simp only [judge, valid, mapped]
              exact goto_own ..
          | valueError detail =>
              simp only [Attended, judge, valid, mapped]
              rfl
          | raised =>
              simp only [Attended, judge, valid, mapped]
              exact goto_own ..

theorem attended (settings : Settings) (inv : Inv adapter state)
    (idle : state.phases worker = .idle)
    (received : receive adapter request true now = .ok delivery)
    (authentic : delivery.Authentic adapter)
    (fresh : state.alreadyProcessed delivery.eventId = false)
    (between later : List Event) (plan : PlanAnswer) (answers : Answers)
    (othersBetween : ∀ event ∈ between, event.worker ≠ worker)
    (othersLater : ∀ event ∈ later, event.worker ≠ worker) :
    let judged := run (step adapter settings) state
      (.deliver worker request true now :: (between ++ [.judge worker plan]))
    Attended adapter worker delivery plan judged
      (run (step adapter settings) judged (later ++ [.dispatch worker answers])) := by
  intro judged
  have recorded := deliver_recorded adapter settings idle received
  have deliveredInv := step_inv adapter settings state (.deliver worker request true now) inv
  have waiting := run_keeps_phase adapter settings between deliveredInv othersBetween
  have judgedInv : Inv adapter judged := run_inv adapter settings inv _
  have kept := run_keeps_phase adapter settings later judgedInv othersLater
  have valid : delivery.signatureValid = true :=
    (receive_signature adapter received).trans authentic
  rw [recorded, fresh] at waiting
  generalize delivered : run (step adapter settings)
    (step adapter settings state (.deliver worker request true now)) between = before at waiting
  have judgment : judged = judge adapter before worker delivery false plan := by
    show run (step adapter settings) state _ = _
    rw [run_cons, run_append, run_cons, run_nil, delivered]
    simp only [step, waiting]
  rw [judgment] at kept ⊢
  refine judge_attended adapter plan valid fun action planId phase => ?_
  rw [run_append, run_cons, run_nil]
  exact dispatch_logged adapter settings (kept.trans phase) answers

/-- In every run each verdict has its reasons, a forged delivery does not get to the store,
nothing is processed that has not come to a final verdict, and an authentic delivery of an
event that is not processed is attended. -/
theorem deliveries_accounted (settings : Settings) (store : Store) (events : List Event) :
    let reached : State Payload := run (step adapter settings) (start store) events
    (∀ later entry earlier, reached.log = later ++ entry :: earlier →
      Justified adapter earlier entry.delivery entry.verdict) ∧
    (∀ event, (step adapter settings reached event).store = reached.store ∨
      ∃ delivery ended, delivery.Authentic adapter ∧
        (step adapter settings reached event).log =
          ⟨delivery, .dispatched ended⟩ :: reached.log) ∧
    (∀ eventId, reached.alreadyProcessed eventId = true →
      Settled adapter reached.log eventId) ∧
    ∀ worker request now delivery, reached.phases worker = .idle →
      receive adapter request true now = .ok delivery → delivery.Authentic adapter →
      reached.alreadyProcessed delivery.eventId = false →
      ∀ between later plan answers, (∀ event ∈ between, event.worker ≠ worker) →
        (∀ event ∈ later, event.worker ≠ worker) →
        let judged := run (step adapter settings) reached
          (.deliver worker request true now :: (between ++ [.judge worker plan]))
        Attended adapter worker delivery plan judged
          (run (step adapter settings) judged (later ++ [.dispatch worker answers])) := by
  intro reached
  have inv : Inv adapter reached := run_inv adapter settings (start_inv adapter store) events
  refine ⟨?_, ?_, inv.processed, ?_⟩
  · intro later entry earlier listed
    have justified := inv.log
    rw [listed] at justified
    exact justified.entry adapter
  · intro event
    have moves := step_moves adapter settings inv event
    obtain same | ⟨delivery, ended, appended⟩ := moves.store
    · exact .inl same
    · have justified := (moves.inv adapter inv).log
      rw [appended] at justified
      exact .inr ⟨delivery, ended, justified.1.1, appended⟩
  · intro worker request now delivery idle received authentic fresh between later plan answers
    exact attended adapter settings inv idle received authentic fresh between later plan answers

end Accounts

/-- The body of an event is its type; the signature is the secret. -/
def demoAdapter : Adapter String Unit :=
  { vendor := .polar
    secret := some "whsec"
    toleranceSeconds := 300
    verify := fun secret request _ _ => request.signature == secret
    loads := fun body => some (some body)
    idOf := fun _ => ""
    withId := fun payload _ => payload
    dataOf := fun _ => ()
    parseEvent := fun payload => .ok ("evt_1", payload, "sub_1")
    eventAction := fun eventType => if eventType = "order.paid" then some .grant else none
    watchedEventPrefixes := ["subscription.", "order."]
    extractEmail := fun _ => some "buyer@example.com"
    mapStatus := fun _ => .active
    extractCancelAtPeriodEnd := fun _ => none
    extractInterval := fun _ => none
    normalizeInterval := id
    extractSeats := fun _ => 1
    seatsPositive := fun _ => Nat.one_pos
    extractAmount := fun _ => none
    extractCurrency := fun _ => none
    extractPeriod := fun _ => (none, none, none)
    extractEventAt := fun _ _ => none }

def purchase : Request := ⟨"evt_1", "0", "whsec", "order.paid"⟩

def visit : Request := ⟨"evt_1", "0", "whsec", "checkout.created"⟩

def purchased (now : Nat) : Delivery String :=
  ⟨purchase, now, true, "order.paid", "evt_1", "order.paid", "sub_1"⟩

/-- A worker dies after the record, a forged delivery follows, and the event comes again. -/
theorem interrupted_purchase_dispatched :
    ∃ ended, (run (step demoAdapter demoSettings) (start emptyStore)
      [.deliver 0 purchase true 0, .crash 0,
        .deliver 1 { purchase with signature := "forged" } true 1, .judge 1 .raised,
        .deliver 2 purchase true 2, .judge 2 (.resolved 2),
        .dispatch 2 ⟨none, oldestRow, 2, none⟩]).log.head? =
      some ⟨purchased 2, .dispatched ended⟩ :=
  (deliveries_accounted demoAdapter demoSettings emptyStore
    [.deliver 0 purchase true 0, .crash 0,
      .deliver 1 { purchase with signature := "forged" } true 1, .judge 1 .raised]).2.2.2
    2 purchase 2 (purchased 2) rfl rfl rfl rfl [] [] (.resolved 2) ⟨none, oldestRow, 2, none⟩
    nofun nofun

/-- A crash and a delivery that is judged with `plan`, marked and never dispatched. -/
def redelivered (request : Request) (plan : PlanAnswer) : List Event :=
  [.deliver 0 request true 0, .crash 0, .deliver 0 request true 1, .judge 0 plan, .mark 0]

/-- Types without an action and products without a plan are processed with no dispatch, and
the rate limit turns a redelivery away. -/
theorem processed_without_dispatch :
    let visited := run (step demoAdapter demoSettings) (start emptyStore)
      (redelivered visit .raised)
    let refused := run (step demoAdapter demoSettings) (start emptyStore)
      (redelivered purchase (.valueError "unknown product"))
    (visited.alreadyProcessed "evt_1" = true ∧ visited.log.map Entry.verdict = [.unmapped]) ∧
      (refused.alreadyProcessed "evt_1" = true ∧
        refused.log.map Entry.verdict = [.planError "unknown product"]) ∧
      receive demoAdapter purchase false 2 = .error .rateLimited :=
  ⟨⟨rfl, rfl⟩, ⟨rfl, rfl⟩, rfl⟩

end OdooSemantic.Billing.Webhooks
