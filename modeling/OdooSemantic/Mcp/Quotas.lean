import OdooSemantic.Mcp.RateLimits
import OdooSemantic.Mcp.UsageBuffer

/-!
# Calls of a key in a month

The quota check reads the counter alone.  It does not see the calls that are under way, wait in
the buffer or are in a flush, and never those that were lost; as many are let through above
the quota.
-/

set_option autoImplicit false

namespace OdooSemantic.Mcp.Quotas

open Lib.Run
open RateLimits (PlanInfo)
open UsageBuffer (UsageRow upsert rowsOf committed buffered inFlight dropped incrementsOf)

def resolveEffectiveQuota (plan : PlanInfo) : Int × Bool :=
  if plan.unlimited then (0, true)
  else
    match plan.quotaOverride with
    | some quota => (quota, false)
    | none => (plan.quotaCallsPerMonth, false)

/-- `SELECT call_count`; no row is no call. -/
def callCount (counter : List UsageRow) (apiKeyId : Nat) (period : String) : Nat :=
  match counter.find? fun row => row.apiKeyId = apiKeyId ∧ row.periodYyyymm = period with
  | some row => row.callCount
  | none => 0

def checkMonthlyQuota (apiKeyId : Nat) (plan : PlanInfo) (counter : List UsageRow)
    (period : String) : Bool × Nat × Int :=
  let (effectiveQuota, isUnlimited) := resolveEffectiveQuota plan
  if isUnlimited || plan.slug == "__fallback__" then (true, 0, 0)
  else
    let used := callCount counter apiKeyId period
    (decide (used < effectiveQuota), used, effectiveQuota)

/-- The keys of the requests that passed: `running` have no response yet, `raised` never get
one, `admitted` are all. -/
structure State where
  usage : UsageBuffer.State
  running : List Nat
  raised : List Nat
  admitted : List Nat

/-- A check that raises lets the request pass; only a response is counted. -/
inductive Event where
  | request (apiKeyId : Nat) (plan : PlanInfo) (period : String) (raises : Bool)
  | respond (apiKeyId : Nat)
  | raise (apiKeyId : Nat)
  | background (event : UsageBuffer.Event)

def passes (state : State) (apiKeyId : Nat) (plan : PlanInfo) (period : String) (raises : Bool) :
    Bool :=
  raises || (checkMonthlyQuota apiKeyId plan state.usage.counter period).1

def step (state : State) : Event → State
  | .request apiKeyId plan period raises =>
      if passes state apiKeyId plan period raises then
        { state with
          running := apiKeyId :: state.running
          admitted := apiKeyId :: state.admitted }
      else state
  | .respond apiKeyId =>
      if apiKeyId ∈ state.running then
        { state with
          usage := (UsageBuffer.incrementUsageBuffer state.usage apiKeyId).1
          running := state.running.erase apiKeyId }
      else state
  | .raise apiKeyId =>
      if apiKeyId ∈ state.running then
        { state with
          running := state.running.erase apiKeyId
          raised := apiKeyId :: state.raised }
      else state
  | .background (.increment _) => state
  | .background event => { state with usage := UsageBuffer.step state.usage event }

/-- The calls of a key that passed and are not in the counter. -/
def uncounted (state : State) (key : Nat) : Nat :=
  state.running.count key + state.raised.count key + buffered state.usage key +
    inFlight state.usage key + dropped state.usage key

/-- The plan has a quota, of at most `quota`. -/
def Limited (quota : Nat) (plan : PlanInfo) : Prop :=
  plan.unlimited = false ∧ plan.slug ≠ "__fallback__" ∧
    plan.quotaOverride.getD plan.quotaCallsPerMonth ≤ quota

/-- The month goes on, the key stays, its checks read the counter, and no more than `most` of its
calls are uncounted. -/
def Within (key quota most : Nat) (period : String) (state : State) (event : Event) : Prop :=
  uncounted state key ≤ most ∧
    match event with
    | .request apiKeyId plan now raises =>
        apiKeyId = key → now = period ∧ raises = false ∧ Limited quota plan
    | .background (.deleteKey other) => other ≠ key
    | .background (.commit _ now) => now = period
    | _ => True

section Rows
variable {key : Nat} {period : String}

theorem callCount_cons (row : UsageRow) (rest : List UsageRow) :
    callCount (row :: rest) key period =
      if row.apiKeyId = key ∧ row.periodYyyymm = period then row.callCount
      else callCount rest key period := by
  by_cases same : row.apiKeyId = key ∧ row.periodYyyymm = period
  · simp [callCount, same]
  · simp [callCount, same]

theorem callCount_upsert (counter : List UsageRow) (other delta : Nat) :
    callCount (upsert counter other period delta) key period =
      callCount counter key period + if other = key then delta else 0 := by
  induction counter with
  | nil =>
      rw [upsert, callCount_cons]
      by_cases same : other = key
      · simp [same, callCount]
      · simp [same, callCount]
  | cons row rest ih =>
      rw [upsert]
      by_cases hit : row.apiKeyId = other ∧ row.periodYyyymm = period
      · rw [if_pos hit, callCount_cons, callCount_cons]
        obtain ⟨rfl, rfl⟩ := hit
        by_cases same : row.apiKeyId = key
        · simp [same]
        · simp [same]
      · rw [if_neg hit, callCount_cons, callCount_cons, ih]
        by_cases mine : row.apiKeyId = key ∧ row.periodYyyymm = period
        · have apart : other ≠ key := fun same => hit ⟨mine.1.trans same.symm, mine.2⟩
          rw [if_pos mine, if_pos mine, if_neg apart, Nat.add_zero]
        · rw [if_neg mine, if_neg mine]

theorem callCount_others (counter : List UsageRow) {other : Nat} (apart : other ≠ key) :
    callCount (counter.filter fun row => row.apiKeyId ≠ other) key period =
      callCount counter key period := by
  induction counter with
  | nil => rfl
  | cons row rest ih =>
      by_cases gone : row.apiKeyId = other
      · have others : ¬ (row.apiKeyId = key ∧ row.periodYyyymm = period) :=
          fun mine => apart (gone.symm.trans mine.1)
        rw [List.filter_cons_of_neg (by simpa using gone), ih, callCount_cons, if_neg others]
      · rw [List.filter_cons_of_pos (by simpa using gone), callCount_cons, callCount_cons, ih]

def Settled (key : Nat) (period : String) (past : Nat) (counter : List UsageRow) : Prop :=
  rowsOf counter key = callCount counter key period + past

theorem Settled.flush {counter : List UsageRow} {past : Nat} (settled : Settled key period past counter)
    (snapshot : List (Nat × Nat)) :
    Settled key period past (snapshot.foldl
      (fun counter item => upsert counter item.1 period item.2) counter) := by
  induction snapshot generalizing counter with
  | nil => exact settled
  | cons item rest ih =>
      refine ih ?_
      rw [Settled] at settled ⊢
      rw [UsageBuffer.rowsOf_upsert, callCount_upsert, settled]
      omega

end Rows

theorem callCount_le (counter : List UsageRow) (key : Nat) (period : String) :
    callCount counter key period ≤ rowsOf counter key := by
  induction counter with
  | nil => exact Nat.zero_le _
  | cons row rest ih =>
      rw [callCount_cons, UsageBuffer.rowsOf_cons]
      by_cases mine : row.apiKeyId = key ∧ row.periodYyyymm = period
      · rw [if_pos mine, if_pos mine.1]
        omega
      · rw [if_neg mine]
        omega

/-- `answered` calls were counted before the run, `past` of them for other months. -/
structure Inv (key past answered : Nat) (period : String) (state : State) : Prop where
  usage : UsageBuffer.Inv state.usage
  there : state.usage.keys key = true
  settled : Settled key period past state.usage.counter
  before : past ≤ answered
  counted : incrementsOf state.usage key + state.running.count key + state.raised.count key =
    answered + state.admitted.count key

section Runs
variable {key past answered quota most : Nat} {period : String} {state : State}

/-- Work in the background counts no call, and writes the counter for this month alone. -/
theorem usage_step (usage : UsageBuffer.State) (event : UsageBuffer.Event)
    (there : usage.keys key = true) (settled : Settled key period past usage.counter)
    (counts : ∀ counted, event ≠ .increment counted) (stays : event ≠ .deleteKey key)
    (month : ∀ index now, event = .commit index now → now = period) :
    let next := UsageBuffer.step usage event
    next.keys key = true ∧ Settled key period past next.counter ∧
      next.increments = usage.increments := by
  cases event with
  | createKey =>
      refine ⟨?_, settled, rfl⟩
      by_cases same : key = usage.nextKey
      · simp [UsageBuffer.step, same]
      · simpa [UsageBuffer.step, Function.update_of_ne same] using there
  | deleteKey other =>
      have apart : other ≠ key := fun same => stays (same ▸ rfl)
      simp only [UsageBuffer.step, UsageBuffer.deleteKey]
      split
      · refine ⟨?_, ?_, rfl⟩
        · exact (Function.update_of_ne (Ne.symm apart) ..).trans there
        · rwa [Settled, UsageBuffer.rowsOf_others _ (Ne.symm apart), callCount_others _ apart]
      · exact ⟨there, settled, rfl⟩
  | increment counted => exact absurd rfl (counts counted)
  | takeSnapshot =>
      simp only [UsageBuffer.step, UsageBuffer.takeSnapshot]
      split <;> exact ⟨there, settled, rfl⟩
  | statement index =>
      simp only [UsageBuffer.step, UsageBuffer.flushStatement, UsageBuffer.failFlush]
      split
      · exact ⟨there, settled, rfl⟩
      · split
        · exact ⟨there, settled, rfl⟩
        · split <;> exact ⟨there, settled, rfl⟩
  | commit index now =>
      obtain rfl := month index now rfl
      simp only [UsageBuffer.step, UsageBuffer.flushCommit]
      split
      · exact ⟨there, settled, rfl⟩
      · split
        · exact ⟨there, settled.flush _, rfl⟩
        · exact ⟨there, settled, rfl⟩
  | fail index =>
      simp only [UsageBuffer.step, UsageBuffer.failFlush]
      split <;> exact ⟨there, settled, rfl⟩

theorem step_background {event : UsageBuffer.Event} (others : ∀ counted, event ≠ .increment counted) :
    step state (.background event) = { state with usage := UsageBuffer.step state.usage event } := by
  cases event with
  | increment counted => exact absurd rfl (others counted)
  | _ => rfl

theorem background_keeps {event : UsageBuffer.Event} (inv : Inv key past answered period state)
    (within : Within key quota most period state (.background event)) :
    Inv key past answered period (step state (.background event)) := by
  have stays : event ≠ .deleteKey key := by
    rintro rfl
    exact within.2 rfl
  have month : ∀ index now, event = .commit index now → now = period := by
    rintro index now rfl
    exact within.2
  by_cases counts : ∃ counted, event = .increment counted
  · obtain ⟨counted, rfl⟩ := counts
    exact inv
  · have others : ∀ counted, event ≠ .increment counted := fun counted same => counts ⟨counted, same⟩
    obtain ⟨there, settled, same⟩ :=
      usage_step state.usage event inv.there inv.settled others stays month
    have counted := inv.counted
    rw [step_background others]
    rw [incrementsOf] at counted
    exact ⟨UsageBuffer.step_inv _ event inv.usage, there, settled, inv.before, by
      simpa only [incrementsOf, same] using counted⟩

/-- The calls let through are those the counter shows for the month and the uncounted ones. -/
theorem Inv.admitted (inv : Inv key past answered period state) :
    state.admitted.count key ≤
      callCount state.usage.counter key period + uncounted state key := by
  have accounted := inv.usage.accounted key (.inl inv.there)
  have settled := inv.settled
  have counted := inv.counted
  have before := inv.before
  rw [UsageBuffer.Accounted, committed] at accounted
  rw [Settled] at settled
  rw [uncounted]
  omega

theorem passes_limited {plan : PlanInfo} (limited : Limited quota plan)
    (passed : passes state key plan period false = true) :
    callCount state.usage.counter key period < quota := by
  obtain ⟨isLimited, noFallback, low⟩ := limited
  have resolved : resolveEffectiveQuota plan =
      (plan.quotaOverride.getD plan.quotaCallsPerMonth, false) := by
    rw [resolveEffectiveQuota, isLimited]
    cases plan.quotaOverride <;> rfl
  rw [passes, checkMonthlyQuota, resolved] at passed
  simp only [Bool.false_or, beq_eq_false_iff_ne.mpr noFallback, Bool.false_eq_true, if_false,
    decide_eq_true_eq] at passed
  omega

theorem count_left {running : List Nat} {apiKeyId : Nat} (isRunning : apiKeyId ∈ running)
    (key : Nat) : (running.erase apiKeyId).count key + (if apiKeyId == key then 1 else 0) =
      running.count key := by
  rw [List.count_erase]
  by_cases same : apiKeyId = key
  · have some_ := List.count_pos_iff.mpr isRunning
    subst same
    simp only [beq_self_eq_true, if_true]
    omega
  · simp [same]

theorem step_keeps (state : State) (event : Event)
    (within : Within key quota most period state event)
    (inv : Inv key past answered period state ∧ state.admitted.count key ≤ quota + most) :
    Inv key past answered period (step state event) ∧
      (step state event).admitted.count key ≤ quota + most := by
  obtain ⟨inv, low⟩ := inv
  have counted := inv.counted
  cases event with
  | request apiKeyId plan now raises =>
      rw [step]
      by_cases passed : passes state apiKeyId plan now raises = true
      · rw [if_pos passed]
        refine ⟨⟨inv.usage, inv.there, inv.settled, inv.before, ?_⟩, ?_⟩
        · simp only [List.count_cons]
          omega
        · by_cases same : apiKeyId = key
          · obtain ⟨rfl, rfl, limited⟩ := within.2 same
            subst same
            have free := passes_limited limited passed
            have most := within.1
            have shown := inv.admitted
            simp only [List.count_cons_self]
            omega
          · rwa [List.count_cons_of_ne same]
      · rw [if_neg passed]
        exact ⟨inv, low⟩
  | respond apiKeyId =>
      rw [step]
      split
      · rename_i isRunning
        refine ⟨⟨UsageBuffer.step_inv _ (.increment apiKeyId) inv.usage, inv.there, inv.settled,
          inv.before, ?_⟩, low⟩
        have left := count_left isRunning key
        simp only [incrementsOf, UsageBuffer.incrementUsageBuffer, List.count_cons] at counted ⊢
        omega
      · exact ⟨inv, low⟩
  | raise apiKeyId =>
      rw [step]
      split
      · rename_i isRunning
        refine ⟨⟨inv.usage, inv.there, inv.settled, inv.before, ?_⟩, low⟩
        have left := count_left isRunning key
        simp only [List.count_cons]
        omega
      · exact ⟨inv, low⟩
  | background event =>
      refine ⟨background_keeps inv within, ?_⟩
      cases event <;> exact low

end Runs

def resting (usage : UsageBuffer.State) : State := ⟨usage, [], [], []⟩

/-- In every interleaving of a month, what a key gets above its quota is no more than what was
uncounted at a time: under way, in the buffer, in a flush or lost. -/
theorem overshoot_le_uncounted (usage : UsageBuffer.State) (counts : UsageBuffer.Inv usage)
    (key : Nat) (there : usage.keys key = true) (quota most : Nat) (period : String)
    (events : List Event)
    (within : AllSteps step (Within key quota most period) (resting usage) events) :
    (run step (resting usage) events).admitted.count key ≤ quota + most := by
  have shown := callCount_le usage.counter key period
  have accounted := counts.accounted key (.inl there)
  rw [UsageBuffer.Accounted, committed] at accounted
  have inv : Inv key (rowsOf usage.counter key - callCount usage.counter key period)
      (incrementsOf usage key) period (resting usage) := by
    refine ⟨counts, there, ?_, ?_, rfl⟩
    · rw [Settled]
      simp only [resting]
      omega
    · omega
  exact (run_preserves_guarded step _ (fun state => Inv _ _ _ period state ∧ _) step_keeps events
    _ within ⟨inv, Nat.zero_le _⟩).2

def oneCall : PlanInfo := ⟨1, "free", 1, 60, none, none⟩

def firstCall : Event := .request 0 oneCall "202601" false

/-- A second request is checked while the first one runs; a third one finds the quota used. -/
theorem oneCall_overshoot :
    let usage := run UsageBuffer.step UsageBuffer.start [.createKey]
    let reached := run step (resting usage) [firstCall, firstCall, .respond 0, .respond 0,
      .background .takeSnapshot, .background (.statement 0), .background (.commit 0 "202601"),
      firstCall]
    reached.admitted.count 0 = 2 ∧ reached.admitted.count 0 ≤ 1 + 2 := by
  have limited : (0 = 0 → "202601" = "202601" ∧ false = false ∧ Limited 1 oneCall) :=
    fun _ => ⟨rfl, rfl, rfl, by decide, by decide⟩
  refine ⟨by decide, overshoot_le_uncounted _
    (run_preserves _ _ UsageBuffer.step_inv _ UsageBuffer.start_inv _) 0 rfl 1 2 "202601" _ ?_⟩
  exact ⟨⟨by decide, limited⟩, ⟨by decide, limited⟩, ⟨by decide, trivial⟩, ⟨by decide, trivial⟩,
    ⟨by decide, trivial⟩, ⟨by decide, trivial⟩, ⟨by decide, rfl⟩, ⟨by decide, limited⟩, trivial⟩

end OdooSemantic.Mcp.Quotas
