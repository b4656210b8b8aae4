import OdooSemantic.Lib.Run
import Mathlib.Algebra.BigOperators.Group.List.Basic
import Mathlib.Algebra.Ring.Nat

/-!
# Usage that waits in memory

Calls are counted in a buffer and written by flushes that empty it first.  A flush is one
transaction over all the keys it took, and one that fails at any point writes none of them;
its counts are dropped, with a line in the log.
-/

set_option autoImplicit false

namespace OdooSemantic.Mcp.UsageBuffer

open Lib.Run

/-- Counts by API key, as a dictionary iterates over them. -/
abbrev Counts := List (Nat × Nat)

def countOf (counts : Counts) (key : Nat) : Nat :=
  ((counts.filter fun item => item.1 = key).map Prod.snd).sum

/-- `_usage_buffer[key] = _usage_buffer.get(key, 0) + 1`. -/
def bump : Counts → Nat → Counts
  | [], key => [(key, 1)]
  | item :: rest, key =>
      if item.1 = key then (key, item.2 + 1) :: rest else item :: bump rest key

def totalPending (buffer : Counts) : Nat := (buffer.map Prod.snd).sum

def usageFlushThreshold : Nat := 10

/-- A row of `usage_counter`. -/
structure UsageRow where
  apiKeyId : Nat
  periodYyyymm : String
  callCount : Nat

/-- `INSERT ... ON CONFLICT (api_key_id, period_yyyymm) DO UPDATE`. -/
def upsert : List UsageRow → Nat → String → Nat → List UsageRow
  | [], key, period, delta => [⟨key, period, delta⟩]
  | row :: rest, key, period, delta =>
      if row.apiKeyId = key ∧ row.periodYyyymm = period then
        { row with callCount := row.callCount + delta } :: rest
      else row :: upsert rest key period delta

/-- A flush that took `snapshot`; `done` of its items are written in the transaction. -/
structure Flush where
  snapshot : Counts
  done : Nat

/-- `failures` are the snapshots of the flushes whose error was logged, and `increments` the
keys of all calls counted so far. -/
structure State where
  keys : Nat → Bool
  nextKey : Nat
  buffer : Counts
  counter : List UsageRow
  flushes : List Flush
  failures : List Counts
  increments : List Nat

def start : State := ⟨fun _ => false, 0, [], [], [], [], []⟩

/-- `_increment_usage_buffer`; the answer is whether the caller schedules a flush. -/
def incrementUsageBuffer (state : State) (key : Nat) : State × Bool :=
  let buffer := bump state.buffer key
  ({ state with buffer, increments := key :: state.increments },
    usageFlushThreshold ≤ totalPending buffer)

/-- The snapshot of `_flush_usage_buffer_async`. -/
def takeSnapshot (state : State) : State :=
  if state.buffer.isEmpty then state
  else { state with buffer := [], flushes := ⟨state.buffer, 0⟩ :: state.flushes }

def Flush.writes (flush : Flush) (key : Nat) : Bool :=
  (flush.snapshot.take flush.done).any fun item => item.1 == key && 0 < item.2

def failFlush (state : State) (index : Nat) (flush : Flush) : State :=
  { state with
    flushes := state.flushes.eraseIdx index
    failures := flush.snapshot :: state.failures }

/-- The next item; without its API key the foreign key fails the transaction. -/
def flushStatement (state : State) (index : Nat) (flush : Flush) : State :=
  match flush.snapshot[flush.done]? with
  | none => state
  | some (key, delta) =>
      if 0 < delta && !state.keys key then failFlush state index flush
      else { state with flushes := state.flushes.set index { flush with done := flush.done + 1 } }

def flushCommit (state : State) (index : Nat) (flush : Flush) (period : String) : State :=
  if flush.done = flush.snapshot.length then
    { state with
      flushes := state.flushes.eraseIdx index
      counter := (flush.snapshot.filter fun item => 0 < item.2).foldl
        (fun counter item => upsert counter item.1 period item.2) state.counter }
  else state

/-- A key whose usage row a transaction holds waits for it; its usage rows go with it. -/
def deleteKey (state : State) (key : Nat) : State :=
  if state.keys key && !state.flushes.any (·.writes key) then
    { state with
      keys := Function.update state.keys key false
      counter := state.counter.filter fun row => row.apiKeyId ≠ key }
  else state

inductive Event where
  | createKey
  | deleteKey (key : Nat)
  | increment (key : Nat)
  | takeSnapshot
  | statement (index : Nat)
  | commit (index : Nat) (period : String)
  | fail (index : Nat)

def step (state : State) : Event → State
  | .createKey =>
      { state with
        keys := Function.update state.keys state.nextKey true
        nextKey := state.nextKey + 1 }
  | .deleteKey key => deleteKey state key
  | .increment key => (incrementUsageBuffer state key).1
  | .takeSnapshot => takeSnapshot state
  | .statement index =>
      match state.flushes[index]? with
      | none => state
      | some flush => flushStatement state index flush
  | .commit index period =>
      match state.flushes[index]? with
      | none => state
      | some flush => flushCommit state index flush period
  | .fail index =>
      match state.flushes[index]? with
      | none => state
      | some flush => failFlush state index flush

def rowsOf (counter : List UsageRow) (key : Nat) : Nat :=
  ((counter.filter fun row => row.apiKeyId = key).map UsageRow.callCount).sum

def committed (state : State) (key : Nat) : Nat := rowsOf state.counter key

def buffered (state : State) (key : Nat) : Nat := countOf state.buffer key

def inFlight (state : State) (key : Nat) : Nat :=
  (state.flushes.map fun flush => countOf flush.snapshot key).sum

/-- What failed flushes had taken. -/
def dropped (state : State) (key : Nat) : Nat :=
  (state.failures.map fun snapshot => countOf snapshot key).sum

def incrementsOf (state : State) (key : Nat) : Nat := state.increments.count key

@[simp] theorem countOf_nil (key : Nat) : countOf [] key = 0 := rfl

@[simp] theorem countOf_cons (item : Nat × Nat) (rest : Counts) (key : Nat) :
    countOf (item :: rest) key = (if item.1 = key then item.2 else 0) + countOf rest key := by
  by_cases same : item.1 = key
  · simp [countOf, same]
  · simp [countOf, same]

theorem countOf_bump (buffer : Counts) (key other : Nat) :
    countOf (bump buffer key) other = countOf buffer other + if key = other then 1 else 0 := by
  induction buffer with
  | nil => simp [bump]
  | cons item rest ih =>
      rw [bump]
      by_cases same : item.1 = key
      · rw [if_pos same, countOf_cons, countOf_cons, same]
        by_cases asked : key = other
        · simp only [if_pos asked]
          omega
        · simp only [if_neg asked]
          omega
      · rw [if_neg same, countOf_cons, countOf_cons, ih]
        omega

theorem rowsOf_cons (row : UsageRow) (rest : List UsageRow) (key : Nat) :
    rowsOf (row :: rest) key =
      (if row.apiKeyId = key then row.callCount else 0) + rowsOf rest key := by
  by_cases same : row.apiKeyId = key
  · simp [rowsOf, same]
  · simp [rowsOf, same]

theorem rowsOf_upsert (counter : List UsageRow) (key : Nat) (period : String) (delta other : Nat) :
    rowsOf (upsert counter key period delta) other =
      rowsOf counter other + if key = other then delta else 0 := by
  induction counter with
  | nil =>
      rw [upsert, rowsOf_cons]
      exact Nat.add_comm ..
  | cons row rest ih =>
      rw [upsert]
      by_cases same : row.apiKeyId = key ∧ row.periodYyyymm = period
      · rw [if_pos same, rowsOf_cons, rowsOf_cons, same.1]
        by_cases asked : key = other
        · simp only [if_pos asked]
          omega
        · simp only [if_neg asked]
          omega
      · rw [if_neg same, rowsOf_cons, rowsOf_cons, ih]
        omega

theorem rowsOf_flush (snapshot : Counts) (counter : List UsageRow) (period : String)
    (key : Nat) :
    rowsOf ((snapshot.filter fun item => 0 < item.2).foldl
      (fun counter item => upsert counter item.1 period item.2) counter) key =
      rowsOf counter key + countOf snapshot key := by
  induction snapshot generalizing counter with
  | nil => rfl
  | cons item rest ih =>
      rw [List.filter_cons, countOf_cons]
      by_cases counted : 0 < item.2
      · rw [if_pos (decide_eq_true counted), List.foldl_cons, ih, rowsOf_upsert]
        omega
      · have nothing : item.2 = 0 := by omega
        rw [if_neg (by simpa using counted), ih, nothing]
        simp

theorem rowsOf_others (counter : List UsageRow) {key other : Nat} (distinct : other ≠ key) :
    rowsOf (counter.filter fun row => row.apiKeyId ≠ key) other = rowsOf counter other := by
  induction counter with
  | nil => rfl
  | cons row rest ih =>
      rw [List.filter_cons]
      by_cases same : row.apiKeyId = key
      · have skipped : row.apiKeyId ≠ other := by
          rw [same]
          exact distinct.symm
        rw [if_neg (by simpa using same), ih, rowsOf_cons, if_neg skipped, Nat.zero_add]
      · rw [if_pos (by simpa using same), rowsOf_cons, rowsOf_cons, ih]

variable {flush : Flush} {state : State}

theorem sum_erase {flushes : List Flush} {index : Nat} (count : Flush → Nat)
    (there : flushes[index]? = some flush) :
    (flushes.map count).sum = count flush + ((flushes.eraseIdx index).map count).sum := by
  induction flushes generalizing index with
  | nil => cases there
  | cons first rest ih =>
      cases index with
      | zero =>
          cases there
          rfl
      | succ index =>
          rw [List.getElem?_cons_succ] at there
          simp only [List.map_cons, List.sum_cons, List.eraseIdx_cons_succ, ih there]
          omega

theorem sum_set {flushes : List Flush} {index : Nat} (next : Flush)
    (count : Flush → Nat) (there : flushes[index]? = some flush) (same : count next = count flush) :
    ((flushes.set index next).map count).sum = (flushes.map count).sum := by
  induction flushes generalizing index with
  | nil => cases there
  | cons first rest ih =>
      cases index with
      | zero =>
          cases there
          simp only [List.set_cons_zero, List.map_cons, List.sum_cons, same]
      | succ index =>
          rw [List.getElem?_cons_succ] at there
          simp only [List.set_cons_succ, List.map_cons, List.sum_cons, ih there]

def Accounted (state : State) (key : Nat) : Prop :=
  committed state key + buffered state key + inFlight state key + dropped state key =
    incrementsOf state key

structure Inv (state : State) : Prop where
  created : ∀ key, state.keys key = true → key < state.nextKey
  accounted : ∀ key, state.keys key = true ∨ state.nextKey ≤ key → Accounted state key

theorem accounted_increment {counted key : Nat}
    (accounted : Accounted state key) :
    Accounted (incrementUsageBuffer state counted).1 key := by
  simp only [Accounted, committed, buffered, inFlight, dropped, incrementsOf,
    incrementUsageBuffer, countOf_bump, List.count_cons, beq_iff_eq] at accounted ⊢
  omega

theorem accounted_takeSnapshot {key : Nat} (accounted : Accounted state key) :
    Accounted (takeSnapshot state) key := by
  rw [takeSnapshot]
  cases empty : state.buffer.isEmpty with
  | true => exact accounted
  | false =>
      simp only [Accounted, committed, buffered, inFlight, dropped, incrementsOf, List.map_cons,
        List.sum_cons, countOf_nil, Bool.false_eq_true, if_false] at accounted ⊢
      omega

theorem accounted_failFlush {index key : Nat}
    (there : state.flushes[index]? = some flush) (accounted : Accounted state key) :
    Accounted (failFlush state index flush) key := by
  have taken := sum_erase (fun flush => countOf flush.snapshot key) there
  simp only [Accounted, committed, buffered, inFlight, dropped, incrementsOf, failFlush,
    List.map_cons, List.sum_cons] at accounted ⊢
  omega

theorem accounted_flushStatement {index key : Nat}
    (there : state.flushes[index]? = some flush) (accounted : Accounted state key) :
    Accounted (flushStatement state index flush) key := by
  rw [flushStatement]
  cases flush.snapshot[flush.done]? with
  | none => exact accounted
  | some item =>
      cases missing : 0 < item.2 && !state.keys item.1 with
      | true =>
          simp only [missing, if_true]
          exact accounted_failFlush there accounted
      | false =>
          have kept := sum_set { flush with done := flush.done + 1 }
            (fun flush => countOf flush.snapshot key) there rfl
          simp only [missing, Bool.false_eq_true, if_false]
          simp only [Accounted, committed, buffered, inFlight, dropped, incrementsOf,
            kept] at accounted ⊢
          exact accounted

theorem accounted_flushCommit {index key : Nat}
    (period : String) (there : state.flushes[index]? = some flush)
    (accounted : Accounted state key) :
    Accounted (flushCommit state index flush period) key := by
  rw [flushCommit]
  by_cases ready : flush.done = flush.snapshot.length
  · have taken := sum_erase (fun flush => countOf flush.snapshot key) there
    rw [if_pos ready]
    simp only [Accounted, committed, buffered, inFlight, dropped, incrementsOf,
      rowsOf_flush] at accounted ⊢
    omega
  · rw [if_neg ready]
    exact accounted

theorem deleteKey_inv (key : Nat) (inv : Inv state) :
    Inv (deleteKey state key) := by
  rw [deleteKey]
  by_cases free : (state.keys key && !state.flushes.any (·.writes key)) = true
  · have there : state.keys key = true := (Bool.and_eq_true_iff.mp free).1
    have others : ∀ other, Function.update state.keys key false other = true →
        other ≠ key ∧ state.keys other = true := by
      intro other kept
      by_cases same : other = key
      · rw [same, Function.update_self] at kept
        cases kept
      · rw [Function.update_of_ne same] at kept
        exact ⟨same, kept⟩
    rw [if_pos free]
    refine ⟨fun other kept => inv.created other (others other kept).2, ?_⟩
    intro other kept
    have distinct : other ≠ key := by
      obtain present | later := kept
      · exact (others other present).1
      · have created := inv.created key there
        simp only at later
        omega
    have accounted := inv.accounted other (kept.imp_left fun present => (others other present).2)
    simp only [Accounted, committed, buffered, inFlight, dropped, incrementsOf,
      rowsOf_others state.counter distinct] at accounted ⊢
    exact accounted
  · rw [if_neg free]
    exact inv

/-- Events that create and delete no key. -/
theorem Inv.next {state next : State} (inv : Inv state) (keys : next.keys = state.keys)
    (nextKey : next.nextKey = state.nextKey)
    (accounted : ∀ key, Accounted state key → Accounted next key) : Inv next := by
  refine ⟨?_, ?_⟩
  · rw [keys, nextKey]
    exact inv.created
  · intro key there
    rw [keys, nextKey] at there
    exact accounted key (inv.accounted key there)

theorem flushStatement_keys (state : State) (index : Nat) (flush : Flush) :
    (flushStatement state index flush).keys = state.keys ∧
      (flushStatement state index flush).nextKey = state.nextKey := by
  rw [flushStatement]
  cases flush.snapshot[flush.done]? with
  | none => exact ⟨rfl, rfl⟩
  | some item =>
      cases missing : 0 < item.2 && !state.keys item.1 with
      | true => simp only [missing, if_true, failFlush, and_self]
      | false => simp only [missing, Bool.false_eq_true, if_false, and_self]

theorem flushCommit_keys (state : State) (index : Nat) (flush : Flush) (period : String) :
    (flushCommit state index flush period).keys = state.keys ∧
      (flushCommit state index flush period).nextKey = state.nextKey := by
  rw [flushCommit]
  by_cases ready : flush.done = flush.snapshot.length
  · rw [if_pos ready]
    exact ⟨rfl, rfl⟩
  · rw [if_neg ready]
    exact ⟨rfl, rfl⟩

theorem createKey_inv (inv : Inv state) : Inv (step state .createKey) := by
  have created : ∀ key, Function.update state.keys state.nextKey true key = true →
      key = state.nextKey ∨ state.keys key = true := by
    intro key there
    by_cases same : key = state.nextKey
    · exact .inl same
    · rw [Function.update_of_ne same] at there
      exact .inr there
  refine ⟨?_, ?_⟩
  · intro key there
    obtain same | earlier := created key there
    · simp only [step, same]
      omega
    · exact Nat.lt_succ_of_lt (inv.created key earlier)
  · intro key there
    refine inv.accounted key ?_
    obtain present | later := there
    · obtain same | earlier := created key present
      · exact .inr (Nat.le_of_eq same.symm)
      · exact .inl earlier
    · exact .inr (Nat.le_of_succ_le later)

theorem step_inv (state : State) (event : Event) (inv : Inv state) :
    Inv (step state event) := by
  cases event with
  | createKey => exact createKey_inv inv
  | deleteKey key => exact deleteKey_inv key inv
  | increment counted => exact inv.next rfl rfl fun _ => accounted_increment
  | takeSnapshot =>
      refine inv.next ?_ ?_ fun _ => accounted_takeSnapshot
      · simp only [step, takeSnapshot]
        cases state.buffer.isEmpty <;> rfl
      · simp only [step, takeSnapshot]
        cases state.buffer.isEmpty <;> rfl
  | statement index =>
      cases there : state.flushes[index]? with
      | none =>
          simp only [step, there]
          exact inv
      | some flush =>
          simp only [step, there]
          have same := flushStatement_keys state index flush
          exact inv.next same.1 same.2 fun _ => accounted_flushStatement there
  | commit index period =>
      cases there : state.flushes[index]? with
      | none =>
          simp only [step, there]
          exact inv
      | some flush =>
          simp only [step, there]
          have same := flushCommit_keys state index flush period
          exact inv.next same.1 same.2 fun _ => accounted_flushCommit period there
  | fail index =>
      cases there : state.flushes[index]? with
      | none =>
          simp only [step, there]
          exact inv
      | some flush =>
          simp only [step, there]
          exact inv.next rfl rfl fun _ => accounted_failFlush there

theorem start_inv : Inv start := ⟨nofun, fun _ _ => rfl⟩

/-- Nothing but the snapshots of the flushes whose failure is logged is missing from what is
committed, buffered and in flight. -/
theorem usage_conserved_but_failures (events : List Event) (key : Nat)
    (there : (run step start events).keys key = true) :
    let reached := run step start events
    committed reached key + buffered reached key + inFlight reached key + dropped reached key =
        incrementsOf reached key ∧
      (committed reached key + buffered reached key + inFlight reached key =
          incrementsOf reached key ↔
        ∀ snapshot ∈ reached.failures, countOf snapshot key = 0) := by
  intro reached
  have inv : Inv reached := run_preserves step Inv step_inv start start_inv events
  have accounted : Accounted reached key := inv.accounted key (.inl there)
  have nothing : dropped reached key = 0 ↔
      ∀ snapshot ∈ reached.failures, countOf snapshot key = 0 := by
    rw [dropped, List.sum_eq_zero_iff_forall_eq_nat]
    constructor
    · intro zero snapshot listed
      exact zero _ (List.mem_map_of_mem listed)
    · intro zero count listed
      obtain ⟨snapshot, there, same⟩ := List.mem_map.mp listed
      rw [← same]
      exact zero snapshot there
  refine ⟨accounted, ?_⟩
  rw [← nothing]
  rw [Accounted] at accounted
  omega

/-- A call is counted, taken by a flush and written. -/
theorem usage_conserved_one_call :
    let reached := run step start [.createKey, .increment 0, .takeSnapshot, .statement 0,
      .commit 0 "202601"]
    committed reached 0 + buffered reached 0 + inFlight reached 0 + dropped reached 0 =
        incrementsOf reached 0 ∧
      (committed reached 0 + buffered reached 0 + inFlight reached 0 = incrementsOf reached 0 ↔
        ∀ snapshot ∈ reached.failures, countOf snapshot 0 = 0) :=
  usage_conserved_but_failures [.createKey, .increment 0, .takeSnapshot, .statement 0,
    .commit 0 "202601"] 0 rfl

/-- The flush meets a key that was deleted, and the call of the other key is gone with it. -/
theorem deleted_key_drops_others :
    let reached := run step start [.createKey, .createKey, .increment 0, .increment 1,
      .takeSnapshot, .deleteKey 1, .statement 0, .statement 0]
    reached.keys 0 = true ∧ incrementsOf reached 0 = 1 ∧
      committed reached 0 + buffered reached 0 + inFlight reached 0 = 0 := by
  decide

end OdooSemantic.Mcp.UsageBuffer
