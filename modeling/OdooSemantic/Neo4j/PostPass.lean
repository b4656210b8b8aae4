import OdooSemantic.Lib.Run

/-!
# The version-wide post-pass and its stamp

One `PostPassState` node says whether the derived edges of a version follow
from its graph.  Runs mark it dirty before they write, deletes and re-owns after
they delete, and a post-pass stamps it clean unless a mark landed meanwhile.
-/

set_option autoImplicit false

namespace OdooSemantic.Neo4j.PostPass

open Lib.Run

inductive SubPass where
  | sameNameInherits | owlEdges | frameworkHelpers | testInherits | isHelper | testCoverage
  deriving DecidableEq

/-- The sub-passes of `index_profile` and `reconcile_test_surface`, in their order. -/
def subPasses : List SubPass :=
  [.sameNameInherits, .owlEdges, .frameworkHelpers, .testInherits, .isHelper, .testCoverage]

theorem mem_subPasses (pass : SubPass) : pass ∈ subPasses := by
  cases pass <;> decide

/-- The `PostPassState` node; instants are the server's milliseconds. -/
structure PostPassState where
  dirty : Bool
  dirtyAt : Option Nat
  token : Option String

/-- What a sub-pass of a post-pass read: how many changes were committed, none when it failed
and logged. -/
abbrev SubRead := SubPass × Option Nat

/-- Where a thread of a process stands. -/
inductive Phase where
  | idle
  | marking
  | indexing (markedAt : Nat)
  | deleted
  | deleteMarking
  | checking (started : Nat)
  | passing (started : Nat) (remaining : List SubPass) (reads : List SubRead)
  | recording (started : Nat) (reads : List SubRead)
  deriving DecidableEq

structure Thread where
  writer : Nat
  phase : Phase
  deriving DecidableEq

/-- `changes` counts the committed writes, deletes and re-owns.  History variables: `covered` is
how many of them the last successful run of a sub-pass read, `lastRead` the latest start of a
post-pass that has run a sub-pass. -/
structure State where
  clock : Nat
  changes : Nat
  post : Option PostPassState
  dirtied : Nat → Bool
  threads : List Thread
  covered : SubPass → Nat
  lastRead : Option Nat

inductive Action where
  | beginIndex
  | commitMark
  | write
  | endIndex
  | delete
  | addDirtied
  | startPass
  | check (token : String)
  | unreadable
  | runSubPass (succeeds : Bool)
  | discardDirtied
  | commitRecord (token : String)
  | raise

inductive Event where
  | tick
  | spawn (writer : Nat)
  | act (index : Nat) (action : Action)
  | ask (writer : Nat) (token : String)
  | crash (writer : Nat)

section Statements
variable (state : State)

def postPassCurrent (writer : Nat) (token : String) : Bool :=
  !state.dirtied writer && state.post.any fun post => !post.dirty && post.token == some token

/-- The statement of `mark_post_pass_dirty`. -/
def markDirty : Option PostPassState :=
  some { dirty := true, dirtyAt := some state.clock, token := state.post.bind (·.token) }

/-- A dirty mark landed at or after the start of the post-pass. -/
def isLate (started : Nat) : Bool :=
  (state.post.bind (·.dirtyAt)).any fun dirtyAt => decide (started ≤ dirtyAt)

/-- The statement of `record_post_pass`. -/
def recordPass (started : Nat) (token : String) : Option PostPassState :=
  some
    { dirty := isLate state started
      dirtyAt := state.post.bind (·.dirtyAt)
      token := if isLate state started then state.post.bind (·.token) else some token }

def setDirtied (writer : Nat) (value : Bool) : Nat → Bool :=
  fun other => if other = writer then value else state.dirtied other

/-- One step of a thread of `writer`: the shared state and the thread's next phase. -/
def advance (writer : Nat) : Phase → Action → State × Phase
  | .idle, .beginIndex => ({ state with dirtied := setDirtied state writer true }, .marking)
  | .marking, .commitMark => ({ state with post := markDirty state }, .indexing state.clock)
  | .indexing markedAt, .write => ({ state with changes := state.changes + 1 }, .indexing markedAt)
  | .indexing _, .endIndex => (state, .idle)
  | .idle, .delete => ({ state with changes := state.changes + 1 }, .deleted)
  | .deleted, .delete => ({ state with changes := state.changes + 1 }, .deleted)
  | .deleted, .addDirtied =>
      ({ state with dirtied := setDirtied state writer true }, .deleteMarking)
  | .deleteMarking, .commitMark => ({ state with post := markDirty state }, .idle)
  | .idle, .startPass => (state, .checking state.clock)
  | .checking started, .check token =>
      (state, if postPassCurrent state writer token then .idle else .passing started subPasses [])
  | .checking started, .unreadable => (state, .passing started subPasses [])
  | .passing started (pass :: rest) reads, .runSubPass succeeds =>
      if succeeds then
        ({ state with
            covered := fun other => if other = pass then state.changes else state.covered other
            lastRead := some (max started (state.lastRead.getD 0)) },
          .passing started rest (reads ++ [(pass, some state.changes)]))
      else
        ({ state with lastRead := some (max started (state.lastRead.getD 0)) },
          .passing started rest (reads ++ [(pass, none)]))
  | .passing started [] reads, .discardDirtied =>
      ({ state with dirtied := setDirtied state writer false }, .recording started reads)
  | .recording started _, .commitRecord token =>
      ({ state with post := recordPass state started token }, .idle)
  | _, .raise => (state, .idle)
  | phase, _ => (state, phase)

def step : Event → State
  | .tick => { state with clock := state.clock + 1 }
  | .spawn writer => { state with threads := state.threads ++ [⟨writer, .idle⟩] }
  | .act index action =>
      match state.threads[index]? with
      | none => state
      | some thread =>
          let (next, phase) := advance state thread.writer thread.phase action
          { next with threads := state.threads.set index { thread with phase } }
  | .ask _ _ => state
  | .crash writer =>
      { state with
        dirtied := setDirtied state writer false
        threads := state.threads.map fun thread =>
          if thread.writer = writer then { thread with phase := .idle } else thread }

end Statements

def State.initial : State :=
  { clock := 0, changes := 0, post := none, dirtied := fun _ => false, threads := []
    covered := fun _ => 0, lastRead := none }

/-- Every change so far was read by a successful run of every sub-pass. -/
def Derived (state : State) : Prop := ∀ pass, state.covered pass = state.changes

def SoundAnswer (state : State) : Event → Prop
  | .ask writer token => postPassCurrent state writer token = true → Derived state
  | .act index (.check token) =>
      ∀ thread started, state.threads[index]? = some thread → thread.phase = .checking started →
        postPassCurrent state thread.writer token = true → Derived state
  | _ => True

/-- A delete or re-own is committed and its dirty mark is not. -/
def Phase.unmarked : Phase → Bool
  | .deleted => true
  | .deleteMarking => true
  | _ => false

/-- What an action may not do: ask or stop between a delete and its mark, write once a
post-pass that started after the run's mark has run a sub-pass, or record a post-pass with a
failed sub-pass. -/
def careful (state : State) : Event → Bool
  | .tick => true
  | .spawn _ => true
  | .ask _ _ => state.threads.all fun thread => !thread.phase.unmarked
  | .crash writer => state.threads.all fun thread =>
      !(decide (thread.writer = writer) && thread.phase.unmarked)
  | .act index action =>
      state.threads[index]?.all fun thread =>
        match thread.phase, action with
        | .checking _, .check _ => state.threads.all fun other => !other.phase.unmarked
        | .indexing markedAt, .write => state.lastRead.all fun read => decide (read ≤ markedAt)
        | .recording _ reads, .commitRecord _ => reads.all fun read => read.2.isSome
        | phase, .raise => !phase.unmarked
        | _, _ => true

def State.dirtyAt (state : State) : Option Nat := state.post.bind (·.dirtyAt)

def Clean (state : State) : Prop := ∃ post, state.post = some post ∧ post.dirty = false

/-- A post-pass that started later than the instant has run a sub-pass. -/
def ReadSince (state : State) (instant : Nat) : Prop :=
  ∃ read, state.lastRead = some read ∧ instant ≤ read

def ReadsHold (pending : Prop) (state : State) (started : Nat) (reads : List SubRead) : Prop :=
  ∀ read ∈ reads, ∀ seen, read.2 = some seen → seen ≤ state.covered read.1 ∧
    (seen = state.changes ∨ isLate state started = true ∨ pending)

def Known (pending : Prop) (state : State) : Phase → Prop
  | .indexing markedAt =>
      ∃ dirtyAt, state.dirtyAt = some dirtyAt ∧ markedAt ≤ dirtyAt ∧
        (Clean state → ReadSince state (markedAt + 1))
  | .checking started => started ≤ state.clock
  | .passing started remaining reads =>
      started ≤ state.clock ∧ reads.map Prod.fst ++ remaining = subPasses ∧
        (reads ≠ [] → ReadSince state started) ∧ ReadsHold pending state started reads
  | .recording started reads =>
      started ≤ state.clock ∧ reads.map Prod.fst = subPasses ∧
        ReadSince state started ∧ ReadsHold pending state started reads
  | _ => True

def Pending (state : State) : Prop := ∃ thread ∈ state.threads, thread.phase.unmarked = true

structure Consistent (state : State) : Prop where
  covered_le : ∀ pass, state.covered pass ≤ state.changes
  stamped : ∀ dirtyAt, state.dirtyAt = some dirtyAt → dirtyAt ≤ state.clock
  derived : Clean state → Derived state ∨ Pending state
  threads : ∀ thread ∈ state.threads, Known (Pending state) state thread.phase

section Growth
variable {before after : State} {pending pending' : Prop}

structure Grows (pending pending' : Prop) (before after : State) : Prop where
  clock : before.clock ≤ after.clock
  dirtyAt : ∀ dirtyAt, before.dirtyAt = some dirtyAt →
    ∃ later, after.dirtyAt = some later ∧ dirtyAt ≤ later
  lastRead : ∀ instant, ReadSince before instant → ReadSince after instant
  covered : ∀ pass, before.covered pass ≤ after.covered pass
  settled : ∀ started, started ≤ before.clock → ReadSince before started →
    (after.changes = before.changes ∧ (pending → isLate after started = true ∨ pending')) ∨
      isLate after started = true ∨ pending'
  cleaned : ∀ markedAt, Known pending before (.indexing markedAt) → Clean after →
    ReadSince after (markedAt + 1)

theorem isLate_iff {state : State} {started : Nat} :
    isLate state started = true ↔ ∃ dirtyAt, state.dirtyAt = some dirtyAt ∧ started ≤ dirtyAt := by
  unfold isLate State.dirtyAt
  cases state.post.bind (·.dirtyAt) with
  | none | some dirtyAt => simp

theorem Grows.isLate (grows : Grows pending pending' before after) {started : Nat}
    (late : isLate before started = true) : PostPass.isLate after started = true := by
  obtain ⟨dirtyAt, isDirty, after'⟩ := isLate_iff.mp late
  obtain ⟨later, isLater, le⟩ := grows.dirtyAt dirtyAt isDirty
  exact isLate_iff.mpr ⟨later, isLater, by omega⟩

theorem ReadsHold.grow {started : Nat} {reads : List SubRead}
    (known : ReadsHold pending before started reads)
    (grows : Grows pending pending' before after) (early : started ≤ before.clock)
    (read : reads ≠ [] → ReadSince before started) : ReadsHold pending' after started reads := by
  intro entry entryIn seen isSeen
  obtain ⟨le, holds⟩ := known entry entryIn seen isSeen
  have below := grows.covered entry.1
  refine ⟨by omega, ?_⟩
  rcases grows.settled started early (read (List.ne_nil_of_mem entryIn)) with
    ⟨same, marks⟩ | late | mark
  · rcases holds with all | late | mark
    · exact Or.inl (all.trans same.symm)
    · exact Or.inr (Or.inl (grows.isLate late))
    · exact Or.inr (marks mark)
  · exact Or.inr (Or.inl late)
  · exact Or.inr (Or.inr mark)

theorem Known.grow {phase : Phase} (known : Known pending before phase)
    (grows : Grows pending pending' before after) : Known pending' after phase := by
  cases phase with
  | indexing markedAt =>
      have marked := known
      obtain ⟨dirtyAt, isDirty, le, -⟩ := marked
      obtain ⟨later, isLater, le'⟩ := grows.dirtyAt dirtyAt isDirty
      exact ⟨later, isLater, by omega, grows.cleaned markedAt known⟩
  | checking started => exact Nat.le_trans known grows.clock
  | passing started remaining reads =>
      obtain ⟨early, all, read, holds⟩ := known
      exact ⟨Nat.le_trans early grows.clock, all, fun some => grows.lastRead _ (read some),
        holds.grow grows early read⟩
  | recording started reads =>
      obtain ⟨early, all, read, holds⟩ := known
      exact ⟨Nat.le_trans early grows.clock, all, grows.lastRead _ read,
        holds.grow grows early fun _ => read⟩
  | _ => trivial

/-- A step that changes neither the stamp nor the counters. -/
theorem Grows.same (clock : before.clock ≤ after.clock) (post : after.post = before.post)
    (lastRead : after.lastRead = before.lastRead) (covered : after.covered = before.covered)
    (changes : after.changes = before.changes) (marks : pending → pending') :
    Grows pending pending' before after := by
  have dirtyAt : after.dirtyAt = before.dirtyAt := by simp [State.dirtyAt, post]
  refine ⟨clock, ?_, ?_, ?_, ?_, ?_⟩
  · intro instant isDirty
    exact ⟨instant, dirtyAt.trans isDirty, Nat.le_refl _⟩
  · intro instant read
    simpa [ReadSince, lastRead] using read
  · intro pass
    exact Nat.le_of_eq (congrFun covered.symm pass)
  · intro started _ _
    exact Or.inl ⟨changes, fun mark => Or.inr (marks mark)⟩
  · intro markedAt known clean
    obtain ⟨-, -, -, since⟩ := known
    have cleanBefore : Clean before := by simpa [Clean, post] using clean
    simpa [ReadSince, lastRead] using since cleanBefore

end Growth

def withThread (state next : State) (index : Nat) (thread : Thread) (phase : Phase) : State :=
  { next with threads := state.threads.set index { thread with phase } }

section Steps
variable {state next : State} {index : Nat} {thread : Thread} {phase : Phase}

theorem pending_of_unmarked (found : state.threads[index]? = some thread)
    (unmarked : phase.unmarked = true) : Pending (withThread state next index thread phase) := by
  have bound : index < state.threads.length := (List.getElem?_eq_some_iff.mp found).1
  exact ⟨{ thread with phase }, List.mem_iff_getElem.mpr
    ⟨index, by simpa [withThread] using bound, by simp [withThread]⟩, unmarked⟩

theorem pending_withThread (found : state.threads[index]? = some thread)
    (keeps : thread.phase.unmarked = true → phase.unmarked = true) (pending : Pending state) :
    Pending (withThread state next index thread phase) := by
  obtain ⟨other, otherIn, unmarked⟩ := pending
  by_cases same : other = thread
  · rw [same] at unmarked
    exact pending_of_unmarked found (keeps unmarked)
  · obtain ⟨position, bound, isOther⟩ := List.mem_iff_getElem.mp otherIn
    have apart : index ≠ position := by
      rintro rfl
      rw [List.getElem?_eq_getElem bound] at found
      exact same (isOther.symm.trans (Option.some.inj found))
    refine ⟨other, List.mem_iff_getElem.mpr ⟨position, by simpa [withThread] using bound, ?_⟩,
      unmarked⟩
    simpa [withThread, List.getElem_set_ne apart] using isOther

theorem Consistent.withThread (consistent : Consistent state)
    (grows : Grows (Pending state) (Pending (withThread state next index thread phase)) state
      (withThread state next index thread phase))
    (covered_le : ∀ pass, next.covered pass ≤ next.changes)
    (stamped : ∀ dirtyAt, next.dirtyAt = some dirtyAt → dirtyAt ≤ next.clock)
    (derived : Clean next → Derived next ∨ Pending (PostPass.withThread state next index thread phase))
    (known : Known (Pending (PostPass.withThread state next index thread phase))
      (PostPass.withThread state next index thread phase) phase) :
    Consistent (PostPass.withThread state next index thread phase) := by
  refine ⟨covered_le, stamped, derived, ?_⟩
  intro other otherIn
  rcases List.mem_or_eq_of_mem_set otherIn with old | rfl
  · exact (consistent.threads other old).grow grows
  · exact known

/-- A step that changes neither the stamp nor the counters, and loses no pending mark. -/
theorem Consistent.quiet (consistent : Consistent state)
    (found : state.threads[index]? = some thread) (clock : next.clock = state.clock)
    (post : next.post = state.post) (lastRead : next.lastRead = state.lastRead)
    (covered : next.covered = state.covered) (changes : next.changes = state.changes)
    (keeps : thread.phase.unmarked = true → phase.unmarked = true)
    (known : ∀ pending, Known pending (PostPass.withThread state next index thread thread.phase)
        thread.phase → Known pending (PostPass.withThread state next index thread phase) phase) :
    Consistent (PostPass.withThread state next index thread phase) := by
  have marks := @pending_withThread state next index thread phase found keeps
  have grows : ∀ other, Grows (Pending state) (Pending (PostPass.withThread state next index thread phase))
      state (PostPass.withThread state next index thread other) := fun other =>
    Grows.same (Nat.le_of_eq clock.symm) post lastRead covered changes marks
  refine consistent.withThread (grows phase) ?_ ?_ ?_ ?_
  · intro pass
    rw [covered, changes]
    exact consistent.covered_le pass
  · intro dirtyAt isDirty
    rw [clock]
    exact consistent.stamped dirtyAt (by simpa [State.dirtyAt, post] using isDirty)
  · intro clean
    have cleanBefore : Clean state := by simpa [Clean, post] using clean
    rcases consistent.derived cleanBefore with all | pending
    · left
      intro pass
      rw [covered, changes]
      exact all pass
    · exact Or.inr (marks pending)
  · exact known _ ((consistent.threads thread (List.mem_of_getElem? found)).grow (grows thread.phase))

theorem Consistent.idles (consistent : Consistent state) (found : state.threads[index]? = some thread)
    (owesNone : thread.phase.unmarked = false) :
    Consistent (PostPass.withThread state state index thread .idle) := by
  apply consistent.quiet found rfl rfl rfl rfl rfl
  · intro owes
    rw [owesNone] at owes
    cases owes
  · exact fun _ _ => trivial

theorem Consistent.mark (consistent : Consistent state) (writesAfter : phase = .indexing state.clock ∨ phase = .idle)
    (post : next = { state with post := markDirty state }) :
    Consistent (PostPass.withThread state next index thread phase) := by
  subst post
  have late : ∀ started, started ≤ state.clock → isLate
      (PostPass.withThread state { state with post := markDirty state } index thread phase) started = true := by
    intro started early
    exact isLate_iff.mpr ⟨state.clock, rfl, early⟩
  have soiled : ¬ Clean (PostPass.withThread state { state with post := markDirty state } index thread phase) := by
    rintro ⟨post, isPost, clean⟩
    cases isPost
    cases clean
  refine consistent.withThread ⟨Nat.le_refl _, ?_, fun _ read => read, fun _ => Nat.le_refl _, ?_, ?_⟩
    consistent.covered_le ?_ (fun clean => absurd clean soiled) ?_
  · intro dirtyAt isDirty
    exact ⟨state.clock, rfl, consistent.stamped dirtyAt isDirty⟩
  · intro started early _
    exact Or.inr (Or.inl (late started early))
  · intro markedAt _ clean
    exact absurd clean soiled
  · intro dirtyAt isDirty
    cases isDirty
    exact Nat.le_refl _
  · rcases writesAfter with rfl | rfl
    · exact ⟨state.clock, rfl, Nat.le_refl _, fun clean => absurd clean soiled⟩
    · trivial

theorem Consistent.write (consistent : Consistent state) {markedAt : Nat}
    (found : state.threads[index]? = some thread) (isIndexing : thread.phase = .indexing markedAt)
    (unread : (state.lastRead.all fun read => decide (read ≤ markedAt)) = true) :
    Consistent (PostPass.withThread state { state with changes := state.changes + 1 } index thread
      (.indexing markedAt)) := by
  have marks := @pending_withThread state { state with changes := state.changes + 1 } index thread
    (.indexing markedAt) found (by rw [isIndexing]; exact id)
  obtain ⟨dirtyAt, isDirty, le, since⟩ : Known (Pending state) state (.indexing markedAt) := by
    rw [← isIndexing]
    exact consistent.threads thread (List.mem_of_getElem? found)
  have readBefore : ∀ instant, ReadSince state instant → instant ≤ markedAt := by
    rintro instant ⟨read, isRead, after⟩
    have early : read ≤ markedAt := by simpa [isRead] using unread
    omega
  have soiled : ¬ Clean state := by
    intro clean
    have after := readBefore _ (since clean)
    omega
  refine consistent.withThread ⟨Nat.le_refl _, fun dirtyAt isDirty => ⟨dirtyAt, isDirty, Nat.le_refl _⟩,
    fun _ read => read, fun _ => Nat.le_refl _, ?_, fun _ _ clean => absurd clean soiled⟩ ?_
    consistent.stamped (fun clean => absurd clean soiled)
    ⟨dirtyAt, isDirty, le, fun clean => absurd clean soiled⟩
  · intro started _ read
    have early := readBefore started read
    exact Or.inr (Or.inl (isLate_iff.mpr ⟨dirtyAt, isDirty, by omega⟩))
  · intro pass
    have below := consistent.covered_le pass
    simp only
    omega

/-- A delete or re-own is pending until it is marked. -/
theorem Consistent.delete (consistent : Consistent state)
    (found : state.threads[index]? = some thread) :
    Consistent (PostPass.withThread state { state with changes := state.changes + 1 } index thread
      .deleted) := by
  have pending := @pending_of_unmarked state { state with changes := state.changes + 1 } index thread
    .deleted found rfl
  refine consistent.withThread ⟨Nat.le_refl _, fun dirtyAt isDirty => ⟨dirtyAt, isDirty, Nat.le_refl _⟩,
    fun _ read => read, fun _ => Nat.le_refl _, fun _ _ _ => Or.inr (Or.inr pending), ?_⟩ ?_
    consistent.stamped (fun _ => Or.inr pending) trivial
  · intro markedAt known clean
    obtain ⟨-, -, -, since⟩ := known
    exact since clean
  · intro pass
    have below := consistent.covered_le pass
    simp only
    omega

theorem Consistent.runSubPass (consistent : Consistent state) {started : Nat} {pass : SubPass}
    {rest : List SubPass} {reads : List SubRead} {seen : Option Nat} {covered : SubPass → Nat}
    (found : state.threads[index]? = some thread)
    (isPassing : thread.phase = .passing started (pass :: rest) reads)
    (isNext : next = { state with covered, lastRead := some (max started (state.lastRead.getD 0)) })
    (isCovered : ∀ other, covered other = state.covered other ∨ covered other = state.changes)
    (isSeen : ∀ count, seen = some count → count = state.changes ∧ covered pass = state.changes) :
    Consistent (PostPass.withThread state next index thread
      (.passing started rest (reads ++ [(pass, seen)]))) := by
  subst isNext
  have marks := @pending_withThread state
    { state with covered, lastRead := some (max started (state.lastRead.getD 0)) } index thread
    (.passing started rest (reads ++ [(pass, seen)])) found (by rw [isPassing]; exact id)
  obtain ⟨early, all, read, holds⟩ :
      Known (Pending state) state (.passing started (pass :: rest) reads) := by
    rw [← isPassing]
    exact consistent.threads thread (List.mem_of_getElem? found)
  have grows : Grows (Pending state) (Pending (PostPass.withThread state
      { state with covered, lastRead := some (max started (state.lastRead.getD 0)) } index thread
      (.passing started rest (reads ++ [(pass, seen)])))) state (PostPass.withThread state
      { state with covered, lastRead := some (max started (state.lastRead.getD 0)) } index thread
      (.passing started rest (reads ++ [(pass, seen)]))) := by
    have later : ∀ instant, ReadSince state instant → ReadSince (PostPass.withThread state
        { state with covered, lastRead := some (max started (state.lastRead.getD 0)) } index thread
        (.passing started rest (reads ++ [(pass, seen)]))) instant := by
      rintro instant ⟨last, isLast, le⟩
      refine ⟨_, rfl, ?_⟩
      rw [isLast, Option.getD_some]
      omega
    refine ⟨Nat.le_refl _, fun dirtyAt isDirty => ⟨dirtyAt, isDirty, Nat.le_refl _⟩, later, ?_,
      fun _ _ _ => Or.inl ⟨rfl, fun pending => Or.inr (marks pending)⟩, ?_⟩
    · intro other
      have below := consistent.covered_le other
      change state.covered other ≤ covered other
      rcases isCovered other with same | all
      · omega
      · omega
    · intro markedAt known clean
      obtain ⟨-, -, -, since⟩ := known
      exact later _ (since clean)
  refine consistent.withThread grows ?_ consistent.stamped ?_ ?_
  · intro other
    have below := consistent.covered_le other
    change covered other ≤ state.changes
    rcases isCovered other with same | all
    · omega
    · omega
  · intro clean
    rcases consistent.derived clean with derived | pending
    · left
      intro other
      change covered other = state.changes
      rcases isCovered other with same | all
      · exact same.trans (derived other)
      · exact all
    · exact Or.inr (marks pending)
  · refine ⟨early, by simpa using all, fun _ => ⟨_, rfl, Nat.le_max_left _ _⟩, ?_⟩
    intro entry entryIn count isCount
    rcases List.mem_append.mp entryIn with old | new
    · exact holds.grow grows early read entry old count isCount
    · rw [List.mem_singleton.mp new] at isCount ⊢
      obtain ⟨isAll, coversPass⟩ := isSeen count isCount
      refine ⟨?_, Or.inl isAll⟩
      change count ≤ covered pass
      omega

theorem Consistent.record (consistent : Consistent state) {started : Nat} {reads : List SubRead}
    (found : state.threads[index]? = some thread)
    (isRecording : thread.phase = .recording started reads)
    (succeeded : (reads.all fun read => read.2.isSome) = true) (token : String) :
    Consistent (PostPass.withThread state { state with post := recordPass state started token } index
      thread .idle) := by
  have marks := @pending_withThread state { state with post := recordPass state started token } index
    thread .idle found (by rw [isRecording]; exact id)
  obtain ⟨early, all, read, holds⟩ : Known (Pending state) state (.recording started reads) := by
    rw [← isRecording]
    exact consistent.threads thread (List.mem_of_getElem? found)
  have sameDirty : (PostPass.withThread state { state with post := recordPass state started token }
      index thread .idle).dirtyAt = state.dirtyAt := rfl
  have onTime : Clean (PostPass.withThread state { state with post := recordPass state started token }
      index thread .idle) → isLate state started = false := by
    rintro ⟨post, isPost, clean⟩
    cases isPost
    exact clean
  refine consistent.withThread ⟨Nat.le_refl _, fun dirtyAt isDirty => ⟨dirtyAt, isDirty, Nat.le_refl _⟩,
    fun _ read => read, fun _ => Nat.le_refl _,
    fun _ _ _ => Or.inl ⟨rfl, fun pending => Or.inr (marks pending)⟩, ?_⟩
    consistent.covered_le consistent.stamped ?_ trivial
  · intro markedAt known clean
    obtain ⟨dirtyAt, isDirty, le, -⟩ := known
    obtain ⟨instant, isRead, after⟩ := read
    have notLate := onTime clean
    have earlier : dirtyAt < started := by
      by_contra later
      rw [isLate_iff.mpr ⟨dirtyAt, isDirty, by omega⟩] at notLate
      cases notLate
    exact ⟨instant, isRead, by omega⟩
  · intro clean
    by_cases pending : Pending state
    · exact Or.inr (marks pending)
    · left
      intro pass
      obtain ⟨entry, entryIn, isPass⟩ := List.mem_map.mp (all ▸ mem_subPasses pass)
      have success := List.all_eq_true.mp succeeded entry entryIn
      obtain ⟨seen, isSeen⟩ := Option.isSome_iff_exists.mp success
      obtain ⟨le, isAll⟩ := holds entry entryIn seen isSeen
      have below := consistent.covered_le pass
      rcases isAll with isAll | late | mark
      · rw [isPass] at le
        simp only
        omega
      · rw [onTime clean] at late
        cases late
      · exact absurd mark pending

theorem Consistent.act (consistent : Consistent state) (found : state.threads[index]? = some thread)
    (action : Action) (isCareful : careful state (.act index action) = true) :
    Consistent (PostPass.withThread state (advance state thread.writer thread.phase action).1 index
      thread (advance state thread.writer thread.phase action).2) := by
  have unchanged : Consistent (PostPass.withThread state state index thread thread.phase) :=
    consistent.quiet found rfl rfl rfl rfl rfl id fun _ known => known
  simp only [careful, found, Option.all_some] at isCareful
  cases isPhase : thread.phase with
  | idle =>
      rw [isPhase] at unchanged
      have quiet : ∀ (next : State) (phase : Phase), next.clock = state.clock → next.post = state.post →
          next.lastRead = state.lastRead → next.covered = state.covered →
          next.changes = state.changes → (∀ pending, Known pending
            (PostPass.withThread state next index thread phase) phase) →
          Consistent (PostPass.withThread state next index thread phase) :=
        fun next phase clock post lastRead covered changes known =>
          consistent.quiet found clock post lastRead covered changes
            (by rw [isPhase]; exact nofun) fun pending _ => known pending
      cases action with
      | beginIndex => exact quiet _ .marking rfl rfl rfl rfl rfl fun _ => trivial
      | delete => exact consistent.delete found
      | startPass => exact quiet _ (.checking state.clock) rfl rfl rfl rfl rfl fun _ => Nat.le_refl _
      | _ => exact unchanged
  | marking =>
      rw [isPhase] at unchanged
      cases action with
      | commitMark => exact consistent.mark (Or.inl rfl) rfl
      | raise => exact consistent.idles found (by rw [isPhase]; rfl)
      | _ => exact unchanged
  | indexing markedAt =>
      rw [isPhase] at unchanged isCareful
      cases action with
      | write => exact consistent.write found isPhase isCareful
      | endIndex | raise => exact consistent.idles found (by rw [isPhase]; rfl)
      | _ => exact unchanged
  | deleted =>
      rw [isPhase] at unchanged isCareful
      cases action with
      | delete => exact consistent.delete found
      | addDirtied => exact consistent.quiet found rfl rfl rfl rfl rfl (fun _ => rfl) fun _ _ => trivial
      | raise => cases isCareful
      | _ => exact unchanged
  | deleteMarking =>
      rw [isPhase] at unchanged isCareful
      cases action with
      | commitMark => exact consistent.mark (Or.inr rfl) rfl
      | raise => cases isCareful
      | _ => exact unchanged
  | checking started =>
      rw [isPhase] at unchanged
      have passing : Consistent (PostPass.withThread state state index thread
          (.passing started subPasses [])) := by
        refine consistent.quiet found rfl rfl rfl rfl rfl (by rw [isPhase]; exact nofun) fun pending known => ?_
        rw [isPhase] at known
        exact ⟨known, rfl, fun some => absurd rfl some, fun _ entryIn => absurd entryIn List.not_mem_nil⟩
      cases action with
      | check token =>
          simp only [advance]
          split
          · exact consistent.idles found (by rw [isPhase]; rfl)
          · exact passing
      | unreadable => exact passing
      | raise => exact consistent.idles found (by rw [isPhase]; rfl)
      | _ => exact unchanged
  | passing started remaining reads =>
      rw [isPhase] at unchanged
      cases remaining with
      | nil =>
          cases action with
          | discardDirtied =>
              refine consistent.quiet found rfl rfl rfl rfl rfl (by rw [isPhase]; exact nofun) fun pending known => ?_
              rw [isPhase] at known
              obtain ⟨early, all, read, holds⟩ := known
              rw [List.append_nil] at all
              refine ⟨early, all, read ?_, holds⟩
              rintro rfl
              cases all
          | raise => exact consistent.idles found (by rw [isPhase]; rfl)
          | _ => exact unchanged
      | cons pass rest =>
          cases action with
          | runSubPass succeeds =>
              cases succeeds with
              | true =>
                  refine consistent.runSubPass found isPhase rfl ?_ ?_
                  · intro other
                    by_cases same : other = pass
                    · simp [same]
                    · simp [same]
                  · intro count isCount
                    cases isCount
                    simp
              | false =>
                  exact consistent.runSubPass found isPhase rfl (fun _ => Or.inl rfl) nofun
          | raise => exact consistent.idles found (by rw [isPhase]; rfl)
          | _ => exact unchanged
  | recording started reads =>
      rw [isPhase] at unchanged isCareful
      cases action with
      | commitRecord token => exact consistent.record found isPhase isCareful token
      | raise => exact consistent.idles found (by rw [isPhase]; rfl)
      | _ => exact unchanged

end Steps

theorem Consistent.crash {state : State} (consistent : Consistent state) (writer : Nat)
    (isCareful : careful state (.crash writer) = true) :
    Consistent (PostPass.step state (.crash writer)) := by
  have marks : Pending state → Pending (PostPass.step state (.crash writer)) := by
    rintro ⟨thread, threadIn, unmarked⟩
    have alive := List.all_eq_true.mp isCareful thread threadIn
    have other : ¬ thread.writer = writer := by
      intro same
      simp [same, unmarked] at alive
    exact ⟨thread, List.mem_map.mpr ⟨thread, threadIn, if_neg other⟩, unmarked⟩
  have grows : Grows (Pending state) (Pending (PostPass.step state (.crash writer))) state
      (PostPass.step state (.crash writer)) := Grows.same (Nat.le_refl _) rfl rfl rfl rfl marks
  refine ⟨consistent.covered_le, consistent.stamped, ?_, ?_⟩
  · intro clean
    exact (consistent.derived clean).imp id marks
  · intro thread threadIn
    obtain ⟨old, oldIn, rfl⟩ := List.mem_map.mp threadIn
    by_cases same : old.writer = writer
    · rw [if_pos same]
      trivial
    · rw [if_neg same]
      exact (consistent.threads old oldIn).grow grows

theorem Consistent.step {state : State} (consistent : Consistent state) (event : Event)
    (isCareful : careful state event = true) : Consistent (PostPass.step state event) := by
  cases event with
  | tick =>
      have grows : Grows (Pending state) (Pending state) state (PostPass.step state .tick) :=
        Grows.same (Nat.le_succ _) rfl rfl rfl rfl id
      refine ⟨consistent.covered_le, ?_, consistent.derived, ?_⟩
      · intro dirtyAt isDirty
        exact Nat.le_succ_of_le (consistent.stamped dirtyAt isDirty)
      · intro thread threadIn
        exact (consistent.threads thread threadIn).grow grows
  | spawn writer =>
      have marks : Pending state → Pending (PostPass.step state (.spawn writer)) := by
        rintro ⟨thread, threadIn, unmarked⟩
        exact ⟨thread, List.mem_append_left _ threadIn, unmarked⟩
      have grows : Grows (Pending state) (Pending (PostPass.step state (.spawn writer))) state
          (PostPass.step state (.spawn writer)) := Grows.same (Nat.le_refl _) rfl rfl rfl rfl marks
      refine ⟨consistent.covered_le, consistent.stamped, ?_, ?_⟩
      · intro clean
        exact (consistent.derived clean).imp id marks
      · intro thread threadIn
        rcases List.mem_append.mp threadIn with old | new
        · exact (consistent.threads thread old).grow grows
        · rw [List.mem_singleton.mp new]
          trivial
  | act index action =>
      cases found : state.threads[index]? with
      | none =>
          simp only [PostPass.step, found]
          exact consistent
      | some thread =>
          have acted := consistent.act found action isCareful
          simp only [PostPass.step, found]
          exact acted
  | ask writer token => exact consistent
  | crash writer => exact consistent.crash writer isCareful

theorem Consistent.sound {state : State} (consistent : Consistent state) {writer : Nat}
    {token : String} (marked : (state.threads.all fun thread => !thread.phase.unmarked) = true)
    (answer : postPassCurrent state writer token = true) : Derived state := by
  have clean : Clean state := by
    simp only [postPassCurrent, Bool.and_eq_true] at answer
    obtain ⟨post, isPost, isClean⟩ := Option.any_eq_true .. |>.mp answer.2
    simp only [Bool.and_eq_true, Bool.not_eq_true'] at isClean
    exact ⟨post, isPost, isClean.1⟩
  rcases consistent.derived clean with derived | ⟨thread, threadIn, unmarked⟩
  · exact derived
  · have isMarked := List.all_eq_true.mp marked thread threadIn
    rw [unmarked] at isMarked
    cases isMarked

theorem Consistent.soundAnswer {state : State} (consistent : Consistent state) (event : Event)
    (isCareful : careful state event = true) : SoundAnswer state event := by
  cases event with
  | ask writer token => exact consistent.sound isCareful
  | act index action =>
      cases action with
      | check token =>
          intro thread started found isPhase answer
          simp only [careful, found, Option.all_some, isPhase] at isCareful
          exact consistent.sound isCareful answer
      | _ => trivial
  | _ => trivial

theorem consistent_initial : Consistent .initial := by
  refine ⟨fun _ => Nat.le_refl _, nofun, ?_, fun _ threadIn => absurd threadIn List.not_mem_nil⟩
  rintro ⟨post, isPost, -⟩
  cases isPost

/-- In every interleaving of index runs, deletes, re-owns, post-passes and crashes whose steps
are careful, a True answer of `post_pass_current` means that every sub-pass has succeeded on a
graph with every change made so far. -/
theorem post_pass_stamp_sound (events : List Event)
    (isCareful : AllSteps step (fun state event => careful state event = true) .initial events) :
    AllSteps step SoundAnswer .initial events :=
  allSteps_of_guarded step _ SoundAnswer Consistent
    (fun _ event isCareful consistent => consistent.step event isCareful)
    (fun _ event isCareful consistent => consistent.soundAnswer event isCareful)
    events .initial isCareful consistent_initial

def passEvents (index : Nat) (succeed : List Bool) : List Event :=
  [.act index .startPass, .act index (.check "src-1")] ++
    succeed.map (fun succeeds => Event.act index (.runSubPass succeeds)) ++
    [.act index .discardDirtied, .act index (.commitRecord "src-1")]

def indexEvents (index : Nat) : List Event :=
  [.act index .beginIndex, .act index .commitMark, .act index .write, .act index .endIndex, .tick]

def indexed : List Event := [.spawn 0, .spawn 1] ++ indexEvents 0

def wellRecorded : List Event :=
  indexed ++ passEvents 0 [true, true, true, true, true, true] ++ [.ask 1 "src-1"]

def failedSubPass : List Event := indexed ++ passEvents 0 [false, true, true, true, true, true]

def crashedDelete : List Event :=
  indexed ++ passEvents 0 [true, true, true, true, true, true] ++ [.act 0 .delete, .crash 0]

def lateWrite : List Event :=
  [.spawn 0, .spawn 1, .act 0 .beginIndex, .act 0 .commitMark, .tick] ++
    passEvents 1 [true, true, true, true, true, true] ++ [.act 0 .write, .crash 0]

/-- `post_pass_current` answers True to a new process after the events, on a changed graph. -/
def answersWrongly (events : List Event) : Bool :=
  postPassCurrent (run step .initial events) 2 "src-1" &&
    decide ((run step .initial events).covered .sameNameInherits <
      (run step .initial events).changes)

theorem well_recorded_sound : AllSteps step SoundAnswer .initial wellRecorded := by
  have isCareful : AllSteps step (fun state event => careful state event = true) .initial
      wellRecorded := by
    decide +kernel
  exact post_pass_stamp_sound wellRecorded isCareful

theorem unsound_of_answersWrongly {events : List Event} (wrong : answersWrongly events = true) :
    ¬ SoundAnswer (run step .initial events) (.ask 2 "src-1") := by
  intro sound
  simp only [answersWrongly, Bool.and_eq_true, decide_eq_true_eq] at wrong
  have derived := sound wrong.1 .sameNameInherits
  omega

/-- A recorded pass with a failed sub-pass, a delete whose mark was lost, and a write after a
recorded pass: each time a new process is told that the post-pass is current. -/
theorem answered_wrongly :
    ¬ SoundAnswer (run step .initial failedSubPass) (.ask 2 "src-1") ∧
      ¬ SoundAnswer (run step .initial crashedDelete) (.ask 2 "src-1") ∧
      ¬ SoundAnswer (run step .initial lateWrite) (.ask 2 "src-1") :=
  ⟨unsound_of_answersWrongly (by decide +kernel), unsound_of_answersWrongly (by decide +kernel),
    unsound_of_answersWrongly (by decide +kernel)⟩

end OdooSemantic.Neo4j.PostPass
