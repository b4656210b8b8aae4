import OdooSemantic.Lib.Run
import OdooSemantic.Mcp.Boundary

/-!
# The scope epoch and the caches it drops

Every cached read of the profile registry first polls a fingerprint of it, at most
once in an interval, and drops the caches when the fingerprint changed.  The poll,
the drop and the fills are lock sections of their own with reads of the registry
between them.
-/

set_option autoImplicit false

namespace OdooSemantic.Mcp.ScopeEpoch

open Lib.Run Lib.Py Mcp.Boundary

inductive Key where
  | scope (tenantId : Nat)
  | chain (profileName : String)
  | shared
  deriving DecidableEq

inductive Value where
  | scope (own shared : List String)
  | names (names : List String)
  deriving DecidableEq

/-- What a lookup reads of the registry, and whether it is cached. -/
def load (profiles : List ProfileRow) : Key → Value × Bool
  | .scope tenantId =>
      (.scope (sorted ((profiles.filter (·.tenantId == some tenantId)).map (·.name)))
        (sharedProfileNames profiles), true)
  | .chain profileName =>
      let chain := getAncestorProfileNames profiles profileName
      if chain.head? = some profileName then (.names chain, true)
      else (.names [profileName], false)
  | .shared => (.names (sharedProfileNames profiles), true)

structure Entry where
  key : Key
  value : Read Value
  expires : Nat

def cacheTtlSec : Nat := 60
def scopeEpochCheckSec : Nat := 5
def chainCacheMax : Nat := 10000

def isChain : Key → Bool
  | .chain _ => true
  | _ => false

def stored (caches : List Entry) (key : Key) (now : Nat) : Option (Read Value) :=
  ((caches.find? fun entry => entry.key == key).filter fun entry =>
    decide (entry.expires > now)).map (·.value)

def store (caches : List Entry) (entry : Entry) : List Entry :=
  let room := if isChain entry.key &&
      decide ((caches.filter fun other => isChain other.key).length ≥ chainCacheMax)
    then caches.filter fun other => !isChain other.key else caches
  entry :: room.filter fun other => other.key != entry.key

/-- `invalidate_allowed_profiles`: shared and chains, and one scope or all. -/
def invalidate (caches : List Entry) (tenantId : Option Nat) : List Entry :=
  match tenantId with
  | none => []
  | some tenantId => caches.filter fun entry => match entry.key with
      | .scope other => other != tenantId
      | _ => false

/-- What a task has: the epoch of its resource key, and what its lookups returned since. -/
structure Task where
  epoch : Option String
  used : List (Read Value)
  deriving DecidableEq

inductive Purpose where
  | lookup (key : Key)
  | resourceKey
  deriving DecidableEq

inductive Phase where
  | ready (task : Task)
  | polling (task : Task) (purpose : Purpose)
  | fetching (task : Task) (purpose : Purpose) (previous : Option String)
  | fetched (task : Task) (purpose : Purpose) (previous : Option String) (fingerprint : String)
  | dropping (task : Task) (purpose : Purpose) (fingerprint : String)
  | looking (task : Task) (key : Key)
  | loading (task : Task) (key : Key) (now : Nat)
  | loaded (task : Task) (key : Key) (value : Read Value) (now : Nat)
  deriving DecidableEq

/-- A resource body under the epoch of its key, with the lookups it was rendered from. -/
structure Body where
  thread : Nat
  epoch : String
  used : List (Read Value)

structure Scopes where
  epoch : Option String
  checkedAt : Option Nat
  caches : List Entry

structure State where
  profiles : List ProfileRow
  past : List (List ProfileRow)
  scopes : Scopes
  bodies : List Body
  phase : Nat → Phase

def State.changes (state : State) : Nat := state.past.length

section Machine
variable (fingerprint : List ProfileRow → String)

/-- What follows the answer of `scope_epoch`. -/
def answered (task : Task) (epoch : String) : Purpose → Phase
  | .lookup key => .looking task key
  | .resourceKey => .ready ⟨some epoch, []⟩

/-- The next section of a thread in this phase: what it leaves, and the phase it goes to.
`fails` is an unreachable registry. -/
def advance (state : State) (now : Nat) (fails : Bool) : Phase → Scopes × Phase
  | .ready task => (state.scopes, .ready task)
  | .polling task purpose =>
      if state.scopes.checkedAt.any fun checked => decide (now - checked < scopeEpochCheckSec) then
        (state.scopes, answered task (state.scopes.epoch.getD "") purpose)
      else
        ({ state.scopes with checkedAt := some now }, .fetching task purpose state.scopes.epoch)
  | .fetching task purpose previous =>
      if fails then (state.scopes, answered task (previous.getD "") purpose)
      else (state.scopes, .fetched task purpose previous (fingerprint state.profiles))
  | .fetched task purpose previous current =>
      if previous.any (· != current) then
        ({ state.scopes with epoch := some current }, .dropping task purpose current)
      else ({ state.scopes with epoch := some current }, answered task current purpose)
  | .dropping task purpose current =>
      ({ state.scopes with caches := invalidate state.scopes.caches none },
        answered task current purpose)
  | .looking task key =>
      match stored state.scopes.caches key now with
      | some value => (state.scopes, .ready { task with used := task.used ++ [value] })
      | none => (state.scopes, .loading task key now)
  | .loading task key since =>
      let read : Read Value := ⟨(load state.profiles key).1, state.changes⟩
      if fails then (state.scopes, .ready task)
      else if (load state.profiles key).2 then (state.scopes, .loaded task key read since)
      else (state.scopes, .ready { task with used := task.used ++ [read] })
  | .loaded task key value since =>
      ({ state.scopes with
          caches := store state.scopes.caches ⟨key, value, since + cacheTtlSec⟩ },
        .ready { task with used := task.used ++ [value] })

def act (state : State) (thread now : Nat) (fails : Bool) : State :=
  let next := advance fingerprint state now fails (state.phase thread)
  { state with scopes := next.1, phase := Function.update state.phase thread next.2 }

inductive Event where
  | change (profiles : List ProfileRow)
  | invalidate (tenantId : Option Nat)
  | poll (thread : Nat) (purpose : Purpose)
  | act (thread now : Nat) (fails : Bool)
  | storeBody (thread : Nat)

def step (state : State) : Event → State
  | .change profiles => { state with profiles, past := state.profiles :: state.past }
  | .invalidate tenantId =>
      { state with
        scopes := { state.scopes with
          caches := ScopeEpoch.invalidate state.scopes.caches tenantId } }
  | .poll thread purpose =>
      match state.phase thread with
      | .ready task =>
          { state with phase := Function.update state.phase thread (.polling task purpose) }
      | _ => state
  | .act thread now fails => act fingerprint state thread now fails
  | .storeBody thread =>
      match state.phase thread with
      | .ready task => { state with
          bodies := state.bodies ++ (task.epoch.map fun epoch => ⟨thread, epoch, task.used⟩).toList }
      | _ => state

end Machine

def Phase.task : Phase → Task
  | .ready task => task
  | .polling task _ => task
  | .fetching task _ _ => task
  | .fetched task _ _ _ => task
  | .dropping task _ _ => task
  | .looking task _ => task
  | .loading task _ _ => task
  | .loaded task _ _ _ => task

def Phase.reads : Phase → List (Read Value)
  | .loaded task _ value _ => task.used ++ [value]
  | phase => phase.task.used

def willDrop : Phase → Bool
  | .fetched _ _ previous current => previous.any (· != current)
  | .dropping _ _ _ => true
  | _ => false

def settled (changes poll : Nat) (state : State) : Event → Bool
  | .act thread _ _ =>
      match state.phase thread with
      | .looking _ _ => !willDrop (state.phase poll)
      | .loaded _ _ value _ => willDrop (state.phase poll) || fresh changes value
      | _ => true
  | _ => true

structure Current (changes poll : Nat) (start state : State) : Prop where
  committed : changes ≤ state.changes
  caches : willDrop (state.phase poll) = false →
    ∀ entry ∈ state.scopes.caches, fresh changes entry.value = true
  reads : ∀ thread, (∀ read ∈ (state.phase thread).reads, fresh changes read = true) ∨
    ((state.phase thread).task.epoch = (start.phase thread).task.epoch ∧
      ∀ read ∈ (state.phase thread).reads,
        read ∈ (start.phase thread).reads ∨ fresh changes read = true)
  bodies : ∀ body ∈ state.bodies, body ∈ start.bodies ∨
    (∀ read ∈ body.used, fresh changes read = true) ∨
      (start.phase body.thread).task.epoch = some body.epoch

section Steps
variable {fingerprint : List ProfileRow → String} {changes poll : Nat} {start state : State}

theorem stored_entry {caches : List Entry} {key : Key} {now : Nat} {value : Read Value}
    (found : stored caches key now = some value) : ∃ entry ∈ caches, entry.value = value := by
  obtain ⟨entry, kept, same⟩ := Option.map_eq_some_iff.mp found
  exact ⟨entry, List.mem_of_find?_eq_some (Option.filter_eq_some_iff.mp kept).1, same⟩

theorem mem_store {caches : List Entry} {entry other : Entry} (member : other ∈ store caches entry) :
    other = entry ∨ other ∈ caches := by
  unfold store at member
  rcases List.mem_cons.mp member with same | kept
  · exact Or.inl same
  · right
    have room := List.mem_of_mem_filter kept
    split at room
    · exact List.mem_of_mem_filter room
    · exact room

theorem mem_invalidate {caches : List Entry} {tenantId : Option Nat} {entry : Entry}
    (member : entry ∈ invalidate caches tenantId) : entry ∈ caches := by
  cases tenantId with
  | none => cases member
  | some tenantId => exact List.mem_of_mem_filter member

theorem answered_reads (task : Task) (epoch : String) (purpose : Purpose) :
    (∀ read ∈ (answered task epoch purpose).reads, read ∈ task.used) ∧
      ((answered task epoch purpose).task.epoch = task.epoch ∨
        (answered task epoch purpose).reads = []) := by
  cases purpose with
  | lookup key => exact ⟨fun _ member => member, Or.inl rfl⟩
  | resourceKey => exact ⟨fun _ member => absurd member List.not_mem_nil, Or.inr rfl⟩

theorem advance_reads (state : State) (now : Nat) (fails : Bool) (phase : Phase) :
    (∀ read ∈ (advance fingerprint state now fails phase).2.reads, read ∈ phase.reads ∨
      (∃ task key, phase = .looking task key ∧
        ∃ entry ∈ state.scopes.caches, entry.value = read) ∨ read.at' = state.changes) ∧
      ((advance fingerprint state now fails phase).2.task.epoch = phase.task.epoch ∨
        (advance fingerprint state now fails phase).2.reads = []) := by
  have kept : ∀ task epoch purpose, phase.reads = task.used → phase.task = task →
      (∀ read ∈ (answered task epoch purpose).reads, read ∈ phase.reads ∨
        (∃ task key, phase = .looking task key ∧
          ∃ entry ∈ state.scopes.caches, entry.value = read) ∨ read.at' = state.changes) ∧
        ((answered task epoch purpose).task.epoch = phase.task.epoch ∨
          (answered task epoch purpose).reads = []) := by
    intro task epoch purpose sameReads sameTask
    rw [sameReads, sameTask]
    obtain ⟨subset, keyed⟩ := answered_reads task epoch purpose
    exact ⟨fun read member => Or.inl (subset read member), keyed⟩
  cases phase with
  | ready task | loaded task key value since => exact ⟨fun _ member => Or.inl member, Or.inl rfl⟩
  | polling task purpose | fetching task purpose previous =>
      simp only [advance]
      split
      · exact kept task _ purpose rfl rfl
      · exact ⟨fun _ member => Or.inl member, Or.inl rfl⟩
  | fetched task purpose previous current =>
      simp only [advance]
      split
      · exact ⟨fun _ member => Or.inl member, Or.inl rfl⟩
      · exact kept task _ purpose rfl rfl
  | dropping task purpose current => exact kept task _ purpose rfl rfl
  | looking task key =>
      simp only [advance]
      cases found : stored state.scopes.caches key now with
      | none => exact ⟨fun _ member => Or.inl member, Or.inl rfl⟩
      | some value =>
          refine ⟨fun read member => ?_, Or.inl rfl⟩
          rcases List.mem_append.mp member with old | new
          · exact Or.inl old
          · rw [List.mem_singleton.mp new]
            exact Or.inr (Or.inl ⟨task, key, rfl, stored_entry found⟩)
  | loading task key since =>
      simp only [advance]
      split
      · exact ⟨fun _ member => Or.inl member, Or.inl rfl⟩
      · split
        · refine ⟨fun read member => ?_, Or.inl rfl⟩
          rcases List.mem_append.mp member with old | new
          · exact Or.inl old
          · rw [List.mem_singleton.mp new]
            exact Or.inr (Or.inr rfl)
        · refine ⟨fun read member => ?_, Or.inl rfl⟩
          rcases List.mem_append.mp member with old | new
          · exact Or.inl old
          · rw [List.mem_singleton.mp new]
            exact Or.inr (Or.inr rfl)

/-- A section that leaves a poll's drop pending stores at most the value it has loaded. -/
theorem advance_caches (state : State) (now : Nat) (fails : Bool) (phase : Phase) (entry : Entry)
    (member : entry ∈ (advance fingerprint state now fails phase).1.caches) :
    (entry ∈ state.scopes.caches ∧ ∀ task purpose current, phase ≠ .dropping task purpose current) ∨
      ∃ task key since, phase = .loaded task key entry.value since := by
  cases phase with
  | dropping task purpose current => cases member
  | loaded task key value since =>
      rcases mem_store member with same | old
      · exact Or.inr ⟨task, key, since, by rw [same]⟩
      · exact Or.inl ⟨old, fun _ _ _ same => by cases same⟩
  | ready task => exact Or.inl ⟨member, fun _ _ _ same => by cases same⟩
  | polling task purpose | fetching task purpose previous
  | fetched task purpose previous current | looking task key =>
      simp only [advance] at member
      split at member <;> exact Or.inl ⟨member, fun _ _ _ same => by cases same⟩
  | loading task key since =>
      simp only [advance] at member
      split at member
      · exact Or.inl ⟨member, fun _ _ _ same => by cases same⟩
      · split at member <;> exact Or.inl ⟨member, fun _ _ _ same => by cases same⟩

theorem advance_willDrop (state : State) (now : Nat) (fails : Bool) (phase : Phase)
    (pending : willDrop phase = true)
    (ended : willDrop (advance fingerprint state now fails phase).2 = false) :
    ∃ task purpose current, phase = .dropping task purpose current := by
  cases phase with
  | dropping task purpose current => exact ⟨task, purpose, current, rfl⟩
  | fetched task purpose previous current =>
      simp only [willDrop] at pending
      simp only [advance, pending, if_true] at ended
      cases ended
  | ready task | polling task purpose | fetching task purpose previous | looking task key
  | loading task key since | loaded task key value since => cases pending

theorem acted_of_quiet {phases : Nat → Phase} {thread : Nat} {next : Phase}
    (pending : willDrop (phases poll) = true)
    (quiet : willDrop (Function.update phases thread next poll) = false) :
    poll = thread ∧ willDrop next = false := by
  by_cases polls : poll = thread
  · subst polls
    rw [Function.update_self] at quiet
    exact ⟨rfl, quiet⟩
  · rw [Function.update_of_ne polls, pending] at quiet
    cases quiet

theorem Current.act_caches {thread now : Nat} {fails : Bool}
    (calm : settled changes poll state (.act thread now fails) = true)
    (current : Current changes poll start state)
    (quiet : willDrop ((ScopeEpoch.act fingerprint state thread now fails).phase poll) = false)
    (entry : Entry) (member : entry ∈ (ScopeEpoch.act fingerprint state thread now fails).scopes.caches) :
    fresh changes entry.value = true := by
  rcases advance_caches state now fails (state.phase thread) entry member with
    ⟨old, noDrop⟩ | ⟨task, key, since, phase⟩
  · apply current.caches _ entry old
    by_contra pending
    simp only [Bool.not_eq_false] at pending
    obtain ⟨rfl, dropped⟩ := acted_of_quiet pending quiet
    obtain ⟨task, purpose, value, isDrop⟩ := advance_willDrop state now fails _ pending dropped
    exact noDrop task purpose value isDrop
  · simp only [settled, phase, Bool.or_eq_true] at calm
    rcases calm with pending | isFresh
    · obtain ⟨rfl, -⟩ := acted_of_quiet pending quiet
      rw [phase] at pending
      cases pending
    · exact isFresh

theorem Current.act_reads {thread now : Nat} {fails : Bool}
    (calm : settled changes poll state (.act thread now fails) = true)
    (current : Current changes poll start state) :
    (∀ read ∈ ((ScopeEpoch.act fingerprint state thread now fails).phase thread).reads,
      fresh changes read = true) ∨
      ((ScopeEpoch.act fingerprint state thread now fails).phase thread).task.epoch =
          (start.phase thread).task.epoch ∧
        ∀ read ∈ ((ScopeEpoch.act fingerprint state thread now fails).phase thread).reads,
          read ∈ (start.phase thread).reads ∨ fresh changes read = true := by
  obtain ⟨sources, keyed⟩ := @advance_reads fingerprint state now fails (state.phase thread)
  have source : ∀ read ∈ ((ScopeEpoch.act fingerprint state thread now fails).phase thread).reads,
      read ∈ (state.phase thread).reads ∨ fresh changes read = true := by
    intro read member
    simp only [ScopeEpoch.act, Function.update_self] at member
    rcases sources read member with held | ⟨task, key, phase, entry, cached, same⟩ | read'
    · exact Or.inl held
    · right
      simp only [settled, phase, Bool.not_eq_true'] at calm
      exact same ▸ current.caches calm entry cached
    · exact Or.inr (decide_eq_true (read' ▸ current.committed))
  rcases current.reads thread with allFresh | ⟨epoch, known⟩
  · left
    intro read member
    rcases source read member with held | isFresh
    · exact allFresh read held
    · exact isFresh
  · rcases keyed with sameEpoch | forgotten
    · right
      refine ⟨?_, fun read member => ?_⟩
      · simp only [ScopeEpoch.act, Function.update_self]
        exact sameEpoch.trans epoch
      · rcases source read member with held | isFresh
        · exact known read held
        · exact Or.inr isFresh
    · left
      intro read member
      simp only [ScopeEpoch.act, Function.update_self, forgotten] at member
      cases member

theorem Current.act {thread now : Nat} {fails : Bool}
    (calm : settled changes poll state (.act thread now fails) = true)
    (current : Current changes poll start state) :
    Current changes poll start (act fingerprint state thread now fails) := by
  refine ⟨current.committed, current.act_caches calm, ?_, current.bodies⟩
  intro other
  by_cases acting : other = thread
  · subst acting
    exact current.act_reads calm
  · simp only [ScopeEpoch.act, Function.update_of_ne acting]
    exact current.reads other

theorem Current.step {event : Event} (calm : settled changes poll state event = true)
    (current : Current changes poll start state) :
    Current changes poll start (step fingerprint state event) := by
  cases event with
  | act thread now fails => exact current.act calm
  | change profiles =>
      refine ⟨?_, current.caches, current.reads, current.bodies⟩
      have committed := current.committed
      simp only [State.changes, ScopeEpoch.step, List.length_cons] at committed ⊢
      omega
  | invalidate tenantId =>
      exact ⟨current.committed, fun quiet entry member =>
        current.caches quiet entry (mem_invalidate member), current.reads, current.bodies⟩
  | poll thread purpose =>
      simp only [ScopeEpoch.step]
      split
      · rename_i task phase
        refine ⟨current.committed, ?_, ?_, current.bodies⟩
        · intro quiet entry member
          apply current.caches _ entry member
          by_contra pending
          simp only [Bool.not_eq_false] at pending
          obtain ⟨rfl, -⟩ := acted_of_quiet pending quiet
          rw [phase] at pending
          cases pending
        · intro other
          by_cases starting : other = thread
          · subst starting
            have known := current.reads other
            rw [phase] at known
            simp only [Function.update_self]
            exact known
          · simp only [Function.update_of_ne starting]
            exact current.reads other
      · exact current
  | storeBody thread =>
      simp only [ScopeEpoch.step]
      split
      · rename_i task phase
        refine ⟨current.committed, current.caches, current.reads, ?_⟩
        intro body member
        rcases List.mem_append.mp member with old | new
        · exact current.bodies body old
        · cases keyed : task.epoch with
          | none => simp [keyed] at new
          | some epoch =>
              simp only [keyed, Option.map_some, Option.toList_some, List.mem_singleton] at new
              subst new
              have known := current.reads thread
              rw [phase] at known
              rcases known with allFresh | ⟨sameEpoch, -⟩
              · exact Or.inr (Or.inl allFresh)
              · exact Or.inr (Or.inr (sameEpoch.symm.trans keyed))
      · exact current

end Steps

/-- Once a poll has read the fingerprint after a change, and it drops the caches or they hold
nothing from before it, no lookup that has not read the registry yet is answered from before
the change, and no body under a key made since: as long as no lookup reads the caches until
the drop and none stores what it read before the change after it. -/
theorem no_stale_scope (fingerprint : List ProfileRow → String) (start : State)
    (earlier later : List Event) (changes poll now : Nat) (task : Task) (purpose : Purpose)
    (previous : Option String)
    (committed : changes ≤ (run (step fingerprint) start earlier).changes)
    (polls : (run (step fingerprint) start earlier).phase poll = .fetching task purpose previous)
    (drops : (previous.any fun old =>
        old != fingerprint (run (step fingerprint) start earlier).profiles) = true ∨
      ∀ entry ∈ (run (step fingerprint) start earlier).scopes.caches,
        fresh changes entry.value = true)
    (calm : AllSteps (step fingerprint)
      (fun state event => settled changes poll state event = true)
      (run (step fingerprint) start (earlier ++ [.act poll now false])) later) :
    (∀ thread, ∀ read ∈ ((run (step fingerprint) start
        (earlier ++ [.act poll now false] ++ later)).phase thread).reads,
      read ∈ ((run (step fingerprint) start (earlier ++ [.act poll now false])).phase
        thread).reads ∨ changes ≤ read.at') ∧
      ∀ body ∈ (run (step fingerprint) start (earlier ++ [.act poll now false] ++ later)).bodies,
        body ∈ (run (step fingerprint) start (earlier ++ [.act poll now false])).bodies ∨
          (∀ read ∈ body.used, changes ≤ read.at') ∨
            ((run (step fingerprint) start (earlier ++ [.act poll now false])).phase
              body.thread).task.epoch = some body.epoch := by
  have reached : run (step fingerprint) start (earlier ++ [.act poll now false]) =
      act fingerprint (run (step fingerprint) start earlier) poll now false := by
    rw [run_append]
    rfl
  have initial : Current changes poll
      (run (step fingerprint) start (earlier ++ [.act poll now false]))
      (run (step fingerprint) start (earlier ++ [.act poll now false])) := by
    refine ⟨?_, ?_, fun thread => Or.inr ⟨rfl, fun read member => Or.inl member⟩,
      fun body member => Or.inl member⟩
    · rw [reached]
      exact committed
    · intro quiet entry member
      rw [reached] at quiet member
      simp only [act, polls, advance, Function.update_self, willDrop, if_false,
        Bool.false_eq_true] at quiet member
      rcases drops with pending | allFresh
      · rw [pending] at quiet
        cases quiet
      · exact allFresh entry member
  have final := run_preserves_guarded (step fingerprint) _ _
    (fun state event guard => Current.step guard) later _ calm initial
  rw [run_append]
  constructor
  · intro thread read member
    rcases final.reads thread with allFresh | ⟨-, known⟩
    · exact Or.inr (of_decide_eq_true (allFresh read member))
    · exact (known read member).imp_right of_decide_eq_true
  · intro body member
    rcases final.bodies body member with old | allFresh | keyed
    · exact Or.inl old
    · exact Or.inr (Or.inl fun read used => of_decide_eq_true (allFresh read used))
    · exact Or.inr (Or.inr keyed)

def namesAndTenants (profiles : List ProfileRow) : String :=
  join "," (profiles.map fun profile =>
    profile.name ++ ":" ++ String.ofList (List.replicate (profile.tenantId.getD 0) 'i'))

/-- `lab` belongs to tenant 4, and then to tenant 9. -/
def labOf (tenantId : Nat) : List ProfileRow :=
  [⟨1, "odoo_17", none, none⟩, ⟨2, "lab", some tenantId, some 1⟩]

def idleState : State :=
  { profiles := labOf 4, past := [], scopes := ⟨none, none, []⟩, bodies := []
    phase := fun _ => .ready ⟨none, []⟩ }

def scopeLookup (thread now sections : Nat) : List Event :=
  .poll thread (.lookup (.scope 4)) :: List.replicate sections (.act thread now false)

/-- Tenant 4 is looked up, `lab` moves, and the next lookup polls the registry. -/
def movedThenPolled : List Event :=
  scopeLookup 0 100 6 ++ [.change (labOf 9)] ++ scopeLookup 1 110 1

/-- The first lookup has read the scope and not stored it when `lab` moves. -/
def movedWhileLoading : List Event :=
  scopeLookup 0 100 5 ++ [.change (labOf 9)] ++ scopeLookup 1 110 1

def storedAfterDrop : List Event :=
  List.replicate 2 (.act 1 110 false) ++ [.act 0 111 false] ++ scopeLookup 2 112 2

theorem moved_profile_left_scope :
    (run (step namesAndTenants) idleState movedThenPolled).changes = 1 ∧
      ∀ read ∈ ((run (step namesAndTenants) idleState (movedThenPolled ++ [.act 1 110 false] ++
        List.replicate 5 (.act 1 110 false))).phase 1).reads,
      read ∈ ((run (step namesAndTenants) idleState
        (movedThenPolled ++ [.act 1 110 false])).phase 1).reads ∨ 1 ≤ read.at' := by
  have committed : (run (step namesAndTenants) idleState movedThenPolled).changes = 1 := by
    decide +kernel
  have polls : (run (step namesAndTenants) idleState movedThenPolled).phase 1 =
      .fetching ⟨none, []⟩ (.lookup (.scope 4)) (some (namesAndTenants (labOf 4))) := by
    decide +kernel
  have drops : ((some (namesAndTenants (labOf 4))).any fun old => old !=
      namesAndTenants (run (step namesAndTenants) idleState movedThenPolled).profiles) = true := by
    decide +kernel
  have calm : AllSteps (step namesAndTenants)
      (fun state event => settled 1 1 state event = true)
      (run (step namesAndTenants) idleState (movedThenPolled ++ [.act 1 110 false]))
      (List.replicate 5 (.act 1 110 false)) := by decide +kernel
  exact ⟨committed, (no_stale_scope namesAndTenants idleState movedThenPolled
    (List.replicate 5 (.act 1 110 false)) 1 1 110 _ _ _ committed.ge polls (Or.inl drops) calm).1 1⟩

/-- A third lookup is answered with the scope that still has `lab`, after a poll has read
the new fingerprint and dropped the caches. -/
theorem slow_lookup_restores_old_scope :
    (run (step namesAndTenants) idleState movedWhileLoading).profiles = labOf 9 ∧
      (run (step namesAndTenants) idleState movedWhileLoading).phase 1 =
        .fetching ⟨none, []⟩ (.lookup (.scope 4)) (some (namesAndTenants (labOf 4))) ∧
      (run (step namesAndTenants) idleState
        (movedWhileLoading ++ [.act 1 110 false])).phase 2 = .ready ⟨none, []⟩ ∧
      (run (step namesAndTenants) idleState
        (movedWhileLoading ++ [.act 1 110 false] ++ storedAfterDrop)).phase 2 =
          .ready ⟨none, [⟨.scope ["lab"] ["odoo_17"], 0⟩]⟩ := by
  decide +kernel

end OdooSemantic.Mcp.ScopeEpoch
