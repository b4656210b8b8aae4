import OdooSemantic.Lib.Run
import OdooSemantic.Ledger.Rewrites

/-!
# Dependency propagation against one run of a dependent repository

Upstream runs write graph data and then flag the dependents; the run of the
dependent repository reads its flags, parses and writes modules, commits its
rows, clears the flags it read and applies its pending entries.  The events of
the two sides interleave freely; each store call is one transaction.
-/

set_option autoImplicit false

namespace OdooSemantic.Ledger.Propagation

open Lib Lib.Py Lib.Run
open Ledger.Rows Ledger.Store Ledger.Rewrites

structure Dependent where
  repoId : Nat
  odooVersion : String
  basename : String
  named : basename ≠ ""

inductive Phase where
  | idle
  | running
  | observed
  | cleared
  | finished
  | failed
  deriving DecidableEq

/-- The shared tables, the dependent modules whose flag call completed with the
time of the graph write behind it, and the progress of the dependent run. -/
structure World where
  tables : RewriteTables
  lastFlag : Timestamp
  changes : List (String × Timestamp)
  phase : Phase
  flags : List String
  readAt : Option Timestamp
  parsed : List (String × Timestamp)
  presentNames : List String

def World.start (tables : RewriteTables) : World :=
  { tables, lastFlag := 0, changes := [], phase := .idle, flags := [], readAt := none
    parsed := [], presentNames := [] }

def World.written (world : World) : List String :=
  world.parsed.map (·.1)

inductive Event where
  | flag (env : DbEnv) (wroteAt : Timestamp) (odooVersion : String) (names : List String)
      (pairs : List (String × String)) (excludeRepoIds : List Nat)
  | snapshot (env : DbEnv)
  | parse (name : String) (at' : Timestamp)
  | commitObserved (env : DbEnv) (profileName headSha : String)
      (observed : List ObservedModule)
  | clearNeedsRewrite (env : DbEnv)
  | applyPendingRewrites (env : DbEnv)

def dependentsOf (dep : Dependent) (odooVersion : String) (names : List String)
    (pairs : List (String × String)) (excludeRepoIds : List Nat) : List String :=
  names.filter fun name => odooVersion = dep.odooVersion ∧ name ≠ "" ∧
    (dep.basename, name) ∈ pairs ∧ dep.repoId ∉ excludeRepoIds

/-- One event.  A flag call is stamped after the graph write it reports and, under
the version lock, after the flag calls before it; a module is parsed after the
run read its flags. -/
def step (dep : Dependent) (world : World) : Event → World
  | .flag env wroteAt odooVersion names pairs excludeRepoIds =>
      if wroteAt ≤ env.clock ∧ (odooVersion = dep.odooVersion → world.lastFlag ≤ env.clock) then
        match flagDependents env world.tables odooVersion names pairs excludeRepoIds with
        | .ok (_, tables) =>
            { world with
              tables
              lastFlag := if odooVersion = dep.odooVersion then env.clock else world.lastFlag
              changes := (dependentsOf dep odooVersion names pairs excludeRepoIds).map
                (fun name => (name, wroteAt)) ++ world.changes }
        | .error _ => world
      else world
  | .snapshot env =>
      if world.phase = .idle then
        match needsRewriteSnapshot env world.tables.ledger dep.repoId [dep.odooVersion] with
        | .ok (flags, readAt) => { world with phase := .running, flags, readAt }
        | .error _ => { world with phase := .failed }
      else world
  | .parse name at' =>
      if world.phase = .running ∧ world.readAt.all (fun read => read < at') then
        { world with parsed := (name, at') :: world.parsed }
      else world
  | .commitObserved env profileName headSha observed =>
      if world.phase = .running then
        match Store.commitObserved env world.tables.ledger dep.repoId profileName
            dep.odooVersion headSha observed none with
        | .ok (_, ledger) =>
            { world with
              phase := .observed
              tables := { world.tables with ledger }
              presentNames := (observed.filter fun module =>
                module.state = .present).map (·.name) }
        | .error _ => { world with phase := .failed }
      else world
  | .clearNeedsRewrite env =>
      if world.phase = .observed then
        match Rewrites.clearNeedsRewrite env world.tables.ledger dep.repoId
            (world.flags.filter world.written.contains) world.readAt with
        | .ok (_, ledger) =>
            { world with phase := .cleared, tables := { world.tables with ledger } }
        | .error _ => { world with phase := .failed }
      else world
  | .applyPendingRewrites env =>
      if world.phase = .cleared then
        match Rewrites.applyPendingRewrites env world.tables dep.repoId dep.odooVersion
            world.presentNames world.written world.readAt with
        | .ok (_, tables) => { world with phase := .finished, tables }
        | .error _ => { world with phase := .failed }
      else world

def presentAt (dep : Dependent) (name : String) (row : PresenceRow) : Bool :=
  hasKey dep.repoId name row && row.state == .present && row.odooVersion == dep.odooVersion

/-- The flag reaches the module: its present row is at the version of the run; or it
has no present row at all and the repository has a row at the version. -/
def Reachable (dep : Dependent) (ledger : LedgerTable) (name : String) : Prop :=
  (∃ row ∈ ledger.rows, presentAt dep name row = true) ∨
    (lacksPresentRow ledger dep.repoId name = true ∧
      dep.repoId ∈ ownersNamed ledger dep.odooVersion dep.basename)

instance (dep : Dependent) (ledger : LedgerTable) (name : String) :
    Decidable (Reachable dep ledger name) :=
  inferInstanceAs (Decidable ((∃ row ∈ ledger.rows, _) ∨ (_ ∧ _ ∈ ownersNamed ledger _ _)))

def NothingPurged (dep : Dependent) (env : DbEnv) (pending : List PendingRewrite) : Prop :=
  ∀ entry ∈ pending, entry.odooVersion = dep.odooVersion → entry.repoId = dep.repoId →
    ¬ entry.flaggedAt + pendingRetention < env.now

instance (dep : Dependent) (env : DbEnv) (pending : List PendingRewrite) :
    Decidable (NothingPurged dep env pending) :=
  inferInstanceAs (Decidable (∀ entry ∈ pending, _ → _ → ¬ _ < env.now))

/-- Before the dependent run commits its rows, a flag call reaches every dependent
module; until it has applied its pending entries, none of them is purged; the
schema has migration 0007. -/
def Records (dep : Dependent) (world : World) : Event → Prop
  | .flag env _ odooVersion names pairs excludeRepoIds =>
      env.stampsOk = true ∧
      (world.phase = .idle ∨ world.phase = .running →
        ∀ name ∈ dependentsOf dep odooVersion names pairs excludeRepoIds,
          Reachable dep world.tables.ledger name) ∧
      (world.phase ≠ .finished → NothingPurged dep env world.tables.pending)
  | .snapshot env => env.stampsOk = true
  | .parse _ _ => True
  | .commitObserved _ _ _ _ => True
  | .clearNeedsRewrite env => env.stampsOk = true
  | .applyPendingRewrites env => env.stampsOk = true

instance (dep : Dependent) (world : World) (event : Event) :
    Decidable (Records dep world event) :=
  match event with
  | .flag env _ odooVersion names pairs excludeRepoIds =>
      inferInstanceAs (Decidable (env.stampsOk = true ∧
        (_ ∨ _ → ∀ name ∈ dependentsOf dep odooVersion names pairs excludeRepoIds, _) ∧
        (_ → NothingPurged dep env world.tables.pending)))
  | .snapshot env => inferInstanceAs (Decidable (env.stampsOk = true))
  | .parse _ _ => instDecidableTrue
  | .commitObserved _ _ _ _ => instDecidableTrue
  | .clearNeedsRewrite env => inferInstanceAs (Decidable (env.stampsOk = true))
  | .applyPendingRewrites env => inferInstanceAs (Decidable (env.stampsOk = true))

def NoFlagLost (dep : Dependent) (world : World) : Prop :=
  world.phase = .finished → ∀ change ∈ world.changes, ∀ row ∈ world.tables.ledger.rows,
    presentAt dep change.1 row = true →
      row.needsRewrite = true ∨ ∃ parse ∈ world.parsed, parse.1 = change.1 ∧ change.2 < parse.2

instance (dep : Dependent) (world : World) : Decidable (NoFlagLost dep world) :=
  inferInstanceAs (Decidable (_ → ∀ change ∈ world.changes, ∀ row ∈ world.tables.ledger.rows, _))

def FlaggedSince (wroteAt : Timestamp) (row : PresenceRow) : Prop :=
  row.needsRewrite = true ∧ ∃ stamp, row.needsRewriteAt = some stamp ∧ wroteAt ≤ stamp

/-- A pending entry of the module stamped at or after the graph write. -/
def Owed (dep : Dependent) (name : String) (wroteAt : Timestamp)
    (pending : List PendingRewrite) : Prop :=
  ∃ entry ∈ pending, entry.odooVersion = dep.odooVersion ∧ entry.repoId = dep.repoId ∧
    entry.name = name ∧ wroteAt ≤ entry.flaggedAt

section Pending
variable (dep : Dependent) (name : String) (wroteAt : Timestamp)

theorem putEntry_has (pending : List PendingRewrite) (entry : PendingRewrite)
    (version : entry.odooVersion = dep.odooVersion) (repo : entry.repoId = dep.repoId)
    (same : entry.name = name) (since : wroteAt ≤ entry.flaggedAt) :
    Owed dep name wroteAt (putEntry pending entry) := by
  unfold putEntry
  by_cases known : pending.any (sameEntry entry) = true
  · rw [if_pos known]
    obtain ⟨old, oldIn, key⟩ := List.any_eq_true.mp known
    refine ⟨{ old with flaggedAt := entry.flaggedAt }, ?_, ?_, ?_, ?_, since⟩
    · exact List.mem_map.mpr ⟨old, oldIn, by rw [if_pos key]⟩
    all_goals simp only [sameEntry, Bool.and_eq_true, beq_iff_eq] at key
    · exact key.1.1.symm.trans version
    · exact key.1.2.symm.trans repo
    · exact key.2.symm.trans same
  · rw [if_neg known]
    exact ⟨entry, List.mem_append_right _ (List.mem_singleton_self _), version, repo, same, since⟩

theorem putEntry_keeps (pending : List PendingRewrite) (entry : PendingRewrite)
    (since : entry.odooVersion = dep.odooVersion → wroteAt ≤ entry.flaggedAt)
    (owed : Owed dep name wroteAt pending) :
    Owed dep name wroteAt (putEntry pending entry) := by
  obtain ⟨old, oldIn, version, repo, same, oldSince⟩ := owed
  unfold putEntry
  by_cases known : pending.any (sameEntry entry) = true
  · rw [if_pos known]
    by_cases key : sameEntry entry old = true
    · have sameVersion : entry.odooVersion = old.odooVersion := by
        simp only [sameEntry, Bool.and_eq_true, beq_iff_eq] at key
        exact key.1.1
      exact ⟨{ old with flaggedAt := entry.flaggedAt },
        List.mem_map.mpr ⟨old, oldIn, by rw [if_pos key]⟩, version, repo, same,
        since (sameVersion.trans version)⟩
    · exact ⟨old, List.mem_map.mpr ⟨old, oldIn, by rw [if_neg key]⟩, version, repo, same,
        oldSince⟩
  · rw [if_neg known]
    exact ⟨old, List.mem_append_left _ oldIn, version, repo, same, oldSince⟩

theorem foldl_putEntry_keeps (targets : List PendingRewrite)
    (since : ∀ target ∈ targets, target.odooVersion = dep.odooVersion →
      wroteAt ≤ target.flaggedAt) :
    ∀ pending, Owed dep name wroteAt pending →
      Owed dep name wroteAt (targets.foldl putEntry pending) := by
  induction targets with
  | nil => intro pending owed; exact owed
  | cons target rest ih =>
      intro pending owed
      exact ih (fun other member => since other (List.mem_cons_of_mem _ member)) _
        (putEntry_keeps dep name wroteAt pending target (since target List.mem_cons_self) owed)

theorem foldl_putEntry_has (targets : List PendingRewrite)
    (since : ∀ target ∈ targets, target.odooVersion = dep.odooVersion →
      wroteAt ≤ target.flaggedAt)
    (target : PendingRewrite) (targetIn : target ∈ targets)
    (version : target.odooVersion = dep.odooVersion) (repo : target.repoId = dep.repoId)
    (same : target.name = name) :
    ∀ pending, Owed dep name wroteAt (targets.foldl putEntry pending) := by
  induction targets with
  | nil => cases targetIn
  | cons first rest ih =>
      intro pending
      have restSince := fun other member => since other (List.mem_cons_of_mem first member)
      rcases List.mem_cons.mp targetIn with rfl | inRest
      · exact foldl_putEntry_keeps dep name wroteAt rest restSince _
          (putEntry_has dep name wroteAt pending target version repo same
            (since target List.mem_cons_self version))
      · exact ih restSince inRest (putEntry pending first)

end Pending

section FlagCall
variable (env : DbEnv) (tables next : RewriteTables) (odooVersion : String)
  (names : List String) (pairs : List (String × String)) (excludeRepoIds : List Nat)
  (result : List (Nat × String) × Nat)

theorem flagDependents_rows
    (run : flagDependents env tables odooVersion names pairs excludeRepoIds =
      .ok (result, next)) :
    next.ledger.rows = tables.ledger.rows.map fun row =>
      if flaggable odooVersion (sortedSet names) excludeRepoIds row then flagRewrite env row
      else row := by
  unfold flagDependents at run
  simp only at run
  split at run
  · rename_i idle
    cases run
    simp only [Bool.and_eq_true, List.isEmpty_iff] at idle
    have none : ∀ row, flaggable odooVersion (sortedSet names) excludeRepoIds row = false := by
      intro row
      simp [flaggable, idle.1]
    simp [none]
  · obtain ⟨_, -, run⟩ := (bind_eq_ok _ _ _).mp run
    split at run <;> cases run <;> rfl

theorem lacksPresentRow_flagged (ledger : LedgerTable) (guard : PresenceRow → Bool)
    (repoId : Nat) (name : String) :
    lacksPresentRow (ledger.updateWhere guard (flagRewrite env)) repoId name =
      lacksPresentRow ledger repoId name := by
  unfold lacksPresentRow Table.updateWhere
  rw [List.any_map]
  refine congrArg (fun test => !ledger.rows.any test) (funext fun row => ?_)
  by_cases selected : guard row = true
  · simp [selected, flagRewrite, hasKey]
  · simp [selected]

theorem ownersNamed_flagged (ledger : LedgerTable) (guard : PresenceRow → Bool)
    (odooVersion basename : String) :
    ownersNamed (ledger.updateWhere guard (flagRewrite env)) odooVersion basename =
      ownersNamed ledger odooVersion basename := by
  have repo : ∀ row, (if guard row then flagRewrite env row else row).repoId = row.repoId := by
    intro row
    split <;> rfl
  have test : ∀ row : PresenceRow, ((fun row : PresenceRow =>
      row.odooVersion == odooVersion && row.repoBasename == basename) ∘
        fun row => if guard row then flagRewrite env row else row) row =
      (row.odooVersion == odooVersion && row.repoBasename == basename) := by
    intro row
    simp only [Function.comp]
    split <;> rfl
  unfold ownersNamed Table.updateWhere
  rw [List.filter_map, List.filterMap_map]
  simp only [funext test]
  exact congrArg List.dedup (List.filterMap_congr fun row _ => repo row)

variable (dep : Dependent) (name : String) (wroteAt : Timestamp)

theorem pendingTargets_since (ledger : LedgerTable) (filtered : List (String × String))
    (since : odooVersion = dep.odooVersion → wroteAt ≤ env.clock) :
    ∀ target ∈ pendingTargets env ledger odooVersion filtered excludeRepoIds,
      target.odooVersion = dep.odooVersion → wroteAt ≤ target.flaggedAt := by
  intro target member version
  obtain ⟨pair, -, inPair⟩ := List.mem_flatMap.mp (List.mem_dedup.mp member)
  obtain ⟨repoId, -, rfl⟩ := List.mem_map.mp inPair
  exact since version

theorem flagDependents_keeps
    (run : flagDependents env tables odooVersion names pairs excludeRepoIds =
      .ok (result, next))
    (purged : NothingPurged dep env tables.pending)
    (since : odooVersion = dep.odooVersion → wroteAt ≤ env.clock)
    (owed : Owed dep name wroteAt tables.pending) :
    Owed dep name wroteAt next.pending := by
  unfold flagDependents at run
  simp only at run
  split at run
  · cases run
    exact owed
  · obtain ⟨_, -, run⟩ := (bind_eq_ok _ _ _).mp run
    split at run
    · cases run
      refine foldl_putEntry_keeps dep name wroteAt _
        (pendingTargets_since env odooVersion excludeRepoIds dep wroteAt _ _ since) _ ?_
      obtain ⟨old, oldIn, version, repo, same, oldSince⟩ := owed
      refine ⟨old, List.mem_filter.mpr ⟨oldIn, ?_⟩, version, repo, same, oldSince⟩
      simpa using purged old oldIn version repo
    · cases run
      exact owed

theorem flagDependents_has
    (run : flagDependents env tables odooVersion names pairs excludeRepoIds =
      .ok (result, next))
    (stampsOk : env.stampsOk = true) (since : wroteAt ≤ env.clock)
    (dependent : name ∈ dependentsOf dep odooVersion names pairs excludeRepoIds)
    (lacks : lacksPresentRow tables.ledger dep.repoId name = true)
    (owner : dep.repoId ∈ ownersNamed tables.ledger dep.odooVersion dep.basename) :
    Owed dep name wroteAt next.pending := by
  obtain ⟨nameIn, fits⟩ := List.mem_filter.mp dependent
  simp only [decide_eq_true_eq] at fits
  obtain ⟨rfl, named, paired, included⟩ := fits
  have told : decide (dep.basename ≠ "" ∧ name ≠ "") = true := by
    simp [dep.named, named]
  have inPairs : ∀ test : String × String → Bool, test (dep.basename, name) = true →
      (dep.basename, name) ∈ (pairs.filter test).dedup :=
    fun test passes => List.mem_dedup.mpr (List.mem_filter.mpr ⟨paired, passes⟩)
  unfold flagDependents at run
  simp only at run
  split at run
  · rename_i idle
    simp only [Bool.and_eq_true, List.isEmpty_iff] at idle
    exact (List.eq_nil_iff_forall_not_mem.mp idle.2 _ (inPairs _ told)).elim
  · obtain ⟨_, -, run⟩ := (bind_eq_ok _ _ _).mp run
    split at run
    · cases run
      refine foldl_putEntry_has dep name wroteAt _
        (pendingTargets_since env _ excludeRepoIds dep wroteAt _ _ fun _ => since)
        { odooVersion := dep.odooVersion, repoId := dep.repoId, name, flaggedAt := env.clock }
        ?_ rfl rfl rfl _
      refine List.mem_dedup.mpr (List.mem_flatMap.mpr ⟨(dep.basename, name), inPairs _ told, ?_⟩)
      refine List.mem_map.mpr ⟨dep.repoId, List.mem_filter.mpr ⟨?_, ?_⟩, rfl⟩
      · rw [ownersNamed_flagged]
        exact owner
      · rw [lacksPresentRow_flagged, lacks]
        simpa using included
    · rename_i skipped
      simp only [stampsOk, Bool.true_and, Bool.not_eq_true', Bool.not_eq_false,
        List.isEmpty_iff] at skipped
      exact (List.eq_nil_iff_forall_not_mem.mp skipped _ (inPairs _ told)).elim

end FlagCall

section Invariant
variable (dep : Dependent)

def StillFlagged (name : String) (wroteAt : Timestamp) (ledger : LedgerTable) : Prop :=
  ∀ row ∈ ledger.rows, presentAt dep name row = true → FlaggedSince wroteAt row

/-- Before the commit of the rows: the present row is flagged, or there is none and a
pending entry waits for it. -/
def Recorded (name : String) (wroteAt : Timestamp) (tables : RewriteTables) : Prop :=
  ((∃ row ∈ tables.ledger.rows, presentAt dep name row = true) ∧
      StillFlagged dep name wroteAt tables.ledger) ∨
    (lacksPresentRow tables.ledger dep.repoId name = true ∧
      Owed dep name wroteAt tables.pending)

def Reparsed (world : World) (name : String) (wroteAt : Timestamp) : Prop :=
  ∃ parse ∈ world.parsed, parse.1 = name ∧ wroteAt < parse.2

def AwaitsCommit (world : World) (name : String) (wroteAt : Timestamp) : Prop :=
  Owed dep name wroteAt world.tables.pending ∧ name ∈ world.presentNames

/-- Where the record of a change is, phase by phase. -/
def Safe (world : World) (name : String) (wroteAt : Timestamp) : Prop :=
  match world.phase with
  | .idle | .running => Recorded dep name wroteAt world.tables
  | .observed =>
      StillFlagged dep name wroteAt world.tables.ledger ∨ AwaitsCommit dep world name wroteAt
  | .cleared =>
      StillFlagged dep name wroteAt world.tables.ledger ∨
        AwaitsCommit dep world name wroteAt ∨ Reparsed world name wroteAt
  | .finished =>
      ∀ row ∈ world.tables.ledger.rows, presentAt dep name row = true →
        row.needsRewrite = true ∨ Reparsed world name wroteAt
  | .failed => True

structure Inv (world : World) : Prop where
  unique : world.phase = .idle ∨ world.phase = .running → UniqueKey world.tables.ledger
  unparsed : world.phase = .idle → world.parsed = []
  clocked : world.phase ≠ .idle → world.phase ≠ .failed →
    ∃ read, world.readAt = some read ∧ ∀ parse ∈ world.parsed, read < parse.2
  ordered : ∀ change ∈ world.changes, change.2 ≤ world.lastFlag
  safe : ∀ change ∈ world.changes, Safe dep world change.1 change.2

theorem inv_start (tables : RewriteTables) (unique : UniqueKey tables.ledger) :
    Inv dep (World.start tables) where
  unique := fun _ => unique
  unparsed := fun _ => rfl
  clocked := fun started => absurd rfl started
  ordered := fun _ member => absurd member List.not_mem_nil
  safe := fun _ member => absurd member List.not_mem_nil

/-- A failed transaction ends the run and leaves the tables alone. -/
theorem inv_failed (world : World) (inv : Inv dep world) :
    Inv dep { world with phase := .failed } where
  unique := fun early => by rcases early with early | early <;> cases early
  unparsed := fun early => by cases early
  clocked := fun _ alive => absurd rfl alive
  ordered := inv.ordered
  safe := fun _ _ => trivial

theorem Inv.later {world after : World} (inv : Inv dep world) (started : world.phase ≠ .idle)
    (alive : world.phase ≠ .failed) (late : after.phase ≠ .idle ∧ after.phase ≠ .running)
    (readAt : after.readAt = world.readAt) (parsed : after.parsed = world.parsed)
    (changes : after.changes = world.changes) (lastFlag : after.lastFlag = world.lastFlag)
    (safe : ∀ change ∈ world.changes, Safe dep after change.1 change.2) : Inv dep after where
  unique := fun early => absurd early (not_or.mpr late)
  unparsed := fun early => absurd early late.1
  clocked := fun _ _ => by
    rw [readAt, parsed]
    exact inv.clocked started alive
  ordered := by
    rw [changes, lastFlag]
    exact inv.ordered
  safe := by
    rw [changes]
    exact safe

section Flag
variable (env : DbEnv) (odooVersion : String) (names : List String)
  (excludeRepoIds : List Nat) (name : String)

abbrev flagRow (row : PresenceRow) : PresenceRow :=
  if flaggable odooVersion (sortedSet names) excludeRepoIds row then flagRewrite env row else row

theorem presentAt_flagRow (row : PresenceRow) :
    presentAt dep name (flagRow env odooVersion names excludeRepoIds row) =
      presentAt dep name row := by
  unfold flagRow
  split <;> rfl

theorem hasKey_flagRow (row : PresenceRow) (repoId : Nat) :
    hasKey repoId name (flagRow env odooVersion names excludeRepoIds row) =
      hasKey repoId name row := by
  unfold flagRow
  split <;> rfl

theorem state_flagRow (row : PresenceRow) :
    (flagRow env odooVersion names excludeRepoIds row).state = row.state := by
  unfold flagRow
  split <;> rfl

theorem key_flagRow (row : PresenceRow) :
    (flagRow env odooVersion names excludeRepoIds row).repoId = row.repoId ∧
      (flagRow env odooVersion names excludeRepoIds row).name = row.name := by
  unfold flagRow
  split <;> exact ⟨rfl, rfl⟩

theorem flaggedSince_flagRow (stampsOk : env.stampsOk = true) (wroteAt : Timestamp)
    (since : odooVersion = dep.odooVersion → wroteAt ≤ env.clock) (row : PresenceRow)
    (present : presentAt dep name row = true) (flagged : FlaggedSince wroteAt row) :
    FlaggedSince wroteAt (flagRow env odooVersion names excludeRepoIds row) := by
  unfold flagRow
  by_cases selected : flaggable odooVersion (sortedSet names) excludeRepoIds row = true
  · rw [if_pos selected]
    simp only [flaggable, Bool.and_eq_true, beq_iff_eq] at selected
    simp only [presentAt, Bool.and_eq_true, beq_iff_eq] at present
    have version := selected.1.1.1.symm.trans present.2
    exact ⟨rfl, env.clock, by simp [flagRewrite, stampsOk], since version⟩
  · rw [if_neg selected]
    exact flagged

theorem flaggedSince_dependent (stampsOk : env.stampsOk = true) (wroteAt : Timestamp)
    (since : wroteAt ≤ env.clock) (pairs : List (String × String))
    (dependent : name ∈ dependentsOf dep odooVersion names pairs excludeRepoIds)
    (row : PresenceRow) (present : presentAt dep name row = true) :
    FlaggedSince wroteAt (flagRow env odooVersion names excludeRepoIds row) := by
  obtain ⟨nameIn, fits⟩ := List.mem_filter.mp dependent
  simp only [decide_eq_true_eq] at fits
  simp only [presentAt, hasKey, Bool.and_eq_true, beq_iff_eq] at present
  have selected : flaggable odooVersion (sortedSet names) excludeRepoIds row = true := by
    simp [flaggable, present, fits, nameIn]
  unfold flagRow
  rw [if_pos selected]
  exact ⟨rfl, env.clock, by simp [flagRewrite, stampsOk], since⟩

variable (world : World) (tables : RewriteTables)
  (rows : tables.ledger.rows =
    world.tables.ledger.rows.map (flagRow env odooVersion names excludeRepoIds))
include rows

theorem uniqueKey_flag (unique : UniqueKey world.tables.ledger) : UniqueKey tables.ledger := by
  intro first firstIn second secondIn repo some same
  rw [rows] at firstIn secondIn
  obtain ⟨oldFirst, oldFirstIn, rfl⟩ := List.mem_map.mp firstIn
  obtain ⟨oldSecond, oldSecondIn, rfl⟩ := List.mem_map.mp secondIn
  rw [(key_flagRow env odooVersion names excludeRepoIds oldFirst).1] at repo some
  rw [(key_flagRow env odooVersion names excludeRepoIds oldSecond).1] at repo
  rw [(key_flagRow env odooVersion names excludeRepoIds oldFirst).2,
    (key_flagRow env odooVersion names excludeRepoIds oldSecond).2] at same
  rw [unique oldFirst oldFirstIn oldSecond oldSecondIn repo some same]

theorem stillFlagged_flag (stampsOk : env.stampsOk = true) (wroteAt : Timestamp)
    (since : odooVersion = dep.odooVersion → wroteAt ≤ env.clock)
    (flagged : StillFlagged dep name wroteAt world.tables.ledger) :
    StillFlagged dep name wroteAt tables.ledger := by
  intro row rowIn present
  rw [rows] at rowIn
  obtain ⟨old, oldIn, rfl⟩ := List.mem_map.mp rowIn
  rw [presentAt_flagRow] at present
  exact flaggedSince_flagRow dep env odooVersion names excludeRepoIds name stampsOk wroteAt
    since old present (flagged old oldIn present)

theorem stillFlagged_dependent (stampsOk : env.stampsOk = true) (wroteAt : Timestamp)
    (since : wroteAt ≤ env.clock) (pairs : List (String × String))
    (dependent : name ∈ dependentsOf dep odooVersion names pairs excludeRepoIds) :
    StillFlagged dep name wroteAt tables.ledger := by
  intro row rowIn present
  rw [rows] at rowIn
  obtain ⟨old, oldIn, rfl⟩ := List.mem_map.mp rowIn
  rw [presentAt_flagRow] at present
  exact flaggedSince_dependent dep env odooVersion names excludeRepoIds name stampsOk wroteAt
    since pairs dependent old present

theorem exists_presentAt_flag
    (found : ∃ row ∈ world.tables.ledger.rows, presentAt dep name row = true) :
    ∃ row ∈ tables.ledger.rows, presentAt dep name row = true := by
  obtain ⟨row, rowIn, present⟩ := found
  refine ⟨_, by rw [rows]; exact List.mem_map_of_mem rowIn, ?_⟩
  rw [presentAt_flagRow]
  exact present

theorem lacksPresentRow_flag (repoId : Nat) :
    lacksPresentRow tables.ledger repoId name =
      lacksPresentRow world.tables.ledger repoId name := by
  unfold lacksPresentRow
  rw [rows, List.any_map]
  refine congrArg (fun test => !world.tables.ledger.rows.any test) (funext fun row => ?_)
  simp [hasKey_flagRow, state_flagRow]

theorem safe_dependent (stampsOk : env.stampsOk = true) (wroteAt : Timestamp)
    (since : wroteAt ≤ env.clock) (pairs : List (String × String))
    (dependent : name ∈ dependentsOf dep odooVersion names pairs excludeRepoIds)
    (result : List (Nat × String) × Nat)
    (run : flagDependents env world.tables odooVersion names pairs excludeRepoIds =
      .ok (result, tables))
    (reaches : world.phase = .idle ∨ world.phase = .running →
      Reachable dep world.tables.ledger name)
    (lastFlag : Timestamp) (changes : List (String × Timestamp)) :
    Safe dep { world with tables, lastFlag, changes } name wroteAt := by
  have flagged := stillFlagged_dependent dep env odooVersion names excludeRepoIds name world tables
    rows stampsOk wroteAt since pairs dependent
  have recorded : world.phase = .idle ∨ world.phase = .running →
      Recorded dep name wroteAt tables := by
    intro early
    rcases reaches early with found | ⟨lacks, owner⟩
    · exact Or.inl ⟨exists_presentAt_flag dep env odooVersion names excludeRepoIds name world tables
        rows found, flagged⟩
    · refine Or.inr ⟨?_, flagDependents_has env world.tables tables odooVersion names pairs
        excludeRepoIds result dep name wroteAt run stampsOk since dependent lacks owner⟩
      rw [lacksPresentRow_flag env odooVersion names excludeRepoIds name world tables rows]
      exact lacks
  unfold Safe
  cases phase : world.phase with
  | idle => exact recorded (Or.inl phase)
  | running => exact recorded (Or.inr phase)
  | observed | cleared => exact Or.inl flagged
  | finished => exact fun row rowIn present => Or.inl (flagged row rowIn present).1
  | failed => trivial

theorem safe_flag (stampsOk : env.stampsOk = true) (wroteAt : Timestamp)
    (since : odooVersion = dep.odooVersion → wroteAt ≤ env.clock)
    (owes : world.phase ≠ .finished → Owed dep name wroteAt world.tables.pending →
      Owed dep name wroteAt tables.pending)
    (safe : Safe dep world name wroteAt)
    (lastFlag : Timestamp) (changes : List (String × Timestamp)) :
    Safe dep { world with tables, lastFlag, changes } name wroteAt := by
  have keeps := stillFlagged_flag dep env odooVersion names excludeRepoIds name world tables rows
    stampsOk wroteAt since
  have records : world.phase ≠ .finished → Recorded dep name wroteAt world.tables →
      Recorded dep name wroteAt tables := by
    rintro open' (⟨found, flagged⟩ | ⟨lacks, owed⟩)
    · exact Or.inl ⟨exists_presentAt_flag dep env odooVersion names excludeRepoIds name world tables
        rows found, keeps flagged⟩
    · refine Or.inr ⟨?_, owes open' owed⟩
      rw [lacksPresentRow_flag env odooVersion names excludeRepoIds name world tables rows]
      exact lacks
  unfold Safe at safe ⊢
  cases phase : world.phase with
  | idle | running =>
      simp only [phase] at safe
      exact records (by simp [phase]) safe
  | observed =>
      simp only [phase] at safe
      exact safe.imp keeps fun waits => ⟨owes (by simp [phase]) waits.1, waits.2⟩
  | cleared =>
      simp only [phase] at safe
      exact safe.imp keeps fun rest => rest.imp
        (fun waits => ⟨owes (by simp [phase]) waits.1, waits.2⟩) fun parsed => parsed
  | finished =>
      simp only [phase] at safe
      intro row rowIn present
      rw [rows] at rowIn
      obtain ⟨source, sourceIn, rfl⟩ := List.mem_map.mp rowIn
      rw [presentAt_flagRow] at present
      rcases safe source sourceIn present with flagged | parsed
      · left
        unfold flagRow
        split
        · rfl
        · exact flagged
      · exact Or.inr parsed
  | failed => trivial

end Flag

theorem inv_flag (world : World) (inv : Inv dep world) (env : DbEnv) (wroteAt : Timestamp)
    (odooVersion : String) (names : List String) (pairs : List (String × String))
    (excludeRepoIds : List Nat)
    (records : Records dep world (.flag env wroteAt odooVersion names pairs excludeRepoIds)) :
    Inv dep (step dep world (.flag env wroteAt odooVersion names pairs excludeRepoIds)) := by
  obtain ⟨stampsOk, reaches, purged⟩ := records
  unfold step
  simp only
  split
  · rename_i clocks
    obtain ⟨wrote, serial⟩ := clocks
    cases run : flagDependents env world.tables odooVersion names pairs excludeRepoIds with
    | error raised => exact inv
    | ok outcome =>
        obtain ⟨result, tables⟩ := outcome
        have rows := flagDependents_rows _ _ _ _ _ _ _ _ run
        have ordered : ∀ change ∈ world.changes, odooVersion = dep.odooVersion →
            change.2 ≤ env.clock :=
          fun change member version => (inv.ordered change member).trans (serial version)
        refine ⟨?_, inv.unparsed, inv.clocked, ?_, ?_⟩
        · exact fun early => uniqueKey_flag env odooVersion names excludeRepoIds world tables
            rows (inv.unique early)
        · intro change member
          rcases List.mem_append.mp member with new | old
          · obtain ⟨name, nameIn, rfl⟩ := List.mem_map.mp new
            have version : odooVersion = dep.odooVersion := by
              have fits := (List.mem_filter.mp nameIn).2
              simp only [decide_eq_true_eq] at fits
              exact fits.1
            simpa [version] using wrote
          · by_cases version : odooVersion = dep.odooVersion
            · simpa [version] using ordered change old version
            · simpa [version] using inv.ordered change old
        · intro change member
          rcases List.mem_append.mp member with new | old
          · obtain ⟨name, nameIn, rfl⟩ := List.mem_map.mp new
            exact safe_dependent dep env odooVersion names excludeRepoIds name world tables rows
              stampsOk wroteAt wrote pairs nameIn result run (fun early => reaches early name nameIn)
              _ _
          · exact safe_flag dep env odooVersion names excludeRepoIds change.1 world tables rows
              stampsOk change.2 (ordered change old)
              (fun open' => flagDependents_keeps env world.tables tables odooVersion names pairs
                excludeRepoIds result dep change.1 change.2 run (purged open') (ordered change old))
              (inv.safe change old) _ _
  · exact inv

theorem inv_snapshot (world : World) (inv : Inv dep world) (env : DbEnv)
    (stampsOk : env.stampsOk = true) : Inv dep (step dep world (.snapshot env)) := by
  unfold step
  simp only
  split
  · rename_i idle
    cases run : needsRewriteSnapshot env world.tables.ledger dep.repoId [dep.odooVersion] with
    | error raised => exact inv_failed dep world inv
    | ok outcome =>
        obtain ⟨flags, readAt⟩ := outcome
        have read : readAt = some env.clock := by
          unfold needsRewriteSnapshot at run
          simp only [stampsOk] at run
          by_cases none : (needsRewriteNames world.tables.ledger dep.repoId).isEmpty = true
          · simp only [Bool.not_true, Bool.false_eq_true, if_false, none, if_true] at run
            cases run
            rfl
          · simp only [Bool.not_true, Bool.false_eq_true, if_false, none] at run
            obtain ⟨_, -, run⟩ := (bind_eq_ok _ _ _).mp run
            cases run
            rfl
        refine ⟨fun _ => inv.unique (Or.inl idle), ?_, ?_, inv.ordered, ?_⟩
        · intro early
          cases early
        · intro _ _
          refine ⟨env.clock, read, fun parse member => ?_⟩
          rw [inv.unparsed idle] at member
          cases member
        · intro change member
          have safe := inv.safe change member
          unfold Safe at safe ⊢
          rw [idle] at safe
          exact safe
  · exact inv

theorem inv_parse (world : World) (inv : Inv dep world) (name : String) (at' : Timestamp) :
    Inv dep (step dep world (.parse name at')) := by
  unfold step
  simp only
  split
  · rename_i starts
    obtain ⟨running, after⟩ := starts
    refine ⟨inv.unique, ?_, ?_, inv.ordered, ?_⟩
    · intro early
      rw [running] at early
      cases early
    · intro started alive
      obtain ⟨read, isRead, parsedLater⟩ := inv.clocked started alive
      refine ⟨read, isRead, fun parse member => ?_⟩
      rcases List.mem_cons.mp member with rfl | old
      · simpa [isRead] using after
      · exact parsedLater parse old
    · intro change member
      have safe := inv.safe change member
      unfold Safe at safe ⊢
      simp only [running] at safe ⊢
      exact safe
  · exact inv

section Observe
variable (ledger : LedgerTable) (repo : RepoRow) (profileName headSha : String)
  (now : Timestamp) (observed : List ObservedModule)

def observedLedger : LedgerTable :=
  ledger.upsert (fun module row => hasKey dep.repoId module.name row)
    (fun module row => observedUpdate (observedInsert repo dep.repoId profileName
      dep.odooVersion headSha now row.id module) row)
    (observedInsert repo dep.repoId profileName dep.odooVersion headSha now)
    (inNameOrder observed)

theorem observed_origin (name : String) (row : PresenceRow)
    (rowIn : row ∈ (observedLedger dep ledger repo profileName headSha now observed).rows)
    (present : presentAt dep name row = true) :
    (∃ old ∈ ledger.rows, hasKey dep.repoId name old = true ∧
        name ∈ (observed.filter fun module => module.state = .present).map (·.name) ∧
        row.needsRewrite = old.needsRewrite ∧ row.needsRewriteAt = old.needsRewriteAt) ∨
      (row ∈ ledger.rows) ∨
      ((∀ old ∈ ledger.rows, hasKey dep.repoId name old = false) ∧
        name ∈ (observed.filter fun module => module.state = .present).map (·.name)) := by
  have observedPresent : ∀ module ∈ inNameOrder observed, module.name = name →
      module.state.toState = .present →
        name ∈ (observed.filter fun module => module.state = .present).map (·.name) := by
    intro module moduleIn same isPresent
    refine List.mem_map.mpr ⟨module, List.mem_filter.mpr ⟨?_, ?_⟩, same⟩
    · exact (mem_inNameOrder observed module).mp moduleIn
    · cases state : module.state with
      | present => rfl
      | excluded =>
          rw [state] at isPresent
          cases isPresent
  rcases List.mem_append.mp rowIn with rewritten | inserted
  · obtain ⟨old, oldIn, rfl⟩ := List.mem_map.mp rewritten
    rcases Table.conflictUpdate_cases (fun module row => hasKey dep.repoId module.name row)
      (fun module row => observedUpdate (observedInsert repo dep.repoId profileName
        dep.odooVersion headSha now row.id module) row) (inNameOrder observed) old with
      ⟨module, moduleIn, conflicts, same⟩ | ⟨-, same⟩
    · rw [same] at present ⊢
      simp only [presentAt, hasKey, observedUpdate, observedInsert, Bool.and_eq_true,
        beq_iff_eq] at present conflicts ⊢
      have named : module.name = name := conflicts.2.symm.trans present.1.1.2
      refine Or.inl ⟨old, oldIn, ⟨conflicts.1, present.1.1.2⟩, ?_, ?_, rfl⟩
      · exact observedPresent module moduleIn named present.1.2
      · simp [present.1.2]
    · rw [same]
      exact Or.inr (Or.inl oldIn)
  · obtain ⟨⟨module, id⟩, pairIn, rfl⟩ := List.mem_map.mp inserted
    have unmatched := List.mem_filter.mp (List.fst_mem_of_mem_zipIdx pairIn)
    simp only [presentAt, hasKey, observedInsert, Bool.and_eq_true, beq_iff_eq] at present
    have named : module.name = name := present.1.1.2
    refine Or.inr (Or.inr ⟨?_, observedPresent module unmatched.1 named present.1.2⟩)
    intro old oldIn
    have apart := unmatched.2
    simp only [named, Bool.not_eq_true', List.any_eq_false] at apart
    simpa using apart old oldIn

theorem safe_observed (name : String) (wroteAt : Timestamp) (tables : RewriteTables)
    (unique : UniqueKey tables.ledger) (recorded : Recorded dep name wroteAt tables) :
    StillFlagged dep name wroteAt
        (observedLedger dep tables.ledger repo profileName headSha now observed) ∨
      (Owed dep name wroteAt tables.pending ∧
        name ∈ (observed.filter fun module => module.state = .present).map (·.name)) := by
  have origin := observed_origin dep tables.ledger repo profileName headSha now observed name
  rcases recorded with ⟨⟨held, heldIn, heldPresent⟩, flagged⟩ | ⟨lacks, owed⟩
  · left
    have heldKey : hasKey dep.repoId name held = true := by
      simp only [presentAt, Bool.and_eq_true] at heldPresent
      exact heldPresent.1.1
    intro row rowIn present
    rcases origin row rowIn present with ⟨old, oldIn, oldKey, -, needs, stamp⟩ | old |
      ⟨lacks, -⟩
    · -- The unique key makes the observed row the flagged one.
      simp only [hasKey, Bool.and_eq_true, beq_iff_eq] at heldKey oldKey
      have same : old = held := unique old oldIn held heldIn
        (oldKey.1.trans heldKey.1.symm) (by rw [oldKey.1]; rfl)
        (oldKey.2.trans heldKey.2.symm)
      obtain ⟨isFlagged, at', isAt, since⟩ := flagged held heldIn heldPresent
      rw [same] at needs stamp
      exact ⟨needs.trans isFlagged, at', stamp.trans isAt, since⟩
    · exact flagged row old present
    · rw [lacks held heldIn] at heldKey
      cases heldKey
  · by_cases commits :
        name ∈ (observed.filter fun module => module.state = .present).map (·.name)
    · exact Or.inr ⟨owed, commits⟩
    · left
      intro row rowIn present
      rcases origin row rowIn present with ⟨_, _, _, committed, _⟩ | old | ⟨-, committed⟩
      · exact absurd committed commits
      · simp only [lacksPresentRow, Bool.not_eq_true', List.any_eq_false] at lacks
        simp only [presentAt, Bool.and_eq_true] at present
        exact absurd (by simpa using present.1) (lacks row old)
      · exact absurd committed commits

end Observe

theorem inv_commitObserved (world : World) (inv : Inv dep world) (env : DbEnv)
    (profileName headSha : String) (observed : List ObservedModule) :
    Inv dep (step dep world (.commitObserved env profileName headSha observed)) := by
  unfold step
  simp only
  split
  · rename_i running
    cases run : Store.commitObserved env world.tables.ledger dep.repoId profileName
        dep.odooVersion headSha observed none with
    | error raised => exact inv_failed dep world inv
    | ok outcome =>
        obtain ⟨result, ledger⟩ := outcome
        obtain ⟨-, repo, now, rfl⟩ := commitObserved_eq _ _ _ _ _ _ _ _ _ _ run
        refine inv.later dep (by rw [running]; decide) (by rw [running]; decide)
          ⟨nofun, nofun⟩ rfl rfl rfl rfl ?_
        intro change member
        have recorded := inv.safe change member
        unfold Safe at recorded ⊢
        rw [running] at recorded
        exact safe_observed dep repo profileName headSha now observed change.1 change.2
          world.tables (inv.unique (Or.inr running)) recorded
  · exact inv

/-- A module the run wrote and whose record is not newer than the read was parsed after
the graph write. -/
theorem reparsed_of_written (world : World) (name : String) (wroteAt stamp read : Timestamp)
    (parsedLater : ∀ parse ∈ world.parsed, read < parse.2) (written : name ∈ world.written)
    (since : wroteAt ≤ stamp) (covered : stamp ≤ read) : Reparsed world name wroteAt := by
  obtain ⟨parse, parseIn, same⟩ := List.mem_map.mp written
  have later := parsedLater parse parseIn
  exact ⟨parse, parseIn, same, Nat.lt_of_le_of_lt (since.trans covered) later⟩

theorem safe_cleared (world : World) (env : DbEnv) (read : Timestamp)
    (isRead : world.readAt = some read) (stampsOk : env.stampsOk = true)
    (parsedLater : ∀ parse ∈ world.parsed, read < parse.2) (result : Nat)
    (ledger : LedgerTable)
    (run : Rewrites.clearNeedsRewrite env world.tables.ledger dep.repoId
      (world.flags.filter world.written.contains) world.readAt = .ok (result, ledger))
    (name : String) (wroteAt : Timestamp)
    (flagged : StillFlagged dep name wroteAt world.tables.ledger) :
    StillFlagged dep name wroteAt ledger ∨ Reparsed world name wroteAt := by
  unfold Rewrites.clearNeedsRewrite at run
  simp only [stampsOk, if_true] at run
  split at run
  · cases run
    exact Or.inl flagged
  · obtain ⟨_, -, run⟩ := (bind_eq_ok _ _ _).mp run
    cases run
    by_cases cleared : ∃ row ∈ world.tables.ledger.rows, presentAt dep name row = true ∧
        clearable dep.repoId (sortedSet (world.flags.filter world.written.contains))
          world.readAt row = true
    · right
      obtain ⟨row, rowIn, present, covered⟩ := cleared
      obtain ⟨-, stamp, isStamp, since⟩ := flagged row rowIn present
      simp only [presentAt, hasKey, Bool.and_eq_true, beq_iff_eq] at present
      simp only [clearable, isRead, isStamp, Bool.and_eq_true, decide_eq_true_eq,
        List.contains_iff_mem, mem_sortedSet, List.mem_filter, present.1.1.2] at covered
      exact reparsed_of_written world name wroteAt stamp read parsedLater covered.1.1.2.2
        since covered.2
    · left
      intro row rowIn present
      obtain ⟨old, oldIn, rfl⟩ := List.mem_map.mp rowIn
      by_cases selected : clearable dep.repoId
          (sortedSet (world.flags.filter world.written.contains)) world.readAt old = true
      · rw [if_pos selected] at present
        exact absurd ⟨old, oldIn, present, selected⟩ cleared
      · rw [if_neg selected] at present ⊢
        exact flagged old oldIn present

theorem inv_clearNeedsRewrite (world : World) (inv : Inv dep world) (env : DbEnv)
    (stampsOk : env.stampsOk = true) : Inv dep (step dep world (.clearNeedsRewrite env)) := by
  unfold step
  simp only
  split
  · rename_i isObserved
    cases run : Rewrites.clearNeedsRewrite env world.tables.ledger dep.repoId
        (world.flags.filter world.written.contains) world.readAt with
    | error raised => exact inv_failed dep world inv
    | ok outcome =>
        obtain ⟨result, ledger⟩ := outcome
        obtain ⟨read, isRead, parsedLater⟩ :=
          inv.clocked (by rw [isObserved]; decide) (by rw [isObserved]; decide)
        refine inv.later dep (by rw [isObserved]; decide) (by rw [isObserved]; decide)
          ⟨nofun, nofun⟩ rfl rfl rfl rfl ?_
        intro change member
        have safe := inv.safe change member
        unfold Safe at safe ⊢
        rw [isObserved] at safe
        rcases safe with flagged | waits
        · rcases safe_cleared dep world env read isRead stampsOk parsedLater result ledger run
            change.1 change.2 flagged with still | parsed
          · exact Or.inl still
          · exact Or.inr (Or.inr parsed)
        · exact Or.inr (Or.inl waits)
  · exact inv

theorem applyHits_cases (env : DbEnv) (hits : List PendingRewrite) (written : List String)
    (read : Timestamp) (name : String) (old : PresenceRow)
    (present : presentAt dep name
      (applyHits env hits dep.odooVersion dep.repoId written read old) = true) :
    presentAt dep name old = true ∧
      ((applyHits env hits dep.odooVersion dep.repoId written read old).needsRewrite = true ∨
        (appliedEntry hits dep.odooVersion dep.repoId written read old = none ∧
          applyHits env hits dep.odooVersion dep.repoId written read old = old)) := by
  unfold applyHits at present ⊢
  cases found : appliedEntry hits dep.odooVersion dep.repoId written read old with
  | none =>
      rw [found] at present
      exact ⟨present, Or.inr ⟨rfl, rfl⟩⟩
  | some hit =>
      rw [found] at present
      exact ⟨present, Or.inl rfl⟩

/-- An entry that flags no present row of its module is older than the read, and the run
wrote the module. -/
theorem written_of_unapplied (hits : List PendingRewrite) (written : List String)
    (read : Timestamp) (name : String) (old : PresenceRow)
    (present : presentAt dep name old = true) (entry : PendingRewrite) (entryIn : entry ∈ hits)
    (same : entry.name = name)
    (unapplied : appliedEntry hits dep.odooVersion dep.repoId written read old = none) :
    entry.flaggedAt ≤ read ∧ name ∈ written := by
  have fails := List.find?_eq_none.mp unapplied entry entryIn
  simp only [presentAt, Bool.and_eq_true, beq_iff_eq] at present
  simp only [same, present, beq_self_eq_true, Bool.true_and, Bool.or_eq_true,
    decide_eq_true_eq, Bool.not_eq_true', contains_eq_false_iff, not_or, not_lt,
    not_not] at fails
  exact fails

theorem inv_applyPendingRewrites (world : World) (inv : Inv dep world) (env : DbEnv)
    (stampsOk : env.stampsOk = true) :
    Inv dep (step dep world (.applyPendingRewrites env)) := by
  unfold step
  simp only
  split
  · rename_i isCleared
    cases run : Rewrites.applyPendingRewrites env world.tables dep.repoId dep.odooVersion
        world.presentNames world.written world.readAt with
    | error raised => exact inv_failed dep world inv
    | ok outcome =>
        obtain ⟨names, tables⟩ := outcome
        obtain ⟨read, isRead, parsedLater⟩ :=
          inv.clocked (by rw [isCleared]; decide) (by rw [isCleared]; decide)
        refine inv.later dep (by rw [isCleared]; decide) (by rw [isCleared]; decide)
          ⟨nofun, nofun⟩ rfl rfl rfl rfl ?_
        intro change member
        have safe := inv.safe change member
        unfold Safe at safe ⊢
        rw [isCleared] at safe
        unfold Rewrites.applyPendingRewrites at run
        simp only [isRead, stampsOk, Bool.not_true, Bool.or_false] at run
        split at run
        · rename_i nothing
          cases run
          intro row rowIn present
          have nonePresent : world.presentNames = [] := by simpa using nothing
          rcases safe with flagged | waits | parsed
          · exact Or.inl (flagged row rowIn present).1
          · have waiting := waits.2
            rw [nonePresent] at waiting
            cases waiting
          · exact Or.inr parsed
        · obtain ⟨_, -, run⟩ := (bind_eq_ok _ _ _).mp run
          cases run
          intro row rowIn present
          obtain ⟨old, oldIn, rfl⟩ := List.mem_map.mp rowIn
          obtain ⟨oldPresent, flagged | ⟨unapplied, same⟩⟩ :=
            applyHits_cases dep env _ world.written read change.1 old present
          · exact Or.inl flagged
          · rcases safe with flagged | waits | parsed
            · rw [same]
              exact Or.inl (flagged old oldIn oldPresent).1
            · obtain ⟨⟨entry, entryIn, version, repo, named, since⟩, waiting⟩ := waits
              have hit : entry ∈ world.tables.pending.filter
                  (consumed dep.odooVersion dep.repoId (sortedSet world.presentNames)) := by
                refine List.mem_filter.mpr ⟨entryIn, ?_⟩
                simp [consumed, version, repo, named, waiting]
              obtain ⟨covered, written⟩ := written_of_unapplied dep _ world.written read
                change.1 old oldPresent entry hit named unapplied
              exact Or.inr (reparsed_of_written world change.1 change.2 entry.flaggedAt read
                parsedLater written since covered)
            · exact Or.inr parsed
  · exact inv

theorem inv_step (world : World) (event : Event) (records : Records dep world event)
    (inv : Inv dep world) : Inv dep (step dep world event) := by
  cases event with
  | flag env wroteAt odooVersion names pairs excludeRepoIds =>
      exact inv_flag dep world inv env wroteAt odooVersion names pairs excludeRepoIds records
  | snapshot env => exact inv_snapshot dep world inv env records
  | parse name at' => exact inv_parse dep world inv name at'
  | commitObserved env profileName headSha observed =>
      exact inv_commitObserved dep world inv env profileName headSha observed
  | clearNeedsRewrite env => exact inv_clearNeedsRewrite dep world inv env records
  | applyPendingRewrites env => exact inv_applyPendingRewrites dep world inv env records

theorem Inv.noFlagLost (world : World) (inv : Inv dep world) : NoFlagLost dep world := by
  intro finished change member row rowIn present
  have safe := inv.safe change member
  unfold Safe at safe
  rw [finished] at safe
  exact safe row rowIn present

end Invariant

/-- In every interleaving in which each flag call before the commit of the rows reaches
its dependents and no pending entry is purged, no flag is lost. -/
theorem no_flag_lost (dep : Dependent) (tables : RewriteTables)
    (unique : UniqueKey tables.ledger) (events : List Event)
    (records : AllSteps (step dep) (Records dep) (World.start tables) events) :
    NoFlagLost dep (run (step dep) (World.start tables) events) := by
  have inv := run_preserves_guarded (step dep) (Records dep) (Inv dep)
    (inv_step dep) events (World.start tables) records (inv_start dep tables unique)
  exact inv.noFlagLost

/-- The repository ships `sale` and `stock`; the ledger has both, `sale` at the given
version and `stock` at 18.0. -/
def sampleRow (id : Nat) (name odooVersion : String) : PresenceRow :=
  { id, repoId := some 4, repoUrl := "git@host:shop.git", repoBasename := "shop"
    repoBranch := odooVersion, profileName := "shop_18", odooVersion, name
    path := "/srv/shop/" ++ name, manifestFile := "__manifest__.py", state := .present
    firstSeenSha := "a1", firstSeenAt := 1, lastSeenSha := "a1", lastSeenAt := 1
    updatedAt := 1 }

def sampleTables (saleVersion : String) : RewriteTables :=
  { ledger := ⟨[sampleRow 0 "sale" saleVersion, sampleRow 1 "stock" "18.0"], 2⟩
    pending := [] }

def sampleDependent : Dependent :=
  { repoId := 4, odooVersion := "18.0", basename := "shop", named := by decide }

def sampleEnv (clock : Timestamp) : DbEnv :=
  { repos := fun id => some
      { id, url := "git@host:shop.git", branch := "18.0", localPath := "/srv/shop" }
    now := clock
    clock
    lockAcquired := fun _ => true
    mergeSourceOk := true
    stampsOk := true }

theorem present_reasoned :
    ObservedState.present = .excluded ↔ (none : Option ExclusionReason).isSome = true := by
  decide

def saleModule : ObservedModule :=
  { name := "sale", path := "/srv/shop/sale", manifestFile := "__manifest__.py"
    state := .present, exclusionReason := none, versionRaw := none
    versionMismatch := false, shadowedPaths := [], named := by decide
    reasoned := present_reasoned }

/-- The upstream writes and flags after the dependent run has parsed `sale`. -/
def sampleEvents : List Event :=
  [.snapshot (sampleEnv 5),
    .parse "sale" 10,
    .flag (sampleEnv 21) 20 "18.0" ["sale"] [("shop", "sale")] [],
    .commitObserved (sampleEnv 30) "shop_18" "b2" [saleModule],
    .clearNeedsRewrite (sampleEnv 31),
    .applyPendingRewrites (sampleEnv 32)]

theorem sample_no_flag_lost :
    UniqueKey (sampleTables "18.0").ledger ∧
      AllSteps (step sampleDependent) (Records sampleDependent)
        (World.start (sampleTables "18.0")) sampleEvents ∧
      NoFlagLost sampleDependent
        (run (step sampleDependent) (World.start (sampleTables "18.0")) sampleEvents) :=
  have unique : UniqueKey (sampleTables "18.0").ledger := by decide
  have records : AllSteps (step sampleDependent) (Records sampleDependent)
      (World.start (sampleTables "18.0")) sampleEvents := by decide
  ⟨unique, records, no_flag_lost sampleDependent (sampleTables "18.0") unique sampleEvents
    records⟩

/-- A row of another version is no target of the flag update, and its presence keeps the
pending entry from being written. -/
theorem moved_version_loses_flag :
    ¬ ∀ (dep : Dependent) (tables : RewriteTables), UniqueKey tables.ledger →
      (∃ row ∈ tables.ledger.rows, row.repoId = some dep.repoId) →
      ∀ events, NoFlagLost dep (run (step dep) (World.start tables) events) := by
  intro claim
  have lost := claim sampleDependent (sampleTables "17.0") (by decide)
    ⟨sampleRow 0 "sale" "17.0", by decide, rfl⟩ sampleEvents
  revert lost
  decide

end OdooSemantic.Ledger.Propagation
