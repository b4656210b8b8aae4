import OdooSemantic.Ledger.Propagation

/-!
# Dependency propagation against the first index of a repository

A repository that was never indexed has no ledger row that could be flagged, so a propagation
resets its `head_sha`.  The first run of the repository stamps `head_sha` at its end.  The steps
of the propagation and of the run interleave freely; each store call is one transaction.
-/

set_option autoImplicit false

namespace OdooSemantic.Ledger.FirstIndex

open Lib Lib.Py Lib.Run
open Ledger.Rows Ledger.Store Ledger.Rewrites
open Ledger.Propagation (Dependent presentAt flagDependents_rows observedLedger)

/-- A row of `repos` with the version of its profile. -/
structure RegisteredRepo where
  id : Nat
  localPath : String
  odooVersion : String
  headSha : Option String

/-- `regexp_replace(r.local_path, '^.*/', '')`. -/
def lastSegment (localPath : String) : String :=
  String.ofList (localPath.toList.reverse.takeWhile (· != '/')).reverse

def repoIdsByBasenames (repos : List RegisteredRepo) (basenames : List String)
    (odooVersion : String) : List Nat :=
  (repos.filter fun repo =>
    basenames.contains (lastSegment repo.localPath) && repo.odooVersion == odooVersion).map (·.id)

def resetHeadSha (repos : List RegisteredRepo) (ids : List Nat) : List RegisteredRepo :=
  repos.map fun repo => if ids.contains repo.id then { repo with headSha := none } else repo

def updateRepoHeadSha (repos : List RegisteredRepo) (id : Nat) (headSha : String) :
    List RegisteredRepo :=
  repos.map fun repo => if repo.id = id then { repo with headSha := some headSha } else repo

def repoIdsWithoutRows (ledger : LedgerTable) (ids : List Nat) (odooVersion : String) :
    List Nat :=
  ids.filter fun id => !ledger.rows.any fun row => ofRepo id row && row.odooVersion == odooVersion

structure Setting where
  dep : Dependent
  lifecycleOn : Bool
  ledger : Bool
  excludeRepoId : Option Nat
  excludeBasenames : List String
  other : excludeRepoId ≠ some dep.repoId

/-- How far the propagation is. -/
inductive Stage where
  | waiting
  | wrote
  | walked
  | looked
  | flagged
  | filtered
  | done
  | raised
  deriving DecidableEq

inductive Phase where
  | idle
  | running
  | observed
  | cleared
  | applied
  | finished
  | failed
  deriving DecidableEq

/-- The shared tables; the propagation with the modules its walk found and the repositories it
would reset; the run with the modules it wrote, before and since the upstream's graph write. -/
structure World where
  tables : RewriteTables
  repos : List RegisteredRepo
  stage : Stage
  found : List (String × Option String)
  fallbackIds : List Nat
  complete : Bool
  unreached : Bool
  phase : Phase
  flags : List String
  readAt : Option Timestamp
  observed : List ObservedModule
  written : List String
  writtenSince : List String

def World.start (tables : RewriteTables) (repos : List RegisteredRepo) : World :=
  { tables, repos, stage := .waiting, found := [], fallbackIds := [], complete := true
    unreached := false, phase := .idle, flags := [], readAt := none, observed := [], written := []
    writtenSince := [] }

/-- The modules the run finds present. -/
def World.shipped (world : World) : List String :=
  (world.observed.filter fun module => module.state = .present).map (·.name)

inductive Event where
  | upstreamWrite
  | walk (found : List (String × Option String))
  | walkFails (direct : List Nat)
  | lookup
  | flag (env : DbEnv)
  | withoutRows (fails : Bool)
  | reset
  | raise
  | start (env : DbEnv) (observed : List ObservedModule)
  | parse (name : String)
  | commitObserved (env : DbEnv) (profileName headSha : String)
  | clearNeedsRewrite (env : DbEnv)
  | applyPendingRewrites (env : DbEnv)
  | stamp (headSha : Option String)
  | stop

section Step
variable (setting : Setting)

def Setting.basenames (found : List (String × Option String)) : List String :=
  found.filterMap fun dependent =>
    dependent.2.filter fun basename => !setting.excludeBasenames.contains basename

def Setting.pairs (found : List (String × Option String)) : List (String × String) :=
  found.filterMap fun dependent =>
    (dependent.2.filter fun basename => !setting.excludeBasenames.contains basename).map
      fun basename => (basename, dependent.1)

/-- A step of `propagate_to_dependents`.  Without a ledger there are no flags; a flag write that
fails leaves the propagation incomplete. -/
def propagate (world : World) : Event → World
  | .upstreamWrite => if world.stage = .waiting then { world with stage := .wrote } else world
  | .walk found =>
      if world.stage = .wrote then
        { world with found, stage := if found.isEmpty then .done else .walked }
      else world
  | .walkFails direct =>
      if world.stage = .wrote then
        { world with repos := resetHeadSha world.repos direct, complete := false, stage := .done }
      else world
  | .lookup =>
      if world.stage = .walked then
        { world with
          fallbackIds := repoIdsByBasenames world.repos (setting.basenames world.found)
            setting.dep.odooVersion
          stage := .looked }
      else world
  | .flag env =>
      if world.stage = .looked then
        if setting.ledger then
          match flagDependents env world.tables setting.dep.odooVersion (world.found.map Prod.fst)
              (setting.pairs world.found) setting.excludeRepoId.toList with
          | .ok (_, tables) =>
              { world with
                tables
                unreached := world.phase = .idle || world.phase = .running
                stage := .flagged }
          | .error _ => { world with complete := false, stage := .filtered }
        else { world with unreached := true, stage := .filtered }
      else world
  | .withoutRows fails =>
      if world.stage = .flagged then
        { world with
          fallbackIds :=
            if fails then world.fallbackIds
            else repoIdsWithoutRows world.tables.ledger world.fallbackIds setting.dep.odooVersion
          stage := .filtered }
      else world
  | .reset =>
      if world.stage = .filtered then
        { world with repos := resetHeadSha world.repos world.fallbackIds, stage := .done }
      else world
  | .raise =>
      if world.stage = .walked ∨ world.stage = .filtered then { world with stage := .raised }
      else world
  | _ => world

/-- A step of the first run of the repository.  Without lifecycle it commits no rows; `head_sha`
is stamped last, unless the run's own propagation was not recorded. -/
def index (world : World) : Event → World
  | .start env observed =>
      if world.phase = .idle then
        match needsRewriteSnapshot env world.tables.ledger setting.dep.repoId
            [setting.dep.odooVersion] with
        | .ok (flags, readAt) => { world with phase := .running, flags, readAt, observed }
        | .error _ => { world with phase := .failed }
      else world
  | .parse name =>
      if world.phase = .running then
        { world with
          written := name :: world.written
          writtenSince :=
            if world.stage = .waiting then world.writtenSince else name :: world.writtenSince }
      else world
  | .commitObserved env profileName headSha =>
      if world.phase = .running ∧ setting.lifecycleOn = true then
        match Store.commitObserved env world.tables.ledger setting.dep.repoId profileName
            setting.dep.odooVersion headSha world.observed none with
        | .ok (_, ledger) =>
            { world with phase := .observed, tables := { world.tables with ledger } }
        | .error _ => { world with phase := .failed }
      else world
  | .clearNeedsRewrite env =>
      if world.phase = .observed then
        match Rewrites.clearNeedsRewrite env world.tables.ledger setting.dep.repoId
            (world.flags.filter world.written.contains) world.readAt with
        | .ok (_, ledger) =>
            { world with phase := .cleared, tables := { world.tables with ledger } }
        | .error _ => { world with phase := .failed }
      else world
  | .applyPendingRewrites env =>
      if world.phase = .cleared then
        match Rewrites.applyPendingRewrites env world.tables setting.dep.repoId
            setting.dep.odooVersion world.shipped world.written world.readAt with
        | .ok (_, tables) => { world with phase := .applied, tables }
        | .error _ => { world with phase := .failed }
      else world
  | .stamp headSha =>
      if world.phase = .applied ∨ world.phase = .running ∧ setting.lifecycleOn = false then
        { world with
          phase := .finished
          repos := headSha.elim world.repos (updateRepoHeadSha world.repos setting.dep.repoId) }
      else world
  | .stop =>
      if world.phase = .idle ∨ world.phase = .finished then world
      else { world with phase := .failed }
  | _ => world

def step (world : World) (event : Event) : World :=
  index setting (propagate setting world event) event

/-! ## What must not be lost -/

def Setting.dependents (found : List (String × Option String)) : List String :=
  (found.filter fun dependent => dependent.2 == some setting.dep.basename).map Prod.fst

/-- The dependents the run ships and wrote only before the upstream's graph write. -/
def Setting.outdated (world : World) : List String :=
  (setting.dependents world.found).filter fun name =>
    world.shipped.contains name && !world.writtenSince.contains name

/-- The next run indexes the whole repository. -/
def HeadNull (world : World) : Prop :=
  ∀ repo ∈ world.repos, repo.id = setting.dep.repoId → repo.headSha = none

/-- The next run writes the module: all of them, a pending rewrite, or a flag. -/
def Marked (world : World) (name : String) : Prop :=
  HeadNull setting world ∨
    (∃ entry ∈ world.tables.pending, entry.odooVersion = setting.dep.odooVersion ∧
      entry.repoId = setting.dep.repoId ∧ entry.name = name) ∨
    ∃ row ∈ world.tables.ledger.rows, presentAt setting.dep name row = true ∧
      row.needsRewrite = true

def Resting (world : World) : Prop :=
  world.phase = .idle ∨ world.phase = .finished ∨ world.phase = .failed

/-- Once the propagation has reported complete and no run is in progress, every dependent the
repository ships was written after the upstream's graph write or is marked. -/
def RewriteKept (world : World) : Prop :=
  world.stage = .done → world.complete = true → Resting world →
    ∀ name ∈ setting.dependents world.found,
      (world.phase = .finished → name ∈ world.shipped) →
        name ∈ world.writtenSince ∨ Marked setting world name

def ResetAhead (world : World) : Prop :=
  setting.dep.repoId ∈ world.fallbackIds ∧
    (world.stage = .filtered ∨ world.stage = .flagged ∧ setting.lifecycleOn = false)

def FlagsMissed (world : World) : Prop :=
  (world.stage = .flagged ∨ world.stage = .filtered ∨ world.stage = .done) ∧
    world.complete = true ∧ world.unreached = true

/-- A run that the flags have missed does not stamp `head_sha` over an outdated dependent before
the reset; a repository without ledger rows whose run is over is among those to reset. -/
def Ordered (world : World) : Event → Prop
  | .stamp (some _) =>
      FlagsMissed world → setting.outdated world = [] ∨ ResetAhead setting world
  | .flag _ =>
      world.phase = .finished → setting.lifecycleOn = false ∨ setting.ledger = false →
        setting.outdated world = [] ∨ setting.dep.repoId ∈ world.fallbackIds
  | _ => True

instance (world : World) : Decidable (HeadNull setting world) :=
  inferInstanceAs (Decidable (∀ repo ∈ world.repos, _ → _ = none))

instance (world : World) (name : String) : Decidable (Marked setting world name) :=
  inferInstanceAs (Decidable (HeadNull setting world ∨
    (∃ entry ∈ world.tables.pending, _ ∧ _ ∧ _) ∨ ∃ row ∈ world.tables.ledger.rows, _ ∧ _))

instance (world : World) : Decidable (RewriteKept setting world) :=
  inferInstanceAs (Decidable (_ → _ → _ ∨ _ ∨ _ →
    ∀ name ∈ setting.dependents world.found, (_ → _) → _ ∨ Marked setting world name))

instance (world : World) : Decidable (ResetAhead setting world) :=
  inferInstanceAs (Decidable (_ ∧ _))

instance (world : World) : Decidable (FlagsMissed world) :=
  inferInstanceAs (Decidable (_ ∧ _ ∧ _))

instance (world : World) (event : Event) : Decidable (Ordered setting world event) :=
  match event with
  | .stamp (some _) =>
      inferInstanceAs (Decidable (FlagsMissed world → _ ∨ ResetAhead setting world))
  | .flag _ => inferInstanceAs (Decidable (_ → _ ∨ _ → _ ∨ _))
  | .stamp none => instDecidableTrue
  | .upstreamWrite => instDecidableTrue
  | .walk _ => instDecidableTrue
  | .walkFails _ => instDecidableTrue
  | .lookup => instDecidableTrue
  | .withoutRows _ => instDecidableTrue
  | .reset => instDecidableTrue
  | .raise => instDecidableTrue
  | .start _ _ => instDecidableTrue
  | .parse _ => instDecidableTrue
  | .commitObserved _ _ _ => instDecidableTrue
  | .clearNeedsRewrite _ => instDecidableTrue
  | .applyPendingRewrites _ => instDecidableTrue
  | .stop => instDecidableTrue

end Step

section Invariant
variable (setting : Setting)

def FlagsReached (world : World) : Prop :=
  world.unreached = false ∧ setting.lifecycleOn = true

/-- What stands behind an outdated dependent once the run is over. -/
def Promised (world : World) : Prop :=
  match world.stage with
  | .flagged => FlagsReached setting world ∨
      setting.dep.repoId ∈ world.fallbackIds ∧ setting.lifecycleOn = false
  | .filtered => FlagsReached setting world ∨ setting.dep.repoId ∈ world.fallbackIds
  | .done => FlagsReached setting world
  | _ => True

structure Inv (world : World) : Prop where
  unstamped : world.phase ≠ .finished → HeadNull setting world
  rowless : world.phase = .idle ∨ world.phase = .running ∨ setting.lifecycleOn = false →
    ∀ row ∈ world.tables.ledger.rows, ofRepo setting.dep.repoId row = false
  rows : setting.lifecycleOn = true → world.phase = .observed ∨ world.phase = .cleared ∨
      world.phase = .applied ∨ world.phase = .finished →
    ∀ name ∈ world.shipped, ∃ row ∈ world.tables.ledger.rows,
      presentAt setting.dep name row = true
  flags : world.flags = []
  committed : world.phase = .observed ∨ world.phase = .cleared ∨ world.phase = .applied →
    setting.lifecycleOn = true
  reached : world.stage = .flagged ∨ world.stage = .filtered ∨ world.stage = .done →
    world.complete = true → world.unreached = false →
      (world.found = [] ∨ world.phase ≠ .idle ∧ world.phase ≠ .running) ∧
        ∀ name ∈ setting.dependents world.found, ∀ row ∈ world.tables.ledger.rows,
          presentAt setting.dep name row = true → row.needsRewrite = true
  finished : world.phase = .finished → world.complete = true →
    setting.outdated world ≠ [] → HeadNull setting world ∨ Promised setting world

theorem inv_start (tables : RewriteTables) (repos : List RegisteredRepo)
    (rowless : ∀ row ∈ tables.ledger.rows, ofRepo setting.dep.repoId row = false)
    (unstamped : ∀ repo ∈ repos, repo.id = setting.dep.repoId → repo.headSha = none) :
    Inv setting (World.start tables repos) where
  unstamped := fun _ => unstamped
  rowless := fun _ => rowless
  rows := fun _ late => by simp only [World.start, reduceCtorEq, or_self] at late
  flags := rfl
  committed := fun late => by simp only [World.start, reduceCtorEq, or_self] at late
  reached := fun late => by simp only [World.start, reduceCtorEq, or_self] at late
  finished := fun late => by cases late

theorem mem_resetHeadSha {repos : List RegisteredRepo} {ids : List Nat} {repo : RegisteredRepo}
    (listed : repo ∈ resetHeadSha repos ids) :
    repo.headSha = none ∨ repo.id ∉ ids ∧ repo ∈ repos := by
  obtain ⟨old, oldIn, same⟩ := List.mem_map.mp listed
  split at same
  next =>
    rw [← same]
    exact .inl rfl
  next kept =>
    rw [← same]
    exact .inr ⟨fun inIds => kept (List.contains_iff_mem.mpr inIds), oldIn⟩

theorem headNull_reset {world after : World} {ids : List Nat} (null : HeadNull setting world)
    (repos : after.repos = resetHeadSha world.repos ids) : HeadNull setting after := by
  intro repo listed same
  rw [repos] at listed
  obtain reset | ⟨_, old⟩ := mem_resetHeadSha listed
  · exact reset
  · exact null repo old same

theorem headNull_reset_self {world after : World} {ids : List Nat}
    (repos : after.repos = resetHeadSha world.repos ids) (listed : setting.dep.repoId ∈ ids) :
    HeadNull setting after := by
  intro repo repoIn same
  rw [repos] at repoIn
  obtain reset | ⟨other, _⟩ := mem_resetHeadSha repoIn
  · exact reset
  · rw [same] at other
    exact absurd listed other

section Propagation
variable {setting} {world : World}

/-- A step of the propagation that leaves the ledger alone. -/
theorem Inv.passes {after : World} (inv : Inv setting world)
    (null : HeadNull setting world → HeadNull setting after)
    (tables : after.tables = world.tables) (phase : after.phase = world.phase)
    (flags : after.flags = world.flags) (observed : after.observed = world.observed)
    (reached : after.stage = .flagged ∨ after.stage = .filtered ∨ after.stage = .done →
      after.complete = true → after.unreached = false →
        (after.found = [] ∨ after.phase ≠ .idle ∧ after.phase ≠ .running) ∧
          ∀ name ∈ setting.dependents after.found, ∀ row ∈ after.tables.ledger.rows,
            presentAt setting.dep name row = true → row.needsRewrite = true)
    (finished : after.phase = .finished → after.complete = true →
      setting.outdated after ≠ [] → HeadNull setting after ∨ Promised setting after) :
    Inv setting after where
  unstamped := by
    rw [phase]
    exact fun early => null (inv.unstamped early)
  rowless := by
    rw [phase, tables]
    exact inv.rowless
  rows := by
    rw [phase, tables]
    unfold World.shipped
    rw [observed]
    exact inv.rows
  flags := flags.trans inv.flags
  committed := by
    rw [phase]
    exact inv.committed
  reached := reached
  finished := finished

theorem inv_upstreamWrite (inv : Inv setting world) :
    Inv setting (propagate setting world .upstreamWrite) := by
  unfold propagate
  dsimp only
  split
  · refine inv.passes (fun null => null) rfl rfl rfl rfl ?_ ?_
    · intro late
      simp only [reduceCtorEq, or_self] at late
    · intro _ _ _
      exact .inr trivial
  · exact inv

theorem inv_walk (inv : Inv setting world) (found : List (String × Option String)) :
    Inv setting (propagate setting world (.walk found)) := by
  unfold propagate
  dsimp only
  split
  · cases found with
    | nil =>
        refine inv.passes (fun null => null) rfl rfl rfl rfl ?_ ?_
        · intro _ _ _
          refine ⟨.inl rfl, ?_⟩
          intro name listed
          cases listed
        · intro _ _ outdated
          exact absurd rfl outdated
    | cons first rest =>
        refine inv.passes (fun null => null) rfl rfl rfl rfl ?_ ?_
        · intro late
          simp only [List.isEmpty_cons, Bool.false_eq_true, if_false, reduceCtorEq, or_self] at late
        · intro _ _ _
          exact .inr trivial
  · exact inv

theorem inv_walkFails (inv : Inv setting world) (direct : List Nat) :
    Inv setting (propagate setting world (.walkFails direct)) := by
  unfold propagate
  dsimp only
  split
  · refine inv.passes (fun null => headNull_reset setting null rfl) rfl rfl rfl rfl ?_ ?_
    · intro _ complete
      cases complete
    · intro _ complete
      cases complete
  · exact inv

theorem inv_lookup (inv : Inv setting world) :
    Inv setting (propagate setting world .lookup) := by
  unfold propagate
  dsimp only
  split
  · refine inv.passes (fun null => null) rfl rfl rfl rfl ?_ ?_
    · intro late
      simp only [reduceCtorEq, or_self] at late
    · intro _ _ _
      exact .inr trivial
  · exact inv

theorem inv_raise (inv : Inv setting world) :
    Inv setting (propagate setting world .raise) := by
  unfold propagate
  dsimp only
  split
  · refine inv.passes (fun null => null) rfl rfl rfl rfl ?_ ?_
    · intro late
      simp only [reduceCtorEq, or_self] at late
    · intro _ _ _
      exact .inr trivial
  · exact inv

theorem inv_withoutRows (inv : Inv setting world) (fails : Bool) :
    Inv setting (propagate setting world (.withoutRows fails)) := by
  unfold propagate
  dsimp only
  split
  next flagged =>
    refine inv.passes (fun null => null) rfl rfl rfl rfl ?_ ?_
    · intro _ complete reached
      exact inv.reached (.inl flagged) complete reached
    · intro ended complete outdated
      obtain null | promised := inv.finished ended complete outdated
      · exact .inl null
      · refine .inr ?_
        unfold Promised at promised
        rw [flagged] at promised
        obtain reached | ⟨listed, off⟩ := promised
        · exact .inl reached
        · refine .inr ?_
          dsimp only
          split
          · exact listed
          · -- Without lifecycle the repository never gets a row.
            have none := inv.rowless (.inr (.inr off))
            refine List.mem_filter.mpr ⟨listed, ?_⟩
            rw [Bool.not_eq_true', List.any_eq_false]
            intro row rowIn both
            rw [none row rowIn] at both
            cases both
  next => exact inv

theorem inv_reset (inv : Inv setting world) : Inv setting (propagate setting world .reset) := by
  unfold propagate
  dsimp only
  split
  next filtered =>
    refine inv.passes (fun null => headNull_reset setting null rfl) rfl rfl rfl rfl ?_ ?_
    · intro _ complete reached
      exact inv.reached (.inr (.inl filtered)) complete reached
    · intro ended complete outdated
      obtain null | promised := inv.finished ended complete outdated
      · exact .inl (headNull_reset setting null rfl)
      · unfold Promised at promised
        rw [filtered] at promised
        obtain reached | listed := promised
        · exact .inr reached
        · exact .inl (headNull_reset_self setting rfl listed)
  next => exact inv

theorem flagged_row {env : DbEnv} {tables : RewriteTables} {result : List (Nat × String) × Nat}
    (run : flagDependents env world.tables setting.dep.odooVersion (world.found.map Prod.fst)
      (setting.pairs world.found) setting.excludeRepoId.toList = .ok (result, tables))
    {row : PresenceRow} (listed : row ∈ tables.ledger.rows) :
    (∃ old ∈ world.tables.ledger.rows, ofRepo setting.dep.repoId row = ofRepo setting.dep.repoId old) ∧
      ∀ name ∈ setting.dependents world.found, presentAt setting.dep name row = true →
        row.needsRewrite = true := by
  rw [flagDependents_rows _ _ _ _ _ _ _ _ run] at listed
  obtain ⟨old, oldIn, same⟩ := List.mem_map.mp listed
  split at same
  next flagged =>
    rw [← same]
    exact ⟨⟨old, oldIn, rfl⟩, fun _ _ _ => rfl⟩
  next spared =>
    rw [← same]
    refine ⟨⟨old, oldIn, rfl⟩, ?_⟩
    intro name dependent present
    refine absurd ?_ spared
    obtain ⟨pair, pairIn, named⟩ := List.mem_map.mp dependent
    have found : name ∈ world.found.map Prod.fst :=
      List.mem_map.mpr ⟨pair, (List.mem_filter.mp pairIn).1, named⟩
    simp only [presentAt, hasKey, Bool.and_eq_true, beq_iff_eq] at present
    obtain ⟨⟨⟨repo, sameName⟩, state⟩, version⟩ := present
    simp only [flaggable, version, sameName, state, repo, beq_self_eq_true, Bool.true_and,
      Option.any_some, Bool.and_eq_true, Bool.not_eq_true', Bool.and_true]
    refine ⟨List.contains_iff_mem.mpr ((mem_sortedSet _ _).mpr found), ?_⟩
    rw [← Bool.not_eq_true, List.contains_iff_mem, Option.mem_toList]
    exact setting.other

theorem flagged_present {env : DbEnv} {tables : RewriteTables}
    {result : List (Nat × String) × Nat}
    (run : flagDependents env world.tables setting.dep.odooVersion (world.found.map Prod.fst)
      (setting.pairs world.found) setting.excludeRepoId.toList = .ok (result, tables))
    {name : String} (found : ∃ row ∈ world.tables.ledger.rows, presentAt setting.dep name row = true) :
    ∃ row ∈ tables.ledger.rows, presentAt setting.dep name row = true := by
  obtain ⟨row, rowIn, present⟩ := found
  rw [flagDependents_rows _ _ _ _ _ _ _ _ run]
  refine ⟨_, List.mem_map_of_mem rowIn, ?_⟩
  split
  · exact present
  · exact present

theorem inv_flag (inv : Inv setting world) (env : DbEnv) (ordered : Ordered setting world (.flag env)) :
    Inv setting (propagate setting world (.flag env)) := by
  unfold propagate
  dsimp only
  split
  · cases ledger : setting.ledger with
    | false =>
        rw [if_neg Bool.false_ne_true]
        refine inv.passes (fun null => null) rfl rfl rfl rfl ?_ ?_
        · intro _ _ reached
          cases reached
        · intro ended _ outdated
          refine .inr (.inr ?_)
          exact (ordered ended (.inr ledger)).resolve_left outdated
    | true =>
        rw [if_pos rfl]
        cases run : flagDependents env world.tables setting.dep.odooVersion
            (world.found.map Prod.fst) (setting.pairs world.found) setting.excludeRepoId.toList with
        | error raised =>
            refine inv.passes (fun null => null) rfl rfl rfl rfl ?_ ?_
            · intro _ complete
              cases complete
            · intro _ complete
              cases complete
        | ok outcome =>
            obtain ⟨result, tables⟩ := outcome
            refine ⟨inv.unstamped, ?_, ?_, inv.flags, inv.committed, ?_, ?_⟩
            · intro early row rowIn
              obtain ⟨old, oldIn, same⟩ := (flagged_row run rowIn).1
              rw [same]
              exact inv.rowless early old oldIn
            · intro lifecycleOn late name shipped
              exact flagged_present run (inv.rows lifecycleOn late name shipped)
            · intro _ _ reached
              simp only [Bool.or_eq_false_iff, decide_eq_false_iff_not] at reached
              exact ⟨.inr reached, fun name dependent row rowIn => (flagged_row run rowIn).2 name dependent⟩
            · intro ended _ outdated
              refine .inr ?_
              cases lifecycleOn : setting.lifecycleOn with
              | true =>
                  refine .inl ⟨?_, lifecycleOn⟩
                  dsimp only at ended ⊢
                  rw [ended]
                  rfl
              | false =>
                  refine .inr ⟨?_, lifecycleOn⟩
                  exact (ordered ended (.inl lifecycleOn)).resolve_left outdated
  · exact inv

theorem inv_propagate (inv : Inv setting world) (event : Event)
    (ordered : Ordered setting world event) : Inv setting (propagate setting world event) := by
  cases event with
  | upstreamWrite => exact inv_upstreamWrite inv
  | walk found => exact inv_walk inv found
  | walkFails direct => exact inv_walkFails inv direct
  | lookup => exact inv_lookup inv
  | flag env => exact inv_flag inv env ordered
  | withoutRows fails => exact inv_withoutRows inv fails
  | reset => exact inv_reset inv
  | raise => exact inv_raise inv
  | _ => exact inv

end Propagation

section Indexing
variable {setting} {world : World}

theorem inv_failed (inv : Inv setting world) (unfinished : world.phase ≠ .finished) : Inv setting { world with phase := .failed } where
  unstamped := fun _ => inv.unstamped unfinished
  rowless := by
    intro early
    obtain early | early | off := early
    · cases early
    · cases early
    · exact inv.rowless (.inr (.inr off))
  rows := fun _ late => by simp only [reduceCtorEq, or_self] at late
  flags := inv.flags
  committed := fun late => by simp only [reduceCtorEq, or_self] at late
  reached := by
    intro late complete reached
    have before := inv.reached late complete reached
    refine ⟨.inr ⟨?_, ?_⟩, before.2⟩
    · intro same
      cases same
    · intro same
      cases same
  finished := fun ended => by cases ended

theorem snapshot_flags {env : DbEnv} {ledger : LedgerTable} {versions : List String}
    {flags : List String} {readAt : Option Timestamp}
    (rowless : ∀ row ∈ ledger.rows, ofRepo setting.dep.repoId row = false)
    (run : needsRewriteSnapshot env ledger setting.dep.repoId versions = .ok (flags, readAt)) :
    flags = [] := by
  have none : needsRewriteNames ledger setting.dep.repoId = [] := by
    have empty : (ledger.rows.filter fun row =>
        ofRepo setting.dep.repoId row && row.needsRewrite) = [] := by
      rw [List.filter_eq_nil_iff]
      intro row rowIn flagged
      rw [rowless row rowIn] at flagged
      cases flagged
    rw [needsRewriteNames, empty]
    rfl
  unfold needsRewriteSnapshot at run
  simp only [none, List.isEmpty_nil, if_true] at run
  split at run
  · cases run
    rfl
  · cases run
    rfl

theorem inv_begin (inv : Inv setting world) (env : DbEnv) (observed : List ObservedModule) :
    Inv setting (index setting world (.start env observed)) := by
  unfold index
  dsimp only
  split
  next idle =>
    have rowless := inv.rowless (.inl idle)
    have null := inv.unstamped (by rw [idle]; decide)
    cases run : needsRewriteSnapshot env world.tables.ledger setting.dep.repoId
        [setting.dep.odooVersion] with
    | error raised =>
        exact inv_failed inv (by rw [idle]; decide)
    | ok outcome =>
        obtain ⟨flags, readAt⟩ := outcome
        refine ⟨fun _ => null, fun _ => rowless, ?_, snapshot_flags rowless run, ?_, ?_,
          fun ended => by cases ended⟩
        · intro _ late
          simp only [reduceCtorEq, or_self] at late
        · intro late
          simp only [reduceCtorEq, or_self] at late
        · intro late complete reached
          have before := inv.reached late complete reached
          refine ⟨.inl ?_, before.2⟩
          obtain none | ⟨busy, _⟩ := before.1
          · exact none
          · exact absurd idle busy
  next => exact inv

theorem inv_parse (inv : Inv setting world) (name : String) :
    Inv setting (index setting world (.parse name)) := by
  unfold index
  dsimp only
  split
  next running =>
    refine ⟨inv.unstamped, inv.rowless, inv.rows, inv.flags, inv.committed, inv.reached, ?_⟩
    intro ended
    rw [show world.phase = .finished from ended] at running
    cases running
  next => exact inv

theorem observedLedger_present {dep : Dependent} {ledger : LedgerTable} (repo : RepoRow)
    (profileName headSha : String) (now : Timestamp) {observed : List ObservedModule}
    (rowless : ∀ row ∈ ledger.rows, ofRepo dep.repoId row = false) {name : String}
    (shipped : name ∈ (observed.filter fun module => module.state = .present).map (·.name)) :
    ∃ row ∈ (observedLedger dep ledger repo profileName headSha now observed).rows,
      presentAt dep name row = true := by
  obtain ⟨module, moduleIn, named⟩ := List.mem_map.mp shipped
  obtain ⟨listed, present⟩ := List.mem_filter.mp moduleIn
  have unmatched : module ∈ Table.unmatched (fun module row => hasKey dep.repoId module.name row)
      (inNameOrder observed) ledger.rows := by
    refine List.mem_filter.mpr ⟨(mem_inNameOrder observed module).mpr listed, ?_⟩
    rw [Bool.not_eq_true', List.any_eq_false]
    intro row rowIn conflict
    have own : ofRepo dep.repoId row = true := (Bool.and_eq_true_iff.mp conflict).1
    rw [rowless row rowIn] at own
    cases own
  obtain ⟨position, placed⟩ := List.getElem?_of_mem unmatched
  refine ⟨observedInsert repo dep.repoId profileName dep.odooVersion headSha now
    (ledger.nextId + position) module, List.mem_append_right _ (List.mem_map.mpr
      ⟨(module, ledger.nextId + position), ?_, rfl⟩), ?_⟩
  · exact List.mk_add_mem_zipIdx_iff_getElem?.mpr placed
  · have isPresent : module.state.toState = .present := by
      rw [of_decide_eq_true present]
      rfl
    simp only [presentAt, hasKey, observedInsert, named, isPresent, beq_self_eq_true, Bool.and_self]

theorem inv_commitObserved (inv : Inv setting world) (env : DbEnv)
    (profileName headSha : String) :
    Inv setting (index setting world (.commitObserved env profileName headSha)) := by
  unfold index
  dsimp only
  split
  next ready =>
    obtain ⟨running, lifecycleOn⟩ := ready
    have null := inv.unstamped (by rw [running]; decide)
    cases run : Store.commitObserved env world.tables.ledger setting.dep.repoId profileName
        setting.dep.odooVersion headSha world.observed none with
    | error raised =>
        exact inv_failed inv (by rw [running]; decide)
    | ok outcome =>
        obtain ⟨result, ledger⟩ := outcome
        obtain ⟨-, repo, now, made⟩ := commitObserved_eq _ _ _ _ _ _ _ _ _ _ run
        refine ⟨fun _ => null, ?_, ?_, inv.flags, fun _ => lifecycleOn, ?_, fun ended => by cases ended⟩
        · intro early
          simp only [reduceCtorEq, lifecycleOn, Bool.true_eq_false, or_self] at early
        · intro _ _ name shipped
          rw [made]
          exact observedLedger_present repo profileName headSha now
            (inv.rowless (.inr (.inl running))) shipped
        · intro late complete reached
          obtain none | ⟨_, busy⟩ := (inv.reached late complete reached).1
          · refine ⟨.inl none, ?_⟩
            intro name listed
            dsimp only at listed
            rw [none] at listed
            cases listed
          · exact absurd running busy
  next => exact inv

theorem inv_clearNeedsRewrite (inv : Inv setting world) (env : DbEnv) :
    Inv setting (index setting world (.clearNeedsRewrite env)) := by
  unfold index
  dsimp only
  split
  next isObserved =>
    have nothing : Rewrites.clearNeedsRewrite env world.tables.ledger setting.dep.repoId
        (world.flags.filter world.written.contains) world.readAt = .ok (0, world.tables.ledger) := by
      rw [inv.flags]
      rfl
    rw [nothing]
    refine ⟨fun _ => inv.unstamped (by rw [isObserved]; decide), ?_, ?_, inv.flags,
      fun _ => inv.committed (.inl isObserved), ?_, fun ended => by cases ended⟩
    · intro early
      obtain early | early | off := early
      · cases early
      · cases early
      · exact inv.rowless (.inr (.inr off))
    · intro lifecycleOn _
      exact inv.rows lifecycleOn (.inl isObserved)
    · intro late complete reached
      refine ⟨.inr ⟨?_, ?_⟩, (inv.reached late complete reached).2⟩
      · intro same
        cases same
      · intro same
        cases same
  next => exact inv

theorem applied_row {env : DbEnv} {tables after : RewriteTables} {names written : List String}
    {readAt : Option Timestamp} {result : List String}
    (run : Rewrites.applyPendingRewrites env tables setting.dep.repoId setting.dep.odooVersion
      names written readAt = .ok (result, after)) :
    ∃ change : PresenceRow → PresenceRow, after.ledger.rows = tables.ledger.rows.map change ∧
      ∀ row, ofRepo setting.dep.repoId (change row) = ofRepo setting.dep.repoId row ∧
        (∀ name, presentAt setting.dep name (change row) = presentAt setting.dep name row) ∧
        (row.needsRewrite = true → (change row).needsRewrite = true) := by
  have same : ∃ change : PresenceRow → PresenceRow,
      tables.ledger.rows = tables.ledger.rows.map change ∧
        ∀ row, ofRepo setting.dep.repoId (change row) = ofRepo setting.dep.repoId row ∧
          (∀ name, presentAt setting.dep name (change row) = presentAt setting.dep name row) ∧
          (row.needsRewrite = true → (change row).needsRewrite = true) :=
    ⟨id, (List.map_id _).symm, fun row => ⟨rfl, fun _ => rfl, fun flagged => flagged⟩⟩
  unfold Rewrites.applyPendingRewrites at run
  cases readAt with
  | none =>
      cases run
      exact same
  | some read =>
      dsimp only at run
      split at run
      · cases run
        exact same
      · obtain ⟨_, -, run⟩ := (bind_eq_ok _ _ _).mp run
        cases run
        refine ⟨_, rfl, ?_⟩
        intro row
        unfold applyHits
        split
        · exact ⟨rfl, fun _ => rfl, fun _ => rfl⟩
        · exact ⟨rfl, fun _ => rfl, fun flagged => flagged⟩

theorem inv_applyPendingRewrites (inv : Inv setting world) (env : DbEnv) :
    Inv setting (index setting world (.applyPendingRewrites env)) := by
  unfold index
  dsimp only
  split
  next isCleared =>
    cases run : Rewrites.applyPendingRewrites env world.tables setting.dep.repoId
        setting.dep.odooVersion world.shipped world.written world.readAt with
    | error raised =>
        exact inv_failed inv (by rw [isCleared]; decide)
    | ok outcome =>
        obtain ⟨names, tables⟩ := outcome
        obtain ⟨change, rows, keeps⟩ := applied_row run
        refine ⟨fun _ => inv.unstamped (by rw [isCleared]; decide), ?_, ?_, inv.flags,
          fun _ => inv.committed (.inr (.inl isCleared)), ?_, fun ended => by cases ended⟩
        · intro early row rowIn
          dsimp only at rowIn
          rw [rows] at rowIn
          obtain ⟨old, oldIn, same⟩ := List.mem_map.mp rowIn
          obtain early | early | off := early
          · cases early
          · cases early
          · rw [← same, (keeps old).1]
            exact inv.rowless (.inr (.inr off)) old oldIn
        · intro lifecycleOn _ name shipped
          obtain ⟨old, oldIn, present⟩ := inv.rows lifecycleOn (.inr (.inl isCleared)) name shipped
          refine ⟨change old, ?_, ?_⟩
          · dsimp only
            rw [rows]
            exact List.mem_map_of_mem oldIn
          · rw [(keeps old).2.1]
            exact present
        · intro late complete reached
          refine ⟨.inr ⟨?_, ?_⟩, ?_⟩
          · intro same
            cases same
          · intro same
            cases same
          · intro name dependent row rowIn present
            dsimp only at rowIn
            rw [rows] at rowIn
            obtain ⟨old, oldIn, same⟩ := List.mem_map.mp rowIn
            rw [← same, (keeps old).2.1] at present
            rw [← same]
            exact (keeps old).2.2
              ((inv.reached late complete reached).2 name dependent old oldIn present)
  next => exact inv

theorem promised_stamp (inv : Inv setting world) {sha : String}
    (ready : world.phase = .applied ∨ world.phase = .running ∧ setting.lifecycleOn = false)
    (complete : world.complete = true) (outdated : setting.outdated world ≠ [])
    (ordered : Ordered setting world (.stamp (some sha))) : Promised setting world := by
  have found : world.found ≠ [] := by
    intro none
    refine outdated ?_
    rw [Setting.outdated, none]
    rfl
  have late : world.stage = .flagged ∨ world.stage = .filtered ∨ world.stage = .done →
      FlagsReached setting world ∨ ResetAhead setting world := by
    intro late
    cases reached : world.unreached with
    | true =>
        have missed : FlagsMissed world := ⟨late, complete, reached⟩
        exact .inr ((ordered missed).resolve_left outdated)
    | false =>
        obtain none | ⟨_, busy⟩ := (inv.reached late complete reached).1
        · exact absurd none found
        · obtain applied | ⟨running, _⟩ := ready
          · exact .inl ⟨reached, inv.committed (.inr (.inr applied))⟩
          · exact absurd running busy
  unfold Promised
  cases stage : world.stage with
  | flagged =>
      obtain reached | ⟨listed, ahead⟩ := late (.inl stage)
      · exact .inl reached
      · obtain filtered | ⟨_, off⟩ := ahead
        · rw [stage] at filtered
          cases filtered
        · exact .inr ⟨listed, off⟩
  | filtered =>
      obtain reached | ⟨listed, _⟩ := late (.inr (.inl stage))
      · exact .inl reached
      · exact .inr listed
  | done =>
      obtain reached | ⟨_, ahead⟩ := late (.inr (.inr stage))
      · exact reached
      · rw [stage] at ahead
        simp only [reduceCtorEq, false_and, or_self] at ahead
  | _ => trivial

theorem inv_stamp (inv : Inv setting world) (headSha : Option String)
    (ordered : Ordered setting world (.stamp headSha)) :
    Inv setting (index setting world (.stamp headSha)) := by
  unfold index
  dsimp only
  split
  next ready =>
    have unfinished : world.phase ≠ .finished := by
      intro ended
      rw [ended] at ready
      simp only [reduceCtorEq, false_and, or_self] at ready
    refine ⟨fun early => absurd rfl early, ?_, ?_, inv.flags, ?_, ?_, ?_⟩
    · intro early
      obtain early | early | off := early
      · cases early
      · cases early
      · exact inv.rowless (.inr (.inr off))
    · intro lifecycleOn _
      obtain applied | ⟨_, off⟩ := ready
      · exact inv.rows lifecycleOn (.inr (.inr (.inl applied)))
      · rw [lifecycleOn] at off
        cases off
    · intro late
      simp only [reduceCtorEq, or_self] at late
    · intro late complete reached
      refine ⟨.inr ⟨?_, ?_⟩, (inv.reached late complete reached).2⟩
      · intro same
        cases same
      · intro same
        cases same
    · intro _ complete outdated
      cases headSha with
      | none => exact .inl (inv.unstamped unfinished)
      | some sha =>
          have promised : Promised setting world :=
            promised_stamp inv ready complete outdated ordered
          exact .inr promised
  next => exact inv

theorem inv_stop (inv : Inv setting world) : Inv setting (index setting world .stop) := by
  unfold index
  dsimp only
  split
  next => exact inv
  next busy => exact inv_failed inv fun ended => busy (.inr ended)

theorem inv_index (inv : Inv setting world) (event : Event)
    (ordered : Ordered setting world event) : Inv setting (index setting world event) := by
  cases event with
  | start env observed => exact inv_begin inv env observed
  | parse name => exact inv_parse inv name
  | commitObserved env profileName headSha => exact inv_commitObserved inv env profileName headSha
  | clearNeedsRewrite env => exact inv_clearNeedsRewrite inv env
  | applyPendingRewrites env => exact inv_applyPendingRewrites inv env
  | stamp headSha => exact inv_stamp inv headSha ordered
  | stop => exact inv_stop inv
  | _ => exact inv

end Indexing

theorem inv_step (world : World) (event : Event) (ordered : Ordered setting world event)
    (inv : Inv setting world) : Inv setting (step setting world event) := by
  unfold step
  cases event with
  | start env observed | parse name | commitObserved env profileName headSha
  | clearNeedsRewrite env | applyPendingRewrites env | stamp headSha | stop => exact inv_index inv _ ordered
  | _ => exact inv_propagate inv _ ordered

theorem Inv.rewriteKept {world : World} (inv : Inv setting world) : RewriteKept setting world := by
  intro done complete resting name dependent shipped
  by_cases since : name ∈ world.writtenSince
  · exact .inl since
  · refine .inr ?_
    by_cases ended : world.phase = .finished
    · have ships := shipped ended
      have outdated : name ∈ setting.outdated world := by
        refine List.mem_filter.mpr ⟨dependent, ?_⟩
        rw [Bool.and_eq_true, List.contains_iff_mem, Bool.not_eq_true', ← Bool.not_eq_true,
          List.contains_iff_mem]
        exact ⟨ships, since⟩
      obtain null | promised := inv.finished ended complete (List.ne_nil_of_mem outdated)
      · exact .inl null
      · unfold Promised at promised
        rw [done] at promised
        obtain ⟨reached, lifecycleOn⟩ := promised
        obtain ⟨row, rowIn, present⟩ := inv.rows lifecycleOn (.inr (.inr (.inr ended))) name ships
        have flagged := (inv.reached (.inr (.inr done)) complete reached).2 name dependent row
          rowIn present
        exact .inr (.inr ⟨row, rowIn, present, flagged⟩)
    · exact .inl (inv.unstamped ended)

end Invariant

/-- In every interleaving of the first index with a propagation in which no stamp covers a reset
that the flags have not reached, the request to rewrite is not lost. -/
theorem first_index_keeps_rewrite (setting : Setting) (tables : RewriteTables)
    (repos : List RegisteredRepo)
    (rowless : ∀ row ∈ tables.ledger.rows, ofRepo setting.dep.repoId row = false)
    (unstamped : ∀ repo ∈ repos, repo.id = setting.dep.repoId → repo.headSha = none)
    (events : List Event)
    (ordered : AllSteps (step setting) (Ordered setting) (World.start tables repos) events) :
    RewriteKept setting (run (step setting) (World.start tables repos) events) := by
  have inv := run_preserves_guarded (step setting) (Ordered setting) (Inv setting)
    (inv_step setting) events (World.start tables repos) ordered
    (inv_start setting tables repos rowless unstamped)
  exact inv.rewriteKept setting

section Samples
open Ledger.Propagation (sampleDependent sampleEnv saleModule)

def firstSetting : Setting where
  dep := sampleDependent
  lifecycleOn := true
  ledger := true
  excludeRepoId := some 2
  excludeBasenames := ["core"]
  other := by decide

def firstTables : RewriteTables := ⟨Table.empty, []⟩

def firstRepos : List RegisteredRepo := [⟨4, "/srv/shop", "18.0", none⟩]

/-- The run of the repository has written `sale` when the upstream run writes and propagates; its
ledger commit comes before the flags or after the reset. -/
def firstEvents (commitFirst : Bool) : List Event :=
  let commit : List Event :=
    [.commitObserved (sampleEnv 30) "shop_18" "b2", .clearNeedsRewrite (sampleEnv 31),
      .applyPendingRewrites (sampleEnv 32)]
  let propagation : List Event :=
    [.lookup, .flag (sampleEnv 40), .withoutRows false, .reset]
  [.start (sampleEnv 5) [saleModule], .parse "sale", .upstreamWrite, .walk [("sale", some "shop")]]
    ++ (if commitFirst then commit ++ propagation else propagation ++ commit)
    ++ [.stamp (some "b2")]

end Samples

theorem flags_after_commit_keep_rewrite :
    AllSteps (step firstSetting) (Ordered firstSetting) (World.start firstTables firstRepos)
        (firstEvents true) ∧
      RewriteKept firstSetting
        (run (step firstSetting) (World.start firstTables firstRepos) (firstEvents true)) :=
  have ordered : AllSteps (step firstSetting) (Ordered firstSetting)
      (World.start firstTables firstRepos) (firstEvents true) := by decide
  ⟨ordered, first_index_keeps_rewrite firstSetting firstTables firstRepos (by decide) (by decide)
    (firstEvents true) ordered⟩

/-- The flags find no row, the reset finds `head_sha` still NULL, and the run stamps it after. -/
theorem stamp_covers_reset :
    ¬ ∀ (setting : Setting) (tables : RewriteTables) (repos : List RegisteredRepo),
      (∀ row ∈ tables.ledger.rows, ofRepo setting.dep.repoId row = false) →
      (∀ repo ∈ repos, repo.id = setting.dep.repoId → repo.headSha = none) →
      ∀ events, RewriteKept setting (run (step setting) (World.start tables repos) events) := by
  intro claim
  have lost := claim firstSetting firstTables firstRepos (by decide) (by decide) (firstEvents false)
  revert lost
  decide

end OdooSemantic.Ledger.FirstIndex
