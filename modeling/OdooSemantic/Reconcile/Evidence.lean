import OdooSemantic.Reconcile.Sweep
import OdooSemantic.Reconcile.Cascade

/-!
# What a sweep deletes and what proves it gone

The exemption of an excluded name goes by the name alone; everything else a
sweep deletes is proven gone by the checkouts of the profiles that own it.
-/

set_option autoImplicit false

namespace OdooSemantic.Reconcile.Evidence

open Lib Lib.Action Lib.Py
open Ledger.Rows Ledger.Store Ledger.Ownership
open Reconcile.Stores Reconcile.Pending Reconcile.Kept
open Reconcile.Cascade Reconcile.Sweep

structure ModuleKeys (world : World) : Prop where
  unique : ∀ first ∈ world.modules, ∀ second ∈ world.modules,
    first.odooVersion = second.odooVersion → first.name = second.name → first = second
  named : ∀ node ∈ world.modules, node.name ≠ ""

section Statements
variable (input : SweepInput) (world : World)

def OwnExclusion (repo : Repo) (name : String) : Prop :=
  ∃ row ∈ world.ledger.rows, row.repoId = some repo.id ∧ row.name = name ∧
    excludedFor input.odooVersion [.installableFalse, .licenseSkip] row = true

structure ProvenGone (profiles : List String) (name : String) : Prop where
  synced : ∀ repo ∈ syncRows input world, repo.profileName ∈ profiles → repo.synced = true
  absent : ∀ repo ∈ syncRows input world, repo.profileName ∈ profiles →
    (∃ names, headShippedNames input repo = some names ∧ name ∉ names) ∨
      OwnExclusion input world repo name

structure SweepProven : Prop where
  modules : ∀ node ∈ world.modules, node ∉ (sweepWorld world input).modules →
    ProvenGone input world node.profile node.name
  embeddings : ∀ row ∈ world.embeddings, row ∉ (sweepWorld world input).embeddings →
    ProvenGone input world [row.profileName] row.module

def OwnersExempt (profiles : List String) (name : String) : Prop :=
  ∀ repo ∈ syncRows input world, repo.profileName ∈ profiles →
    repoClaim input name repo = none ∨ OwnExclusion input world repo name

structure ExemptionsOwn : Prop where
  modules : ∀ node ∈ world.modules, node.odooVersion = input.odooVersion →
    node.name ∈ decidable input world → node.name ∈ exempt input world →
    recent input.odooVersion node.name input.runStartedAt world = false →
      OwnersExempt input world node.profile node.name
  embeddings : ∀ group ∈ orphanGroups input (unsyncedProfiles input world) world,
    group.1 ∈ exempt input world → ownedProfile group.2 = true →
    lostModules input (syncRows input world) (unsyncedProfiles input world) world = [] →
      OwnersExempt input world [group.2] group.1

end Statements

section Proofs
variable {input : SweepInput} {world : World}

theorem repoClaim_eq_none (name : String) (repo : Repo) :
    repoClaim input name repo = none ↔
      ∃ names, headShippedNames input repo = some names ∧ name ∉ names := by
  unfold repoClaim
  cases headShippedNames input repo with
  | none => simp
  | some names =>
      by_cases listed : name ∈ names
      · simp [listed]
      · simp [listed]

theorem checkoutClaim_eq_none (repos : List Repo) (name : String) :
    checkoutClaim input repos name = none ↔
      ∀ repo ∈ repos, repoClaim input name repo = none := by
  simp [checkoutClaim, List.findSome?_eq_none_iff]

theorem ProvenGone.mono {profiles fewer : List String} {name : String}
    (proven : ProvenGone input world profiles name) (subset : ∀ profile ∈ fewer, profile ∈ profiles) :
    ProvenGone input world fewer name :=
  ⟨fun repo repoIn owner => proven.synced repo repoIn (subset _ owner),
    fun repo repoIn owner => proven.absent repo repoIn (subset _ owner)⟩

theorem synced_of_free (executes : input.execute = true) (profiles : List String)
    (free : ∀ profile ∈ profiles, profile ∉ unsyncedProfiles input world) :
    ∀ repo ∈ syncRows input world, repo.profileName ∈ profiles → repo.synced = true := by
  intro repo repoIn owner
  by_contra unsynced
  apply free repo.profileName owner
  refine List.mem_map.mpr ⟨repo, List.mem_filter.mpr ⟨repoIn, ?_⟩, rfl⟩
  simpa [executes] using unsynced

theorem provenGone_of_exempt (profiles : List String) (name : String)
    (synced : ∀ repo ∈ syncRows input world, repo.profileName ∈ profiles → repo.synced = true)
    (owners : OwnersExempt input world profiles name) : ProvenGone input world profiles name :=
  ⟨synced, fun repo repoIn owner =>
    (owners repo repoIn owner).imp_left (repoClaim_eq_none name repo).mp⟩

theorem ProvenGone.exempt {profiles : List String} {name : String}
    (proven : ProvenGone input world profiles name) : OwnersExempt input world profiles name :=
  fun repo repoIn owner => (proven.absent repo repoIn owner).imp_left
    (repoClaim_eq_none name repo).mpr

theorem moduleIdentity_eq (keys : ModuleKeys world) (node : ModuleNode)
    (nodeIn : node ∈ world.modules) (version : node.odooVersion = input.odooVersion) :
    moduleIdentity input world node.name = some node := by
  have member : node ∈ world.modules.filter (ModuleNode.isAt input.odooVersion node.name) :=
    List.mem_filter.mpr ⟨nodeIn, by simp [ModuleNode.isAt, version]⟩
  unfold moduleIdentity
  cases last : (world.modules.filter (ModuleNode.isAt input.odooVersion node.name)).getLast? with
  | none =>
      rw [List.getLast?_eq_none_iff] at last
      rw [last] at member
      cases member
  | some found =>
      obtain ⟨foundIn, at'⟩ := List.mem_filter.mp (List.mem_of_getLast? last)
      simp only [ModuleNode.isAt, Bool.and_eq_true, beq_iff_eq] at at'
      rw [keys.unique found foundIn node nodeIn (at'.1.trans version.symm) at'.2]

theorem ownerProfiles_eq (keys : ModuleKeys world) (node : ModuleNode)
    (nodeIn : node ∈ world.modules) (version : node.odooVersion = input.odooVersion) :
    ownerProfiles input world node.name = sortedSet node.profile := by
  simp [ownerProfiles, moduleIdentity_eq keys node nodeIn version]

theorem decidable_synced (executes : input.execute = true) (keys : ModuleKeys world)
    (node : ModuleNode) (nodeIn : node ∈ world.modules)
    (version : node.odooVersion = input.odooVersion)
    (member : node.name ∈ Sweep.decidable input world) :
    ∀ repo ∈ syncRows input world, repo.profileName ∈ node.profile → repo.synced = true := by
  apply synced_of_free executes
  intro profile owner unsynced
  have none := (List.mem_filter.mp member).2
  rw [List.isEmpty_iff] at none
  have claims : profile ∈ orphanClaims input world node.name := by
    refine (mem_sortedSet _ _).mpr (List.mem_append_left _ (List.mem_filter.mpr ⟨?_, ?_⟩))
    · rw [ownerProfiles_eq keys node nodeIn version]
      exact (mem_sortedSet _ _).mpr owner
    · simpa using unsynced
  rw [none] at claims
  cases claims

theorem orphan_provenGone (executes : input.execute = true) (keys : ModuleKeys world)
    (node : ModuleNode) (nodeIn : node ∈ world.modules)
    (version : node.odooVersion = input.odooVersion)
    (member : node.name ∈ Sweep.decidable input world)
    (why : orphanWhy input world node.name = none)
    (owned : node.name ∈ Sweep.exempt input world →
      OwnersExempt input world node.profile node.name) :
    ProvenGone input world node.profile node.name := by
  have synced := decidable_synced executes keys node nodeIn version member
  by_cases listed : node.name ∈ Sweep.exempt input world
  · exact provenGone_of_exempt _ _ synced (owned listed)
  · unfold orphanWhy at why
    rw [if_neg (by simpa using listed), checkoutClaim_eq_none] at why
    refine ⟨synced, fun repo repoIn owner => Or.inl ((repoClaim_eq_none _ _).mp (why repo ?_))⟩
    have ofProfile : repo ∈ (ownerProfiles input world node.name).flatMap fun profile =>
        (syncRows input world).filter (·.profileName == profile) := by
      refine List.mem_flatMap.mpr ⟨repo.profileName, ?_, List.mem_filter.mpr ⟨repoIn, by simp⟩⟩
      rw [ownerProfiles_eq keys node nodeIn version]
      exact (mem_sortedSet _ _).mpr owner
    unfold ownerRepos
    simp only
    split
    · split
      · exact ofProfile
      · exact List.mem_append_left _ ofProfile
    · exact ofProfile

def OnlyRetiredAdded (before after : LedgerTable) : Prop :=
  ∃ added, after.rows = before.rows ++ added ∧ ∀ row ∈ added, row.state = .retired

theorem recordOrphanRetired_added {start before after : LedgerTable}
    (since : OnlyRetiredAdded start before) (db : DbEnv) (repoId : Nat)
    (name profileName odooVersion path manifestFile lastSeenSha : String)
    (lastSeenAt : Timestamp) (evidence : Option RetireEvidence) (successor : Option Successor)
    (headSha : Option String) (inserted : Bool)
    (run : recordOrphanRetired db before repoId name profileName odooVersion path manifestFile
      lastSeenSha lastSeenAt evidence successor headSha = .ok (inserted, after)) :
    OnlyRetiredAdded start after := by
  obtain ⟨added, rows, retired⟩ := since
  unfold recordOrphanRetired at run
  split at run
  · cases run
  · obtain ⟨_, -, run⟩ := (bind_eq_ok _ _ _).mp run
    obtain ⟨repo, -, run⟩ := (bind_eq_ok _ _ _).mp run
    cases run
    refine ⟨added ++ ((Table.unmatched (fun (_ : Unit) row => hasKey repoId name row) [()]
      before.rows).zipIdx before.nextId).map fun (_, id) => orphanRow repo db repoId name profileName
        odooVersion path manifestFile lastSeenSha lastSeenAt evidence
        (storableSuccessor db successor) headSha id, ?_, ?_⟩
    · have same : before.rows.map (Table.conflictUpdate
          (fun (_ : Unit) row => hasKey repoId name row) (fun _ row => row) [()]) = before.rows := by
        refine (List.map_congr_left fun row _ => ?_).trans (List.map_id _)
        unfold Table.conflictUpdate
        split <;> rfl
      change before.rows.map _ ++ _ = _
      rw [same, rows, List.append_assoc]
    · intro row member
      rcases List.mem_append.mp member with old | new
      · exact retired row old
      · obtain ⟨item, -, rfl⟩ := List.mem_map.mp new
        rfl

theorem mem_rows_of_live {before after : LedgerTable} (since : OnlyRetiredAdded before after)
    (row : PresenceRow) (live : row.state ≠ .retired) : row ∈ after.rows ↔ row ∈ before.rows := by
  obtain ⟨added, rows, retired⟩ := since
  rw [rows, List.mem_append]
  exact ⟨fun either => either.resolve_right fun new => live (retired row new), Or.inl⟩

theorem exempt_since {current : World} (since : OnlyRetiredAdded world.ledger current.ledger)
    (name : String) : name ∈ Sweep.exempt input current ↔ name ∈ Sweep.exempt input world := by
  simp only [Sweep.exempt, excludedNames, List.mem_dedup, List.mem_map, List.mem_filter]
  have same : ∀ row : PresenceRow,
      excludedFor input.odooVersion [.installableFalse, .licenseSkip] row = true →
      (row ∈ current.ledger.rows ↔ row ∈ world.ledger.rows) := by
    intro row excluded
    apply mem_rows_of_live since
    simp only [excludedFor, Bool.and_eq_true, beq_iff_eq] at excluded
    simp [excluded.1.2]
  constructor
  · rintro ⟨row, ⟨rowIn, excluded⟩, named⟩
    exact ⟨row, ⟨(same row excluded).mp rowIn, excluded⟩, named⟩
  · rintro ⟨row, ⟨rowIn, excluded⟩, named⟩
    exact ⟨row, ⟨(same row excluded).mpr rowIn, excluded⟩, named⟩

theorem presentPairs_since {current : World} (since : OnlyRetiredAdded world.ledger current.ledger)
    (pair : Group) : pair ∈ presentPairs current.ledger input.odooVersion ↔
      pair ∈ presentPairs world.ledger input.odooVersion := by
  simp only [presentPairs, List.mem_dedup, List.mem_map, List.mem_filter]
  have same : ∀ row : PresenceRow, (row.odooVersion == input.odooVersion &&
      row.state == .present) = true → (row ∈ current.ledger.rows ↔ row ∈ world.ledger.rows) := by
    intro row present
    apply mem_rows_of_live since
    simp only [Bool.and_eq_true, beq_iff_eq] at present
    simp [present.2]
  constructor
  · rintro ⟨row, ⟨rowIn, present⟩, named⟩
    exact ⟨row, ⟨(same row present).mp rowIn, present⟩, named⟩
  · rintro ⟨row, ⟨rowIn, present⟩, named⟩
    exact ⟨row, ⟨(same row present).mpr rowIn, present⟩, named⟩

/-- The stores since the start of the sweep; `evidence` holds of the owning profiles and
the name of what was deleted. -/
structure Swept (input : SweepInput) (world : World) (evidence : List String → String → Prop)
    (current : World) : Prop where
  modules : ∀ node ∈ current.modules, node ∈ world.modules
  deleted : ∀ node ∈ world.modules, node ∉ current.modules →
    evidence node.profile node.name ∧ node.name ∈ sweepTargets input world
  embeddings : ∀ row ∈ current.embeddings, row ∈ world.embeddings
  erased : ∀ row ∈ world.embeddings, row ∉ current.embeddings →
    evidence [row.profileName] row.module
  ledger : OnlyRetiredAdded world.ledger current.ledger

variable {evidence : List String → String → Prop}

theorem swept_start : Swept input world evidence world where
  modules := fun _ member => member
  deleted := fun _ member gone => absurd member gone
  embeddings := fun _ member => member
  erased := fun _ member gone => absurd member gone
  ledger := ⟨[], by simp, fun _ member => absurd member List.not_mem_nil⟩

theorem deleteEmbeddings_swept (name : String) (profiles : List String)
    (proven : ∀ profile ∈ profiles, ownedProfile profile = true → evidence [profile] name)
    (point : Option EmbeddingPoint) :
    Keeps (Swept input world evidence) (deleteEmbeddings input.odooVersion name profiles point) := by
  apply keeps_deleteEmbeddings
  intro current swept
  refine ⟨swept.modules, swept.deleted,
    fun row member => swept.embeddings row (List.mem_of_mem_filter member), ?_, swept.ledger⟩
  intro row rowIn gone
  by_cases still : row ∈ current.embeddings
  · have hit : (row.odooVersion == input.odooVersion && row.module == name &&
        (sortedSet (profiles.filter ownedProfile)).contains row.profileName) = true := by
      by_contra miss
      simp only [Bool.not_eq_true] at miss
      exact gone (List.mem_filter.mpr ⟨still, by rw [miss]; rfl⟩)
    simp only [Bool.and_eq_true, beq_iff_eq, List.contains_iff_mem, mem_sortedSet,
      List.mem_filter] at hit
    rw [hit.1.2]
    exact proven row.profileName hit.2.1 hit.2.2
  · exact swept.erased row rowIn still

theorem keeps_onStores {Out : Type} (action : Action World String Out)
    (keeps : Keeps (Swept input world evidence) action) :
    Keeps (fun state : SweepState => Swept input world evidence state.world) (onStores action) :=
  fun state swept => keeps state.world swept

theorem keeps_deleteGroup {inv : World → Prop} (name : String) (profiles : List String)
    (each : ∀ point, Keeps inv (deleteEmbeddings input.odooVersion name profiles point)) :
    Keeps (fun state : SweepState => inv state.world) (deleteGroupEmbeddings input name profiles) :=
  fun state holds => keeps_retrying _ each _ _ state.world holds

theorem deleteGroup_swept (name : String) (profiles : List String)
    (proven : ∀ profile ∈ profiles, ownedProfile profile = true → evidence [profile] name) :
    Keeps (fun state : SweepState => Swept input world evidence state.world)
      (deleteGroupEmbeddings input name profiles) :=
  keeps_deleteGroup name profiles (deleteEmbeddings_swept name profiles proven)

theorem report_swept (change : SweepReport → SweepReport) :
    Keeps (fun state : SweepState => Swept input world evidence state.world) (Sweep.report change) :=
  fun _ swept => swept

theorem recordOrphan_swept (name : String) :
    Keeps (fun state : SweepState => Swept input world evidence state.world)
      (recordOrphan input world name) := by
  unfold recordOrphan
  split
  · split
    · exact keeps_done _
    · split
      · exact keeps_raise _
      · refine keeps_onStores _ (keeps_commit _ ?_)
        intro current next holds ran
        split at ran
        · rename_i wrote
          cases ran
          exact ⟨holds.modules, holds.deleted, holds.embeddings, holds.erased,
            recordOrphanRetired_added holds.ledger _ _ _ _ _ _ _ _ _ _ _ _ _ wrote⟩
        · cases ran
  · exact keeps_done _

theorem cleanOrphan_swept (name : String)
    (proven : ∀ profile ∈ ownerProfiles input world name, evidence [profile] name) :
    Keeps (fun state : SweepState => Swept input world evidence state.world)
      (cleanOrphan input world name) := by
  unfold cleanOrphan
  apply keeps_recover
  · apply keeps_andThen
    · split
      · exact keeps_done _
      · exact deleteGroup_swept name _ fun profile member _ => proven profile member
    · intro _
      apply keeps_andThen _ _ (recordOrphan_swept name)
      exact fun _ => report_swept _
  · exact fun _ => report_swept _

theorem orphan_node (keys : ModuleKeys world) (name : String)
    (member : name ∈ Sweep.orphans input world) :
    ∃ node ∈ world.modules, node.odooVersion = input.odooVersion ∧ node.name = name ∧
      retirableName name = true ∧ name ∉ sweepPresent input world := by
  have listed := (List.mem_filter.mp (List.mem_filter.mp member).1).1
  obtain ⟨node, nodeIn, named⟩ := List.mem_map.mp ((mem_sortedSet _ _).mp listed)
  obtain ⟨nodeIn, holds⟩ := List.mem_filter.mp nodeIn
  simp only [Bool.and_eq_true, beq_iff_eq, Bool.not_eq_true', contains_eq_false_iff] at holds
  subst named
  refine ⟨node, nodeIn, holds.1.1.1, rfl, ?_, holds.1.1.2⟩
  simpa [retirableName, keys.named node nodeIn] using holds.1.2

theorem mem_proven (allow : input.allowMassRetire = false) (name : String) :
    name ∈ proven input world ↔
      name ∈ Sweep.decidable input world ∧ orphanWhy input world name = none := by
  simp [proven, allow]

theorem target_proven (node : ModuleNode) (nodeIn : node ∈ world.modules)
    (version : node.odooVersion = input.odooVersion)
    (target : node.name ∈ sweepTargets input world) : node.name ∈ proven input world := by
  rcases List.mem_append.mp ((mem_sortedSet _ _).mp target) with orphan | child
  · exact orphan
  · have childKey : node.name ∈ childKeys input world := by
      have named := (List.mem_filter.mp child).1
      unfold childNames at named
      split at named
      · exact named
      · cases named
    obtain ⟨found, foundIn, same⟩ := List.mem_map.mp
      ((mem_sortedSet _ _).mp (List.mem_filter.mp childKey).1)
    have noNode := (List.mem_filter.mp foundIn).2
    simp only [Bool.and_eq_true, Bool.not_eq_true', List.any_eq_false, same] at noNode
    exact absurd (by simp [ModuleNode.isAt, version]) (noNode.2 node nodeIn)

variable (allow : input.allowMassRetire = false) (keys : ModuleKeys world)
  (orphan : ∀ node ∈ world.modules, node.odooVersion = input.odooVersion →
    node.name ∈ proven input world →
    recent input.odooVersion node.name input.runStartedAt world = false →
      evidence node.profile node.name)
include keys orphan

theorem retireModules_swept (point : Option RetirePoint) :
    Keeps (Swept input world evidence) (retireModules input.odooVersion (sweepTargets input world)
      input.runStartedAt point) := by
  intro current swept
  have outcome := retireModules_outcome input.odooVersion (sweepTargets input world)
    input.runStartedAt point current
  have rows : (retireModules input.odooVersion (sweepTargets input world) input.runStartedAt point
      current).2.embeddings = current.embeddings :=
    retireModules_embeddings current.embeddings point current rfl
  have ledger : (retireModules input.odooVersion (sweepTargets input world) input.runStartedAt point
      current).2.ledger = current.ledger :=
    @retireModules_ledger (fun ledger => ledger = current.ledger) _ _ _ point current rfl
  have left : ∀ applied, (retireModules input.odooVersion (sweepTargets input world)
      input.runStartedAt point current).2.modules = leftModules input.odooVersion
        (targetNames current input.odooVersion input.runStartedAt
          (sortedSet ((sweepTargets input world).filter retirableName))) input.runStartedAt applied
        current.modules →
      Swept input world evidence (retireModules input.odooVersion (sweepTargets input world)
        input.runStartedAt point current).2 := by
    intro applied modules
    refine ⟨?_, ?_, ?_, ?_, ?_⟩
    · intro node member
      rw [modules] at member
      exact swept.modules node (List.mem_of_mem_filter member)
    · intro node nodeIn gone
      by_cases still : node ∈ current.modules
      · have stale : staleModule input.odooVersion (targetNames current input.odooVersion
            input.runStartedAt (sortedSet ((sweepTargets input world).filter retirableName)))
            input.runStartedAt node = true := by
          by_contra spared
          simp only [Bool.not_eq_true] at spared
          apply gone
          rw [modules]
          exact List.mem_filter.mpr ⟨still, by rw [spared]; rfl⟩
        simp only [staleModule, Bool.and_eq_true, List.contains_iff_mem, beq_iff_eq] at stale
        obtain ⟨⟨target, version⟩, before⟩ := stale
        obtain ⟨listed, -, -⟩ := (mem_targetNames _ _ _ current node.name).mp target
        refine ⟨orphan node nodeIn version (target_proven node nodeIn version listed) ?_, listed⟩
        refine List.any_eq_false.mpr fun other otherIn late => ?_
        simp only [ModuleNode.isAt, Bool.and_eq_true, beq_iff_eq, Bool.not_eq_true'] at late
        have same := keys.unique other otherIn node nodeIn (late.1.1.trans version.symm) late.1.2
        rw [same, before] at late
        cases late.2
      · exact swept.deleted node nodeIn still
    · rw [rows]
      exact swept.embeddings
    · rw [rows]
      exact swept.erased
    · rw [ledger]
      exact swept.ledger
  rcases outcome with ⟨-, -, same⟩ | ⟨-, _, applied, -, -, deleted⟩ | ⟨-, -, -, deleted⟩
  · apply left fun _ => false
    rw [leftModules_none]
    exact same
  · exact left applied deleted
  · exact left _ deleted

theorem sweepGraph_swept :
    Meets (fun state : SweepState => Swept input world evidence state.world)
      (sweepGraph input (sweepTargets input world))
      (fun result state => Swept input world evidence state.world ∧ ∀ skipped, result = .ok (some skipped) →
        ∀ name ∈ sweepTargets input world, retirableName name = true → name ∉ skipped →
          nodesOf input.odooVersion name state.world = []) := by
  unfold sweepGraph
  apply @meets_recover _ _ _ _ (fun result (state : SweepState) => Swept input world evidence state.world ∧
    ∀ skipped, result = .ok (some skipped) → ∀ name ∈ sweepTargets input world,
      retirableName name = true → name ∉ skipped →
        nodesOf input.odooVersion name state.world = [])
  · apply @meets_andThen _ _ _ _ _ (fun result (state : SweepState) =>
      Swept input world evidence state.world ∧ ∀ skipped, result = .ok skipped →
        ∀ name ∈ sweepTargets input world, retirableName name = true → name ∉ skipped →
          nodesOf input.odooVersion name state.world = [])
    · cases input.faults.reset with
      | some message => exact fun state swept => ⟨swept, fun _ isOk => by cases isOk⟩
      | none =>
          intro state swept
          refine ⟨keeps_retrying _ (retireModules_swept keys orphan) _ _ state.world
            swept, ?_⟩
          exact retried_cleared input.faults.retire retryAttempts state.world trivial
    · intro skipped state reached
      refine ⟨reached.1, fun known isSome => ?_⟩
      cases isSome
      exact reached.2 skipped rfl
    · exact fun _ state reached => ⟨reached.1, fun _ isOk => by cases isOk⟩
  · exact fun _ _ reached => reached
  · exact fun _ state reached => ⟨reached.1, fun _ isOk => by cases isOk⟩

omit keys orphan in
theorem live_since {current : World} (swept : Swept input world evidence current) (group : Group)
    (isLive : live input current group = true) : live input world group = true := by
  simp only [live, Bool.or_eq_true, List.contains_iff_mem] at isLive ⊢
  refine isLive.imp (fun onNode => ?_) (presentPairs_since swept.ledger group).mp
  obtain ⟨node, nodeIn, holds⟩ := List.any_eq_true.mp onNode
  exact List.any_eq_true.mpr ⟨node, swept.modules node nodeIn, holds⟩

omit keys orphan in
/-- A module without a node at the start is still without one. -/
theorem lost_since {current : World} (swept : Swept input world evidence current)
    (healthy : lostModules input (syncRows input world) (unsyncedProfiles input world) current = []) :
    lostModules input (syncRows input world) (unsyncedProfiles input world) world = [] := by
  apply List.eq_nil_iff_forall_not_mem.mpr
  intro name member
  obtain ⟨pair, pairIn, named⟩ := List.mem_map.mp ((mem_sortedSet _ _).mp member)
  obtain ⟨pairIn, holds⟩ := List.mem_filter.mp pairIn
  have stillLost : name ∈ lostModules input (syncRows input world) (unsyncedProfiles input world)
      current := by
    refine (mem_sortedSet _ _).mpr (List.mem_map.mpr ⟨pair, List.mem_filter.mpr
      ⟨(presentPairs_since swept.ledger pair).mpr pairIn, ?_⟩, named⟩)
    simp only [Bool.and_eq_true, Bool.not_eq_true', List.any_eq_false] at holds ⊢
    exact ⟨holds.1, fun node nodeIn => holds.2 node (swept.modules node nodeIn)⟩
  rw [healthy] at stillLost
  cases stillLost

variable
  (single : ∀ profiles name profile, profile ∈ profiles → evidence profiles name →
    evidence [profile] name)
  (group : ∀ current, Swept input world evidence current →
    lostModules input (syncRows input world) (unsyncedProfiles input world) current = [] →
    ∀ group ∈ orphanGroups input (unsyncedProfiles input world) current,
      doomed input (syncRows input world) current group = true → ownedProfile group.2 = true →
        evidence [group.2] group.1)
include allow group

omit keys orphan in
theorem embeddingOrphans_swept :
    Keeps (fun state : SweepState => Swept input world evidence state.world)
      (embeddingOrphans input (syncRows input world) (unsyncedProfiles input world)) := by
  unfold embeddingOrphans
  apply keeps_reading
  intro state swept
  simp only
  split
  · exact keeps_done _
  · split
    · exact report_swept _
    · rename_i healthy
      have noLost : lostModules input (syncRows input world) (unsyncedProfiles input world)
          state.world = [] := by
        simpa [allow, List.isEmpty_iff] using healthy
      apply keeps_andThen _ _ (report_swept _)
      intro _
      split
      · exact keeps_done _
      · apply keeps_forEach
        intro item member
        obtain ⟨listed, gone⟩ := List.mem_filter.mp member
        apply keeps_recover
        · apply deleteGroup_swept
          intro profile isProfile owned
          have same := List.mem_singleton.mp isProfile
          subst same
          exact group state.world swept noLost item listed gone owned
        · exact fun _ => report_swept _

include single

omit orphan in
theorem sweepRest_swept (skipped : List String) (state : SweepState)
    (swept : Swept input world evidence state.world)
    (cleared : ∀ name ∈ sweepTargets input world, retirableName name = true → name ∉ skipped →
      nodesOf input.odooVersion name state.world = []) :
    Swept input world evidence (sweepRest input world skipped state).2.world := by
  have owners : ∀ name ∈ proven input world, name ∉ skipped →
      ∀ profile ∈ ownerProfiles input world name, evidence [profile] name := by
    intro name member notSkipped profile owner
    obtain ⟨node, nodeIn, version, named, retirable, -⟩ := orphan_node keys name
      (List.mem_filter.mp (List.mem_filter.mp member).1).1
    subst named
    have target : node.name ∈ sweepTargets input world :=
      (mem_sortedSet _ _).mpr (List.mem_append_left _ member)
    have deleted : node ∉ state.world.modules := by
      intro still
      have listed : node ∈ nodesOf input.odooVersion node.name state.world :=
        List.mem_filter.mpr ⟨still, by simp [ModuleNode.isAt, version]⟩
      rw [cleared node.name target retirable notSkipped] at listed
      cases listed
    rw [ownerProfiles_eq keys node nodeIn version] at owner
    exact single _ _ profile ((mem_sortedSet _ _).mp owner)
      (swept.deleted node nodeIn deleted).1
  have rest : Keeps (fun state : SweepState => Swept input world evidence state.world)
      (sweepRest input world skipped) := by
    unfold sweepRest
    apply keeps_andThen
    · apply keeps_forEach
      intro name member
      obtain ⟨isProven, notSkipped⟩ := List.mem_filter.mp member
      exact cleanOrphan_swept name (owners name isProven (by simpa using notSkipped))
    · intro _
      exact keeps_andThen _ _ (report_swept _) fun _ => embeddingOrphans_swept allow group
  exact rest state swept

theorem sweep_swept (executes : input.execute = true) :
    Swept input world evidence (sweepWorld world input) := by
  have embeddings := embeddingOrphans_swept allow group
  unfold sweepWorld sweep reading
  simp only [executes, Bool.not_true, Bool.false_eq_true, if_false]
  refine (?_ : Keeps (fun state : SweepState => Swept input world evidence state.world) _)
    ⟨world, {}⟩ swept_start
  apply keeps_andThen _ _ (report_swept _)
  intro _
  split
  · exact embeddings
  · apply @meets_andThen _ _ _ _ _ _ (fun _ (state : SweepState) =>
      Swept input world evidence state.world) _ _ (sweepGraph_swept keys orphan)
    · intro result state reached
      cases result with
      | none => exact reached.1
      | some skipped =>
          exact sweepRest_swept allow keys single group skipped state reached.1
            (reached.2 skipped rfl)
    · exact fun _ _ reached => reached.1

end Proofs

section Sound
variable {input : SweepInput} {world : World}

theorem group_provenGone (executes : input.execute = true) (allow : input.allowMassRetire = false)
    (own : ExemptionsOwn input world) (current : World)
    (swept : Swept input world (ProvenGone input world) current)
    (healthy : lostModules input (syncRows input world) (unsyncedProfiles input world) current = [])
    (group : Group) (listed : group ∈ orphanGroups input (unsyncedProfiles input world) current)
    (gone : doomed input (syncRows input world) current group = true)
    (owned : ownedProfile group.2 = true) : ProvenGone input world [group.2] group.1 := by
  obtain ⟨inGroups, holds⟩ := List.mem_filter.mp listed
  simp only [Bool.and_eq_true, Bool.not_eq_true', contains_eq_false_iff] at holds
  have synced := synced_of_free executes [group.2] fun profile member =>
    (List.mem_singleton.mp member) ▸ holds.2
  simp only [doomed, allow, Bool.false_or, Bool.or_eq_true, List.contains_iff_mem,
    Option.isNone_iff_eq_none, checkoutClaim_eq_none] at gone
  rcases gone with excluded | absent
  · by_cases wasLive : live input world group = true
    · simp only [live, Bool.or_eq_true, List.contains_iff_mem] at wasLive
      rcases wasLive with onNode | paired
      · obtain ⟨node, nodeIn, holds'⟩ := List.any_eq_true.mp onNode
        simp only [ModuleNode.isAt, Bool.and_eq_true, beq_iff_eq, List.contains_iff_mem] at holds'
        have deleted : node ∉ current.modules := by
          intro still
          have nowLive : live input current group = true := by
            simp only [live, Bool.or_eq_true]
            exact Or.inl (List.any_eq_true.mpr ⟨node, still, by simp [ModuleNode.isAt, holds']⟩)
          rw [nowLive] at holds
          cases holds.1
        have proven := (swept.deleted node nodeIn deleted).1
        rw [holds'.1.2] at proven
        exact proven.mono fun profile member => (List.mem_singleton.mp member) ▸ holds'.2
      · have nowLive : live input current group = true := by
          simp only [live, Bool.or_eq_true, List.contains_iff_mem]
          exact Or.inr ((presentPairs_since swept.ledger group).mpr paired)
        rw [nowLive] at holds
        cases holds.1
    · obtain ⟨row, rowIn, same⟩ := List.mem_map.mp (List.mem_dedup.mp inGroups)
      obtain ⟨rowIn, atVersion⟩ := List.mem_filter.mp rowIn
      have before : group ∈ orphanGroups input (unsyncedProfiles input world) world := by
        refine List.mem_filter.mpr ⟨List.mem_dedup.mpr (List.mem_map.mpr ⟨row, List.mem_filter.mpr
          ⟨swept.embeddings row rowIn, atVersion⟩, same⟩), ?_⟩
        simp [wasLive, holds.2]
      exact provenGone_of_exempt _ _ synced (own.embeddings group before
        ((exempt_since swept.ledger group.1).mp excluded) owned (lost_since swept healthy))
  · refine ⟨synced, fun repo repoIn owner => Or.inl ((repoClaim_eq_none _ _).mp
      (absent repo (List.mem_filter.mpr ⟨repoIn, ?_⟩)))⟩
    simpa using owner

theorem sweep_sound (executes : input.execute = true) (allow : input.allowMassRetire = false)
    (keys : ModuleKeys world) (own : ExemptionsOwn input world) : SweepProven input world := by
  have swept : Swept input world (ProvenGone input world) (sweepWorld world input) := by
    apply sweep_swept allow keys _ _ (group_provenGone executes allow own) executes
    · intro node nodeIn version member stale
      obtain ⟨isDecidable, why⟩ := (mem_proven allow node.name).mp member
      exact orphan_provenGone executes keys node nodeIn version isDecidable why
        fun excluded => own.modules node nodeIn version isDecidable excluded stale
    · intro profiles name profile member proven
      exact proven.mono fun other single => (List.mem_singleton.mp single) ▸ member
  exact ⟨fun node nodeIn gone => (swept.deleted node nodeIn gone).1, swept.erased⟩

theorem sweep_idle (idle : input.execute = false) : sweepWorld world input = world := by
  have embeddings : ∀ repos unsynced, Keeps (fun state : SweepState => state.world = world)
      (embeddingOrphans input repos unsynced) := by
    intro repos unsynced
    unfold embeddingOrphans
    apply keeps_reading
    intro state _
    simp only [idle, Bool.not_false, if_true]
    split
    · exact keeps_done _
    · split
      · exact fun _ same => same
      · exact keeps_andThen _ _ (fun _ same => same) fun _ => keeps_done _
  have whole : Keeps (fun state : SweepState => state.world = world) (sweep input) := by
    unfold sweep
    apply keeps_reading
    intro state _
    simp only [idle, Bool.not_false, if_true]
    refine keeps_andThen _ _ (fun _ same => same) fun _ => ?_
    exact keeps_andThen _ _ (fun _ same => same) fun _ => embeddings _ _
  exact whole ⟨world, {}⟩ rfl

end Sound

section Faultless
variable {input : SweepInput} {world : World} (executes : input.execute = true)
  (allow : input.allowMassRetire = false) (keys : ModuleKeys world)
  (faultless : input.faults = noSweepFaults)

/-- Nothing is required of what was deleted. -/
abbrev AnySwept (input : SweepInput) (world current : World) : Prop :=
  Swept input world (fun _ _ => True) current

theorem cleanOrphan_returns (before : World) (name : String) :
    Returns (cleanOrphan input before name) :=
  returns_recover _ _ fun _ _ => ⟨(), rfl⟩

include keys in
theorem healthy_since {current : World} (swept : AnySwept input world current)
    (healthy : lostModules input (syncRows input world) (unsyncedProfiles input world) world = []) :
    lostModules input (syncRows input world) (unsyncedProfiles input world) current = [] := by
  apply List.eq_nil_iff_forall_not_mem.mpr
  intro name member
  obtain ⟨pair, pairIn, named⟩ := List.mem_map.mp ((mem_sortedSet _ _).mp member)
  obtain ⟨pairIn, holds⟩ := List.mem_filter.mp pairIn
  simp only [Bool.and_eq_true, Bool.not_eq_true', List.any_eq_false] at holds
  have before := (presentPairs_since swept.ledger pair).mp pairIn
  have hasNode : ∃ node ∈ world.modules, node.isAt input.odooVersion pair.1 = true := by
    by_contra none
    have lost : name ∈ lostModules input (syncRows input world) (unsyncedProfiles input world)
        world := by
      refine (mem_sortedSet _ _).mpr (List.mem_map.mpr ⟨pair, List.mem_filter.mpr ⟨before, ?_⟩,
        named⟩)
      simp only [Bool.and_eq_true, Bool.not_eq_true', List.any_eq_false]
      exact ⟨holds.1, fun node nodeIn at' => none ⟨node, nodeIn, at'⟩⟩
    rw [healthy] at lost
    cases lost
  obtain ⟨node, nodeIn, at'⟩ := hasNode
  have gone : node ∉ current.modules := fun still => holds.2 node still at'
  simp only [ModuleNode.isAt, Bool.and_eq_true, beq_iff_eq] at at'
  have target := (swept.deleted node nodeIn gone).2
  have isProven := target_proven node nodeIn at'.1 target
  obtain ⟨-, -, -, -, -, notPresent⟩ := orphan_node keys node.name
    (List.mem_filter.mp (List.mem_filter.mp isProven).1).1
  apply notPresent
  obtain ⟨row, rowIn, same⟩ := List.mem_map.mp (List.mem_dedup.mp before)
  refine List.mem_filter.mpr ⟨List.mem_dedup.mpr (List.mem_map.mpr ⟨row, rowIn, ?_⟩), ?_⟩
  · rw [at'.2, ← same]
  · rw [at'.2]
    rw [holds.1.1.2]
    rfl

/-- An embedding that is gone stays away. -/
theorem deleteGroup_absent (row : EmbeddingRow) (name : String) (profiles : List String) :
    Keeps (fun state : SweepState => row ∉ state.world.embeddings)
      (deleteGroupEmbeddings input name profiles) := by
  have each : ∀ point, Keeps (fun current : World => row ∉ current.embeddings)
      (deleteEmbeddings input.odooVersion name profiles point) := fun point =>
    keeps_deleteEmbeddings _ _ _ point fun _ absent member => absent (List.mem_of_mem_filter member)
  exact keeps_deleteGroup name profiles each

include faultless in
theorem deleteGroup_erases {group : Group} (owned : ownedProfile group.2 = true)
    {row : EmbeddingRow} (version : row.odooVersion = input.odooVersion)
    (same : (row.module, row.profileName) = group)
    (handler : String → Action SweepState String Unit) :
    Meets (fun _ : SweepState => True)
      (recover (deleteGroupEmbeddings input group.1 [group.2]) handler)
      (fun _ state => row ∉ state.world.embeddings) := by
  intro state _
  have direct : deleteGroupEmbeddings input group.1 [group.2] =
      onStores (deleteEmbeddings input.odooVersion group.1 [group.2] none) := by
    unfold deleteGroupEmbeddings
    rw [faultless]
    rfl
  subst same
  rw [direct]
  simp [recover, onStores, deleteEmbeddings, update, owned, version]

theorem orphanGroup_since {group : Group} {current : World} (swept : AnySwept input world current)
    (listed : group ∈ orphanGroups input (unsyncedProfiles input world) world)
    {row : EmbeddingRow} (version : row.odooVersion = input.odooVersion)
    (same : (row.module, row.profileName) = group) (still : row ∈ current.embeddings) :
    group ∈ orphanGroups input (unsyncedProfiles input world) current := by
  obtain ⟨inGroups, holds⟩ := List.mem_filter.mp listed
  refine List.mem_filter.mpr ⟨?_, ?_⟩
  · obtain ⟨known, knownIn, sameGroup⟩ := List.mem_map.mp (List.mem_dedup.mp inGroups)
    have notGlobal := (List.mem_filter.mp knownIn).2
    simp only [Bool.and_eq_true, bne_iff_ne] at notGlobal
    refine List.mem_dedup.mpr (List.mem_map.mpr ⟨row, List.mem_filter.mpr ⟨still, ?_⟩, same⟩)
    have profile : row.profileName = known.profileName :=
      congrArg Prod.snd (same.trans sameGroup.symm)
    simpa [version, profile] using notGlobal.2
  · simp only [Bool.and_eq_true, Bool.not_eq_true'] at holds ⊢
    refine ⟨?_, holds.2⟩
    by_contra nowLive
    simp only [Bool.not_eq_false] at nowLive
    rw [live_since swept group nowLive] at holds
    cases holds.1

include keys executes faultless in
theorem embeddingOrphans_erases (group : Group)
    (listed : group ∈ orphanGroups input (unsyncedProfiles input world) world)
    (excluded : group.1 ∈ exempt input world) (owned : ownedProfile group.2 = true)
    (healthy : lostModules input (syncRows input world) (unsyncedProfiles input world) world = [])
    (row : EmbeddingRow) (version : row.odooVersion = input.odooVersion)
    (same : (row.module, row.profileName) = group) :
    Meets (fun state : SweepState => AnySwept input world state.world)
      (embeddingOrphans input (syncRows input world) (unsyncedProfiles input world))
      (fun _ state => row ∉ state.world.embeddings) := by
  have stays : ∀ (other : Group) (change : String → SweepReport → SweepReport),
      Keeps (fun state : SweepState => row ∉ state.world.embeddings)
        (recover (deleteGroupEmbeddings input other.1 [other.2]) fun message =>
          Sweep.report (change message)) := by
    intro other change
    exact keeps_recover _ _ (deleteGroup_absent row other.1 [other.2]) fun _ _ absent => absent
  unfold embeddingOrphans
  apply meets_reading
  intro state swept
  by_cases still : row ∈ state.world.embeddings
  · have isOrphan := orphanGroup_since swept listed version same still
    have noLost := healthy_since keys swept healthy
    have isDoomed : doomed input (syncRows input world) state.world group = true := by
      have listed' := (exempt_since swept.ledger group.1).mpr excluded
      simp [doomed, listed']
    have some' : ¬ (orphanGroups input (unsyncedProfiles input world) state.world).isEmpty = true := by
      rw [List.isEmpty_iff]
      exact List.ne_nil_of_mem isOrphan
    intro current atState
    simp only
    rw [if_neg some', noLost]
    simp only [List.isEmpty_nil, Bool.not_true, Bool.false_and, Bool.false_eq_true, if_false,
      executes]
    obtain ⟨earlier, later, split⟩ := List.append_of_mem (List.mem_filter.mpr ⟨isOrphan, isDoomed⟩)
    rw [split]
    have loop := @meets_forEach_at _ _ _ (fun _ : SweepState => True)
      (fun state : SweepState => row ∉ state.world.embeddings)
      (fun other : Group => recover (deleteGroupEmbeddings input other.1 [other.2]) fun message =>
        Sweep.report fun known => { known with
          errors := known.errors ++ [("embeddings:" ++ other.1 ++ ":" ++ other.2, message)] })
      earlier group later
      (fun other _ => succeeds_of (fun _ _ => trivial) (returns_recover _ _ fun _ _ => ⟨(), rfl⟩))
      (deleteGroup_erases faultless owned version same _) (fun other _ => stays other _)
    exact loop _ trivial
  · intro current atState
    subst atState
    simp only
    split
    · exact still
    · split
      · exact still
      · refine @keeps_andThen _ _ _ _ (fun state : SweepState => row ∉ state.world.embeddings) _ _
          (fun _ absent => absent) (fun _ => ?_) current still
        split
        · exact keeps_done _
        · exact keeps_forEach _ _ fun other _ => stays other _

include faultless in
theorem sweepGraph_runs (state : SweepState) : ∃ skipped,
    sweepGraph input (sweepTargets input world) state = (.ok (some skipped), { state with
      world := (retireModules input.odooVersion (sweepTargets input world) input.runStartedAt none
        state.world).2 }) := by
  obtain ⟨skipped, isOk⟩ := @retireModules_returns input.odooVersion (sweepTargets input world)
    input.runStartedAt state.world
  refine ⟨skipped, ?_⟩
  unfold sweepGraph
  rw [faultless]
  simp [recover, andThen, onStores, noSweepFaults, retrying, isOk, done]

theorem deleteGroup_modules (modules : List ModuleNode) (name : String) (profiles : List String) :
    Keeps (fun state : SweepState => state.world.modules = modules)
      (deleteGroupEmbeddings input name profiles) := by
  have each : ∀ point, Keeps (fun current : World => current.modules = modules)
      (deleteEmbeddings input.odooVersion name profiles point) := fun point =>
    keeps_deleteEmbeddings _ _ _ point fun _ same => same
  exact keeps_deleteGroup name profiles each

theorem sweepRest_modules (modules : List ModuleNode) (skipped : List String) :
    Keeps (fun state : SweepState => state.world.modules = modules)
      (sweepRest input world skipped) := by
  have reports : ∀ change, Keeps (fun state : SweepState => state.world.modules = modules)
      (Sweep.report change) := fun _ _ same => same
  unfold sweepRest
  apply keeps_andThen
  · apply keeps_forEach
    intro name _
    unfold cleanOrphan
    apply keeps_recover
    · apply keeps_andThen
      · split
        · exact keeps_done _
        · exact deleteGroup_modules modules name _
      · intro _
        apply keeps_andThen
        · unfold recordOrphan
          split
          · split
            · exact keeps_done _
            · split
              · exact keeps_raise _
              · intro state same
                unfold onStores commit
                simp only
                split
                · rename_i wrote
                  split at wrote
                  · cases wrote
                    exact same
                  · cases wrote
                · exact same
          · exact keeps_done _
        · exact fun _ => reports _
    · exact fun _ => reports _
  · intro _
    apply keeps_andThen _ _ (reports _)
    intro _
    unfold embeddingOrphans
    apply keeps_reading
    intro state _
    simp only
    split
    · exact keeps_done _
    · split
      · exact reports _
      · apply keeps_andThen _ _ (reports _)
        intro _
        split
        · exact keeps_done _
        · apply keeps_forEach
          intro group _
          exact keeps_recover _ _ (deleteGroup_modules modules _ _) fun _ => reports _

include executes faultless in
theorem sweepWorld_eq (targets : sweepTargets input world ≠ []) :
    ∃ skipped state, sweepWorld world input = (sweepRest input world skipped state).2.world ∧
      state.world = (retireModules input.odooVersion (sweepTargets input world)
        input.runStartedAt none world).2 := by
  obtain ⟨skipped, ran⟩ := @sweepGraph_runs input world faultless
    ⟨world, reportPlan input world {}⟩
  refine ⟨skipped, ⟨(retireModules input.odooVersion (sweepTargets input world)
    input.runStartedAt none world).2, reportPlan input world {}⟩, ?_, rfl⟩
  have some' : (sweepTargets input world).isEmpty = false :=
    List.isEmpty_eq_false_iff.mpr targets
  unfold sweepWorld sweep
  simp only [reading, executes, some', andThen, Sweep.report, update, Bool.not_true,
    Bool.false_eq_true, if_false, ran]

include executes allow keys faultless in
theorem exempt_node_deleted (node : ModuleNode) (version : node.odooVersion = input.odooVersion)
    (isDecidable : node.name ∈ Sweep.decidable input world)
    (excluded : node.name ∈ exempt input world)
    (stale : recent input.odooVersion node.name input.runStartedAt world = false) :
    node ∉ (sweepWorld world input).modules := by
  have isProven : node.name ∈ proven input world :=
    (mem_proven allow node.name).mpr ⟨isDecidable, by simp [orphanWhy, excluded]⟩
  have target : node.name ∈ sweepTargets input world :=
    (mem_sortedSet _ _).mpr (List.mem_append_left _ isProven)
  obtain ⟨-, -, -, -, retirable, -⟩ :=
    orphan_node keys node.name (List.mem_filter.mp isDecidable).1
  obtain ⟨skipped, state, final, atState⟩ :=
    sweepWorld_eq executes faultless (List.ne_nil_of_mem target)
  have outcome := retireModules_outcome input.odooVersion (sweepTargets input world)
    input.runStartedAt none world
  obtain ⟨ended, isOk⟩ := @retireModules_returns input.odooVersion (sweepTargets input world)
    input.runStartedAt world
  rw [isOk, ← atState] at outcome
  have cleared := (outcome.deleted target retirable stale).2
  rw [final, sweepRest_modules state.world.modules skipped state rfl]
  intro still
  have listed : node ∈ nodesOf input.odooVersion node.name state.world :=
    List.mem_filter.mpr ⟨still, by simp [ModuleNode.isAt, version]⟩
  rw [cleared] at listed
  cases listed

include executes keys faultless in
theorem exempt_row_deleted (group : Group)
    (listed : group ∈ orphanGroups input (unsyncedProfiles input world) world)
    (excluded : group.1 ∈ exempt input world) (owned : ownedProfile group.2 = true)
    (healthy : lostModules input (syncRows input world) (unsyncedProfiles input world) world = [])
    (row : EmbeddingRow) (version : row.odooVersion = input.odooVersion)
    (same : (row.module, row.profileName) = group) :
    row ∉ (sweepWorld world input).embeddings := by
  have erases := embeddingOrphans_erases executes keys faultless group listed excluded owned
    healthy row version same
  by_cases targets : sweepTargets input world = []
  · have final : sweepWorld world input = (embeddingOrphans input (syncRows input world)
        (unsyncedProfiles input world) ⟨world, reportPlan input world {}⟩).2.world := by
      unfold sweepWorld sweep
      simp [reading, executes, targets, andThen, Sweep.report, update]
    rw [final]
    exact erases _ swept_start
  · obtain ⟨skipped, state, final, atState⟩ := sweepWorld_eq executes faultless targets
    have swept : AnySwept input world state.world := by
      rw [atState]
      exact retireModules_swept keys (fun _ _ _ _ _ => trivial) none world swept_start
    have cleaned : Succeeds (fun state : SweepState => AnySwept input world state.world)
        (forEach (cleanOrphan input world)
          ((proven input world).filter fun name => !skipped.contains name)) :=
      succeeds_forEach _ _ fun name _ => succeeds_of
        (cleanOrphan_swept name fun _ _ => trivial) (cleanOrphan_returns world name)
    have rest : Meets (fun state : SweepState => AnySwept input world state.world)
        (sweepRest input world skipped) (fun _ state => row ∉ state.world.embeddings) := by
      unfold sweepRest
      have reported : ∀ change, Succeeds (fun state : SweepState => AnySwept input world state.world)
          (Sweep.report change) := fun _ _ holds => ⟨⟨(), rfl⟩, holds⟩
      exact cleaned.meets_andThen fun _ => (reported _).meets_andThen fun _ => erases
    rw [final]
    exact rest state swept

end Faultless

/-- Without allow_mass_retire, a sweep deletes only what is proven gone, wherever its calls
raise, if and only if it does not execute or each exemption that decides is the owners' own. -/
theorem sweep_proven_iff (input : SweepInput) (world : World)
    (allow : input.allowMassRetire = false) (keys : ModuleKeys world) :
    (∀ faults, SweepProven { input with faults } world) ↔
      (input.execute = true → ExemptionsOwn input world) := by
  constructor
  · intro proven executes
    have clean := proven noSweepFaults
    constructor
    · intro node nodeIn version isDecidable excluded stale
      have gone := @exempt_node_deleted { input with faults := noSweepFaults } world executes allow
        keys rfl node version isDecidable excluded stale
      exact (clean.modules node nodeIn gone).exempt
    · intro group listed excluded owned healthy
      obtain ⟨row, rowIn, same⟩ := List.mem_map.mp (List.mem_dedup.mp (List.mem_filter.mp listed).1)
      obtain ⟨rowIn, atVersion⟩ := List.mem_filter.mp rowIn
      simp only [Bool.and_eq_true, beq_iff_eq] at atVersion
      have gone := @exempt_row_deleted { input with faults := noSweepFaults } world executes keys
        rfl group listed excluded owned healthy row atVersion.1 same
      subst same
      exact (clean.embeddings row rowIn gone).exempt
  · intro own faults
    by_cases executes : input.execute = true
    · apply @sweep_sound { input with faults } world executes allow keys
      exact ⟨(own executes).modules, (own executes).embeddings⟩
    · simp only [Bool.not_eq_true] at executes
      have idle := @sweep_idle { input with faults } world executes
      constructor
      · intro node nodeIn gone
        rw [idle] at gone
        exact absurd nodeIn gone
      · intro row rowIn gone
        rw [idle] at gone
        exact absurd rowIn gone

/-- A synced repository of the profile, with its checkout under `/srv`. -/
def syncedRepo (id : Nat) (profileName : String) : Repo :=
  { id, url := "git@host:" ++ profileName, branch := "17.0", localPath := "/srv/" ++ profileName
    headSha := some "b2", presenceHeadSha := some "b2", profileName, profileVersion := "17.0" }

/-- `sale` of the profile `shop`; repository 2 of `field` excludes a module of that name. -/
def excludedElsewhere : World :=
  { ledger := ⟨[{ id := 0, repoId := some 2, repoUrl := "git@host:field", repoBasename := "field"
                  repoBranch := "17.0", profileName := "field", odooVersion := "17.0"
                  name := "sale", path := "sale", manifestFile := "__manifest__.py"
                  state := .excluded, exclusionReason := some .installableFalse
                  firstSeenSha := "a1", firstSeenAt := 1, lastSeenSha := "a1", lastSeenAt := 1
                  updatedAt := 2 }], 1⟩
    modules := [{ odooVersion := "17.0", name := "sale", profile := ["shop"], repos := ["shop"]
                  repo := "shop", path := "sale", repoId := some 1, repoUrl := none
                  lastSeenAt := some 1 }]
    children := []
    embeddings := [{ odooVersion := "17.0", module := "sale", profileName := "shop" }] }

def sweepInput (headTree : Nat → Option (List String)) : SweepInput :=
  { odooVersion := "17.0", runStartedAt := 10, execute := true, allowMassRetire := false
    retired := [], assumedSynced := [], assumeWritten := []
    db := { repos := fun _ => none, now := 20, clock := 20, lockAcquired := fun _ => true
            mergeSourceOk := true, stampsOk := true }
    registry := [syncedRepo 1 "shop", syncedRepo 2 "field"]
    checkout := fun repoId => ⟨true, none, none, headTree repoId⟩
    removal := fun _ _ _ => none, storeErrorText := fun _ => "LifecycleLockTimeout"
    faults := noSweepFaults }

/-- No checkout ships `sale`. -/
theorem dropped_everywhere_proven :
    SweepProven (sweepInput fun _ => some []) excludedElsewhere := by
  have keys : ModuleKeys excludedElsewhere := ⟨by decide, by decide⟩
  have gone : ∀ repo ∈ syncRows (sweepInput fun _ => some []) excludedElsewhere,
      repoClaim (sweepInput fun _ => some []) "sale" repo = none := by decide +kernel
  refine (sweep_proven_iff (sweepInput fun _ => some []) excludedElsewhere rfl keys).mpr
    (fun _ => ?_) noSweepFaults
  constructor
  · have named : ∀ node ∈ excludedElsewhere.modules, node.name = "sale" := by decide
    intro node nodeIn _ _ _ _ repo repoIn _
    rw [named node nodeIn]
    exact Or.inl (gone repo repoIn)
  · have named : ∀ group ∈ orphanGroups (sweepInput fun _ => some [])
        (unsyncedProfiles (sweepInput fun _ => some []) excludedElsewhere) excludedElsewhere,
        group.1 = "sale" := by decide +kernel
    intro group listed _ _ _ repo repoIn _
    rw [named group listed]
    exact Or.inl (gone repo repoIn)

/-- The exclusion of `field` takes the node and the embeddings of `shop` with it, though the
HEAD tree of `shop` ships the manifest. -/
theorem excluded_elsewhere_deletes :
    ModuleKeys excludedElsewhere ∧
      (sweepInput fun _ => some ["sale"]).allowMassRetire = false ∧
      (∀ repo ∈ syncRows (sweepInput fun _ => some ["sale"]) excludedElsewhere,
        repo.synced = true ∧ headShippedNames (sweepInput fun _ => some ["sale"]) repo =
          some ["sale"]) ∧
      (sweepWorld excludedElsewhere (sweepInput fun _ => some ["sale"])).modules = [] ∧
      (sweepWorld excludedElsewhere (sweepInput fun _ => some ["sale"])).embeddings = [] ∧
      ¬ SweepProven (sweepInput fun _ => some ["sale"]) excludedElsewhere := by
  have emptied : (sweepWorld excludedElsewhere (sweepInput fun _ => some ["sale"])).modules = [] :=
    by decide +kernel
  have shop : syncedRepo 1 "shop" ∈ syncRows (sweepInput fun _ => some ["sale"])
      excludedElsewhere := by decide +kernel
  have shipped : headShippedNames (sweepInput fun _ => some ["sale"]) (syncedRepo 1 "shop") =
      some ["sale"] := by decide +kernel
  refine ⟨⟨by decide, by decide⟩, rfl, by decide +kernel, emptied, by decide +kernel, ?_⟩
  intro proven
  obtain ⟨node, nodeIn⟩ : ∃ node, node ∈ excludedElsewhere.modules := ⟨_, List.mem_singleton_self _⟩
  have sale : node.name = "sale" ∧ "shop" ∈ node.profile := by
    revert node
    decide
  have gone := proven.modules node nodeIn (by rw [emptied]; exact List.not_mem_nil)
  rcases gone.absent (syncedRepo 1 "shop") shop sale.2 with ⟨names, read, absent⟩ | excluded
  · rw [shipped] at read
    cases read
    exact absent (by rw [sale.1]; exact List.mem_singleton_self _)
  · obtain ⟨row, rowIn, ofShop, -⟩ := excluded
    have elsewhere : row.repoId = some 2 := by
      revert row
      decide
    rw [elsewhere] at ofShop
    cases ofShop

end OdooSemantic.Reconcile.Evidence
