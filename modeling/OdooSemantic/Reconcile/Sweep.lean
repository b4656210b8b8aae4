import OdooSemantic.Reconcile.Pending

/-!
# The orphan sweep and the embedding sweep

What the ledger never saw goes when git proves it gone: a Module by the
checkouts of the profiles that own its node, a group of embeddings by those of
its profile.  A name that some ledger row excludes is taken as proven.
-/

set_option autoImplicit false

namespace OdooSemantic.Reconcile.Sweep

open Lib Lib.Action Lib.Py
open Ledger.Rows Ledger.Store Ledger.Ownership
open Reconcile.Stores Reconcile.Pending

/-- Git's proof of how an orphan left its repository. -/
structure OrphanRemoval where
  path : String
  manifestFile : String
  parentSha : String
  evidence : RetireEvidence
  date : Timestamp
  successor : Option Successor

structure SweepFaults where
  reset : Option String
  retire : List (Raised RetirePoint String)
  embeddings : String → List String → List (Raised EmbeddingPoint String)
  record : String → Option String

def noSweepFaults : SweepFaults :=
  { reset := none
    retire := []
    embeddings := fun _ _ => []
    record := fun _ => none }

structure SweepInput where
  odooVersion : String
  runStartedAt : Timestamp
  execute : Bool
  allowMassRetire : Bool
  retired : List String
  assumedSynced : List Nat
  assumeWritten : List String
  db : DbEnv
  registry : List Repo
  checkout : Nat → Checkout
  removal : Repo → ModuleNode → List String → Option OrphanRemoval
  storeErrorText : StoreError → String
  faults : SweepFaults

inductive ClaimWhy where
  | checkoutMissing
  | manifestInHead

abbrev Group := String × String

inductive SweepNotice where
  | orphansWait (count : Nat) (profileName : String)
  | childrenWait (count : Nat)
  | embeddingsHeld (groups : List Group) (lost : List String)

structure SweepReport where
  orphansUnparseable : List String := []
  orphansDeferred : List (String × List String) := []
  childOrphansDeferred : List String := []
  orphansKept : List (String × String × ClaimWhy) := []
  childOrphansKept : List (String × String × ClaimWhy) := []
  orphanCandidates : List String := []
  childOrphanCandidates : List String := []
  orphansSwept : List String := []
  childOrphansSwept : List String := []
  embeddingOrphans : List Group := []
  embeddingOrphansKept : List Group := []
  embeddingOrphansHeld : List Group := []
  gatesTripped : List String := []
  errors : List (String × String) := []
  notices : List (Nat × SweepNotice) := []

structure SweepState where
  world : World
  report : SweepReport

def onStores {Out : Type} (action : Action World String Out) : Action SweepState String Out :=
  fun state =>
    let (result, world) := action state.world
    (result, { state with world })

def report (change : SweepReport → SweepReport) : Action SweepState String Unit :=
  update fun state => { state with report := change state.report }

/-- `_head_shipped_names`: none when nothing can be proven. -/
def headShippedNames (input : SweepInput) (repo : Repo) : Option (List String) :=
  let checkout := input.checkout repo.id
  if repo.localPath = "" || !checkout.isDir then none
  else if checkout.repoVersion.any (· ≠ input.odooVersion) then some []
  else checkout.headTree

def repoClaim (input : SweepInput) (name : String) (repo : Repo) : Option ClaimWhy :=
  match headShippedNames input repo with
  | none => some .checkoutMissing
  | some names => if names.contains name then some .manifestInHead else none

/-- `_checkout_claim`: the first checkout that does not prove the name gone. -/
def checkoutClaim (input : SweepInput) (repos : List Repo) (name : String) :
    Option (String × ClaimWhy) :=
  repos.findSome? fun repo =>
    (repoClaim input name repo).map fun why => (repoLabel repo.basename (some repo.id), why)

/-! ## What is read at the start of the sweep -/

section Reads
variable (input : SweepInput) (world : World)

def syncRows : List Repo :=
  repoSyncState input.registry world.ledger input.odooVersion

def blocking : List Repo :=
  (syncRows input world).filter fun repo =>
    !repo.synced && !(!input.execute && input.assumedSynced.contains repo.id)

def unsyncedProfiles : List String :=
  (blocking input world).map (·.profileName)

def sweepPresent : List String :=
  (presentNames world.ledger input.odooVersion).filter fun name => !input.retired.contains name

def unparseable : List String :=
  excludedNames world.ledger input.odooVersion [.unparseable]

/-- The names the ledger excludes for another reason than an unreadable manifest. -/
def exempt : List String :=
  excludedNames world.ledger input.odooVersion [.installableFalse, .licenseSkip]

/-- `orphan_module_names`: owned nodes of names that are not present. -/
def orphanModuleNames (present : List String) : List String :=
  sortedSet ((world.modules.filter fun node =>
    node.odooVersion == input.odooVersion && !present.contains node.name &&
      !nonRetirableModuleNames.contains node.name &&
      (!node.profile.isEmpty || node.repoId.isSome)).map (·.name))

/-- `module_identity` of one name. -/
def moduleIdentity (name : String) : Option ModuleNode :=
  (world.modules.filter (ModuleNode.isAt input.odooVersion name)).getLast?

def listedOrphans : List String :=
  (orphanModuleNames input world (sweepPresent input world)).filter fun name =>
    !input.retired.contains name

def orphans : List String :=
  (listedOrphans input world).filter fun name => !(unparseable input world).contains name

def ownRepo (name : String) : Option Repo :=
  (moduleIdentity input world name).bind fun node => node.repoId.bind fun repoId =>
    (syncRows input world).find? fun repo => repo.id == repoId

def ownerProfiles (name : String) : List String :=
  ((moduleIdentity input world name).map fun node => sortedSet node.profile).getD []

/-- The unsynced profiles that may have written the node. -/
def orphanClaims (name : String) : List String :=
  sortedSet ((ownerProfiles input world name).filter
      (unsyncedProfiles input world).contains ++
    (((ownRepo input world name).filter fun repo =>
      ((blocking input world).map (·.id)).contains repo.id).map (·.profileName)).toList)

def decidable : List String :=
  (orphans input world).filter fun name => (orphanClaims input world name).isEmpty

def ownerRepos (name : String) : List Repo :=
  let repos := (ownerProfiles input world name).flatMap fun profile =>
    (syncRows input world).filter (·.profileName == profile)
  match ownRepo input world name with
  | some own => if repos.contains own then repos else repos ++ [own]
  | none => repos

def orphanWhy (name : String) : Option (String × ClaimWhy) :=
  if (exempt input world).contains name then none
  else checkoutClaim input (ownerRepos input world name) name

def proven : List String :=
  (decidable input world).filter fun name =>
    input.allowMassRetire || (orphanWhy input world name).isNone

/-- `orphan_child_keys`: names with children but no Module node. -/
def orphanChildKeys : List String :=
  sortedSet ((world.children.filter fun child =>
    child.odooVersion == input.odooVersion && !nonRetirableModuleNames.contains child.module &&
      (child.label != .lintViolation || child.module != "") &&
      !world.modules.any (ModuleNode.isAt input.odooVersion child.module)).map (·.module))

def childKeys : List String :=
  (orphanChildKeys input world).filter fun name =>
    !(sweepPresent input world).contains name && !(orphans input world).contains name &&
      !(unparseable input world).contains name

def childWhy (name : String) : Option (String × ClaimWhy) :=
  if (exempt input world).contains name then none
  else checkoutClaim input (syncRows input world) name

def childNames : List String :=
  if (blocking input world).isEmpty then childKeys input world else []

def childProven : List String :=
  (childNames input world).filter fun name =>
    input.allowMassRetire || (childWhy input world name).isNone

def sweepTargets : List String :=
  sortedSet (proven input world ++ childProven input world)

def reportPlan (before : SweepReport) : SweepReport :=
  let deferred := (orphans input world).filterMap fun name =>
    if (orphanClaims input world name).isEmpty then none
    else some (name, orphanClaims input world name)
  let waiting (profile : String) : Nat :=
    (deferred.filter fun item => item.2.contains profile).length
  let keptOrphans := (decidable input world).filterMap fun name =>
    (orphanWhy input world name).map fun why => (name, why)
  let keptChildren := (childNames input world).filterMap fun name =>
    (childWhy input world name).map fun why => (name, why)
  { before with
    orphansUnparseable := (listedOrphans input world).filter (unparseable input world).contains
    orphansDeferred := deferred
    childOrphansDeferred :=
      if (blocking input world).isEmpty then [] else childKeys input world
    orphansKept := if input.allowMassRetire then [] else keptOrphans
    childOrphansKept := if input.allowMassRetire then [] else keptChildren
    orphanCandidates := proven input world
    childOrphanCandidates := childProven input world
    notices := before.notices ++
      ((blocking input world).filter fun repo => waiting repo.profileName ≠ 0).map
        (fun repo => (repo.id, .orphansWait (waiting repo.profileName) repo.profileName)) ++
      if (childKeys input world).isEmpty then []
      else (blocking input world).map fun repo =>
        (repo.id, .childrenWait (childKeys input world).length) }

end Reads

def deleteGroupEmbeddings (input : SweepInput) (name : String) (profiles : List String) :
    Action SweepState String Unit :=
  onStores (retrying (deleteEmbeddings input.odooVersion name profiles) retryAttempts
    (input.faults.embeddings name profiles))

/-- `_record_orphan`: ledger history for a swept node, when git proves how it left. -/
def recordOrphan (input : SweepInput) (before : World) (name : String) :
    Action SweepState String Unit :=
  match ownRepo input before name, moduleIdentity input before name with
  | some repo, some node =>
      match input.removal repo node (sweepPresent input before) with
      | none => done ()
      | some removal =>
          match input.faults.record name with
          | some message => raise message
          | none => onStores (commit fun world =>
              match recordOrphanRetired input.db world.ledger repo.id name repo.profileName
                  input.odooVersion removal.path removal.manifestFile removal.parentSha
                  removal.date (some removal.evidence) removal.successor repo.headSha with
              | .ok (_, ledger) => .ok { world with ledger }
              | .error error => .error (input.storeErrorText error))
  | _, _ => done ()

def cleanOrphan (input : SweepInput) (before : World) (name : String) :
    Action SweepState String Unit :=
  recover
    (andThen
      (if (ownerProfiles input before name).isEmpty then done ()
        else deleteGroupEmbeddings input name (ownerProfiles input before name)) fun _ =>
    andThen (recordOrphan input before name) fun _ =>
    report fun known => { known with orphansSwept := known.orphansSwept ++ [name] })
    fun message => report fun known => { known with errors := known.errors ++ [(name, message)] }

def sweepGraph (input : SweepInput) (targets : List String) :
    Action SweepState String (Option (List String)) :=
  recover
    (andThen
      (match input.faults.reset with
        | some message => raise message
        | none => onStores (retrying
            (retireModules input.odooVersion targets input.runStartedAt) retryAttempts
            input.faults.retire))
      fun skipped => done (some skipped))
    fun message => andThen (report fun known =>
      { known with errors := known.errors ++ [("orphan_sweep", message)] }) fun _ => done none

/-- `embedding_groups`, without the row counts. -/
def embeddingGroups (input : SweepInput) (world : World) : List Group :=
  ((world.embeddings.filter fun row =>
    row.odooVersion == input.odooVersion && row.profileName != globalProfile).map fun row =>
      (row.module, row.profileName)).dedup

/-- A node of the profile or a `present` row accounts for the group. -/
def live (input : SweepInput) (world : World) (group : Group) : Bool :=
  (world.modules.any fun node =>
    node.isAt input.odooVersion group.1 && node.profile.contains group.2) ||
    (presentPairs world.ledger input.odooVersion).contains group

def orphanGroups (input : SweepInput) (unsynced : List String) (world : World) : List Group :=
  (embeddingGroups input world).filter fun group =>
    !live input world group && !unsynced.contains group.2

def lostModules (input : SweepInput) (repos : List Repo) (unsynced : List String)
    (world : World) : List String :=
  let synced := (repos.map (·.profileName)).filter fun profile => !unsynced.contains profile
  sortedSet (((presentPairs world.ledger input.odooVersion).filter fun pair =>
    synced.contains pair.2 && !input.retired.contains pair.1 &&
      !input.assumeWritten.contains pair.1 &&
      !world.modules.any (ModuleNode.isAt input.odooVersion pair.1)).map (·.1))

/-- No checkout of the group's profile ships the module, or the ledger excludes it. -/
def doomed (input : SweepInput) (repos : List Repo) (world : World) (group : Group) : Bool :=
  input.allowMassRetire || (exempt input world).contains group.1 ||
    (checkoutClaim input (repos.filter (·.profileName == group.2)) group.1).isNone

def heldTargets (input : SweepInput) (repos : List Repo) (unsynced : List String)
    (groups : List Group) (lost : List String) (world : World) : List Repo :=
  let synced := (repos.map (·.profileName)).filter fun profile => !unsynced.contains profile
  let profiles := groups.map (·.2) ++
    ((presentPairs world.ledger input.odooVersion).filter fun pair =>
      lost.contains pair.1 && synced.contains pair.2).map (·.2)
  let targets := repos.filter fun repo => profiles.contains repo.profileName
  if targets.isEmpty then repos else targets

/-- `_embedding_orphans`, for the repositories and profiles read at the sweep's start. -/
def embeddingOrphans (input : SweepInput) (repos : List Repo) (unsynced : List String) :
    Action SweepState String Unit :=
  reading fun state =>
    let groups := orphanGroups input unsynced state.world
    let lost := lostModules input repos unsynced state.world
    if groups.isEmpty then done ()
    else if !lost.isEmpty && !input.allowMassRetire then
      report fun known =>
        { known with
          gatesTripped := known.gatesTripped ++ ["embedding_sweep:graph_unhealthy"]
          embeddingOrphansHeld := groups
          notices := known.notices ++
            (heldTargets input repos unsynced groups lost state.world).map fun repo =>
              (repo.id, .embeddingsHeld groups lost) }
    else
      let gone := groups.filter (doomed input repos state.world)
      andThen (report fun known =>
        { known with
          embeddingOrphansKept := groups.filter fun group => !doomed input repos state.world group
          embeddingOrphans := gone }) fun _ =>
      if !input.execute then done ()
      else forEach (fun group => recover
        (deleteGroupEmbeddings input group.1 [group.2])
        fun message => report fun known =>
          { known with
            errors := known.errors ++
              [("embeddings:" ++ group.1 ++ ":" ++ group.2, message)] }) gone

def sweepRest (input : SweepInput) (before : World) (skipped : List String) :
    Action SweepState String Unit :=
  andThen (forEach (cleanOrphan input before)
    ((proven input before).filter fun name => !skipped.contains name)) fun _ =>
  andThen (report fun known =>
    { known with
      childOrphansSwept := known.childOrphansSwept ++
        (childProven input before).filter fun name => !skipped.contains name }) fun _ =>
  embeddingOrphans input (syncRows input before) (unsyncedProfiles input before)

def sweep (input : SweepInput) : Action SweepState String Unit :=
  reading fun state =>
    let before := state.world
    andThen (report (reportPlan input before)) fun _ =>
    if !input.execute then
      andThen (report fun known =>
        { known with
          orphansSwept := known.orphansSwept ++ proven input before
          childOrphansSwept := known.childOrphansSwept ++ childProven input before }) fun _ =>
      embeddingOrphans input (syncRows input before) (unsyncedProfiles input before)
    else if (sweepTargets input before).isEmpty then
      embeddingOrphans input (syncRows input before) (unsyncedProfiles input before)
    else andThen (sweepGraph input (sweepTargets input before)) fun
      | none => done ()
      | some skipped => sweepRest input before skipped

def sweepWorld (world : World) (input : SweepInput) : World :=
  (sweep input ⟨world, {}⟩).2.world

end OdooSemantic.Reconcile.Sweep
