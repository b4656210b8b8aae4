import OdooSemantic.Lib.Action
import OdooSemantic.Ledger.Ownership

/-!
# The three stores of the reconcile

The ledger, the graph and the embeddings are written without a common
transaction.  A graph call is a sequence of auto-committed statements: it may
raise at any of them, in the middle of a batched delete too, and leaves what
the statements before it deleted.
-/

set_option autoImplicit false

namespace OdooSemantic.Reconcile.Stores

open Lib Lib.Action Lib.Py
open Ledger.Rows Ledger.Store Ledger.Ownership

/-- A `Module` node. -/
structure ModuleNode where
  odooVersion : String
  name : String
  profile : List String
  repos : List String
  repo : String
  path : String
  repoId : Option Nat
  repoUrl : Option String
  lastSeenAt : Option Timestamp
  deriving DecidableEq

/-- `MODULE_CHILD_LABELS`. -/
inductive ChildLabel where
  | lintViolation
  | method
  | field
  | model
  | view
  | qwebTmpl
  | report
  | jsPatch
  | owlComp
  | stylesheet
  | jsTestSuite
  | testMethod
  | testClass
  | testHelper
  deriving DecidableEq

/-- The order of the cascade. -/
def moduleChildLabels : List ChildLabel :=
  [.lintViolation, .method, .field, .model, .view, .qwebTmpl, .report, .jsPatch, .owlComp,
    .stylesheet, .jsTestSuite, .testMethod, .testClass, .testHelper]

structure ChildNode where
  odooVersion : String
  label : ChildLabel
  module : String
  repo : String
  profile : List String
  writtenAt : Option Timestamp

structure EmbeddingRow where
  odooVersion : String
  module : String
  profileName : String
  deriving DecidableEq

structure World where
  ledger : LedgerTable
  modules : List ModuleNode
  children : List ChildNode
  embeddings : List EmbeddingRow

def ModuleNode.isAt (odooVersion name : String) (node : ModuleNode) : Bool :=
  node.odooVersion == odooVersion && node.name == name

/-! ## Graph -/

def nonRetirableModuleNames : List String := ["@framework", "__unresolved__"]

def retirableName (name : String) : Bool :=
  name != "" && !nonRetirableModuleNames.contains name

def writtenBefore (runStartedAt : Timestamp) (stamp : Option Timestamp) : Bool :=
  stamp.all fun at' => at' < runStartedAt

def batched {Node : Type} (failing : Option (Node → Bool))
    (apply : (Node → Bool) → World → World) : Action World String Unit :=
  match failing with
  | none => update (apply fun _ => true)
  | some applied => andThen (update (apply applied)) fun _ => raise "transaction failed"

def deleteChildren (stale applied : ChildNode → Bool) (world : World) : World :=
  { world with
    children := world.children.filter fun child => !(stale child && applied child) }

def deleteModules (stale applied : ModuleNode → Bool) (world : World) : World :=
  { world with modules := world.modules.filter fun node => !(stale node && applied node) }

/-- Where `retire_modules` can raise. -/
inductive RetirePoint where
  | guard
  | children (label : ChildLabel) (applied : ChildNode → Bool)
  | modules (applied : ModuleNode → Bool)
  | lateGuard

namespace RetirePoint

def atGuard : RetirePoint → Bool
  | .guard => true
  | _ => false

def atLateGuard : RetirePoint → Bool
  | .lateGuard => true
  | _ => false

def atChildren (label : ChildLabel) : RetirePoint → Option (ChildNode → Bool)
  | .children failing applied => if failing = label then some applied else none
  | _ => none

def atModules : RetirePoint → Option (ModuleNode → Bool)
  | .modules applied => some applied
  | _ => none

end RetirePoint

def staleChild (odooVersion : String) (targets : List String) (runStartedAt : Timestamp)
    (label : ChildLabel) (child : ChildNode) : Bool :=
  child.label == label && targets.contains child.module && child.odooVersion == odooVersion &&
    writtenBefore runStartedAt child.writtenAt

def staleModule (odooVersion : String) (targets : List String) (runStartedAt : Timestamp)
    (node : ModuleNode) : Bool :=
  targets.contains node.name && node.odooVersion == odooVersion &&
    writtenBefore runStartedAt node.lastSeenAt

def recentNames (world : World) (odooVersion : String) (runStartedAt : Timestamp)
    (names : List String) : List String :=
  names.filter fun name => world.modules.any fun node =>
    node.isAt odooVersion name && !writtenBefore runStartedAt node.lastSeenAt

/-- The deletes of `retire_modules`, the Module nodes last. -/
def retireCascade (odooVersion : String) (targets : List String) (runStartedAt : Timestamp)
    (point : Option RetirePoint) : Action World String Unit :=
  andThen
    (forEach (fun label => batched (point.bind (RetirePoint.atChildren label))
      (deleteChildren (staleChild odooVersion targets runStartedAt label))) moduleChildLabels)
    fun _ => batched (point.bind RetirePoint.atModules)
      (deleteModules (staleModule odooVersion targets runStartedAt))

/-- The names `retire_modules` may delete. -/
def targetNames (world : World) (odooVersion : String) (runStartedAt : Timestamp)
    (wanted : List String) : List String :=
  wanted.filter fun name => !(recentNames world odooVersion runStartedAt wanted).contains name

/-- The deletes, and the names written again while they ran. -/
def retireTargets (odooVersion : String) (targets recent : List String)
    (runStartedAt : Timestamp) (point : Option RetirePoint) :
    Action World String (List String) :=
  if targets.isEmpty then done recent
  else andThen (retireCascade odooVersion targets runStartedAt point) fun _ =>
    if point.any RetirePoint.atLateGuard then raise "late guard failed"
    else reading fun after => done (sortedSet (recent ++
      targets.filter fun name => after.modules.any (ModuleNode.isAt odooVersion name)))

/-- `retire_modules`; its result is `skipped_recent`. -/
def retireModules (odooVersion : String) (names : List String) (runStartedAt : Timestamp)
    (point : Option RetirePoint) : Action World String (List String) :=
  let wanted := sortedSet (names.filter retirableName)
  if wanted.isEmpty then done []
  else if point.any RetirePoint.atGuard then raise "guard failed"
  else reading fun world =>
    retireTargets odooVersion (targetNames world odooVersion runStartedAt wanted)
      (recentNames world odooVersion runStartedAt wanted) runStartedAt point

/-- `module_profiles` of one name, empty without a node. -/
def moduleProfiles (world : World) (odooVersion name : String) : List String :=
  ((world.modules.filter (ModuleNode.isAt odooVersion name)).flatMap (·.profile)).dedup

structure ModuleOwner where
  profileName : String
  repoBasename : String
  path : String
  repoId : Option Nat
  repoUrl : String

def byProfileAndBasename (first second : ModuleOwner) : Bool :=
  first.profileName < second.profileName ||
    (first.profileName == second.profileName && first.repoBasename ≤ second.repoBasename)

def sameOwnerKey (first second : ModuleOwner) : Bool :=
  first.profileName == second.profileName && first.repoBasename == second.repoBasename

/-- One owner a `(profile_name, repo_basename)` key, the last one, in key order. -/
def ownerList (owners : List ModuleOwner) : List ModuleOwner :=
  (owners.foldr (fun owner kept =>
    if kept.any (sameOwnerKey owner) then kept else owner :: kept) []).insertionSort
      fun first second => byProfileAndBasename first second = true

/-- Where `drop_module_owner` can raise. -/
inductive DropPoint where
  | module
  | tests (label : ChildLabel) (applied : ChildNode → Bool)
  | children (label : ChildLabel) (applied : ChildNode → Bool)

namespace DropPoint

def atModule : DropPoint → Bool
  | .module => true
  | _ => false

def atTests (label : ChildLabel) : DropPoint → Option (ChildNode → Bool)
  | .tests failing applied => if failing = label then some applied else none
  | _ => none

def atChildren (label : ChildLabel) : DropPoint → Option (ChildNode → Bool)
  | .children failing applied => if failing = label then some applied else none
  | _ => none

end DropPoint

def reown (odooVersion name : String) (primary : ModuleOwner) (owners : List ModuleOwner)
    (world : World) : World :=
  { world with
    modules := world.modules.map fun node =>
      if node.isAt odooVersion name then
        { node with
          profile := sortedSet (owners.map (·.profileName))
          repos := sortedSet (owners.map (·.repoBasename))
          repo := primary.repoBasename
          path := primary.path
          repoId := primary.repoId.or node.repoId
          repoUrl := some primary.repoUrl }
      else node }

def reownChildren (odooVersion name : String) (profiles : List String) (label : ChildLabel)
    (applied : ChildNode → Bool) (world : World) : World :=
  { world with
    children := world.children.map fun child =>
      if child.label == label && child.module == name && child.odooVersion == odooVersion &&
          applied child then
        { child with profile := profiles }
      else child }

/-- `drop_module_owner`: the node survives with exactly these owners. -/
def dropModuleOwner (odooVersion name : String) (owners : List ModuleOwner)
    (point : Option DropPoint) : Action World String Unit :=
  let owners := ownerList owners
  match owners with
  | [] => raise "no surviving owner"
  | primary :: _ =>
      if nonRetirableModuleNames.contains name then done ()
      else if point.any DropPoint.atModule then raise "module update failed"
      else
        let profiles := sortedSet (owners.map (·.profileName))
        let repos := owners.map (·.repoBasename)
        andThen (update (reown odooVersion name primary owners)) fun _ =>
        andThen (forEach (fun label => batched (point.bind (DropPoint.atTests label))
          (deleteChildren fun child => child.label == label && child.module == name &&
            child.odooVersion == odooVersion && !repos.contains child.repo))
          [.testMethod, .testClass]) fun _ =>
        forEach (fun label => batched (point.bind (DropPoint.atChildren label))
          (reownChildren odooVersion name profiles label)) moduleChildLabels

def globalProfile : String := "__global__"

/-- The profiles whose rows `delete_module_embeddings` may delete. -/
def ownedProfile (profileName : String) : Bool :=
  profileName != "" && profileName != globalProfile

inductive EmbeddingPoint where
  | beforeCommit
  | afterCommit
  deriving DecidableEq

def deleteEmbeddings (odooVersion module : String) (profileNames : List String)
    (point : Option EmbeddingPoint) : Action World String Unit :=
  let profiles := sortedSet (profileNames.filter ownedProfile)
  let delete (world : World) : World :=
    { world with
      embeddings := world.embeddings.filter fun row =>
        !(row.odooVersion == odooVersion && row.module == module &&
          profiles.contains row.profileName) }
  if profiles.isEmpty then done ()
  else match point with
  | none => update delete
  | some .beforeCommit => raise "embedding delete failed"
  | some .afterCommit => andThen (update delete) fun _ => raise "embedding delete failed"

theorem keeps_deleteEmbeddings {inv : World → Prop} (odooVersion module : String)
    (profileNames : List String) (point : Option EmbeddingPoint)
    (filtered : ∀ world, inv world → inv { world with
      embeddings := world.embeddings.filter fun row =>
        !(row.odooVersion == odooVersion && row.module == module &&
          (sortedSet (profileNames.filter ownedProfile)).contains row.profileName) }) :
    Keeps inv (deleteEmbeddings odooVersion module profileNames point) := by
  intro world holds
  unfold deleteEmbeddings
  split
  · exact holds
  · cases point with
    | none => exact filtered world holds
    | some at' =>
        cases at' with
        | beforeCommit => exact holds
        | afterCommit => exact filtered world holds

end OdooSemantic.Reconcile.Stores
