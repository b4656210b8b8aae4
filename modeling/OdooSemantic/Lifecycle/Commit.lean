import OdooSemantic.Ledger.Rewrites
import OdooSemantic.Lifecycle.Gates

/-!
# One index run of a repository: observation and ledger commit

`observeLifecycle` reads the ledger rows, git and the graph and decides the
gates; `commitLifecycle` commits the observed rows, settles the rewrite flags
and flags the absent names with the block the gates imply.
-/

set_option autoImplicit false

namespace OdooSemantic.Lifecycle.Commit

open Lib Lib.Py
open Ledger.Rows Ledger.Store Ledger.Rewrites
open Lifecycle.Gates

/-- What a run is started with and what it reads from git and the graph.
`headTree` are the module names of the raw HEAD tree and `headListed` whether git
can list it; `removal` is the git evidence found for an absent name and
`stampedNodes` the number of Module nodes the presence stamp matched. -/
structure IndexRun where
  env : DbEnv
  repoId : Nat
  owningProfile : String
  currentHead : String
  scan : RegistryScan
  trusted : Bool
  headTree : List String
  headListed : Bool
  presenceHead : Option String
  lastHead : Option String
  isAncestor : String → String → Option Bool
  moduleBaseline : List (String × String)
  indexedNames : List String
  allowMassRetire : Bool
  retire : Bool
  rewriteNames : List String
  written : List String
  rewriteReadAt : Option Timestamp
  removal : String → Option RetireEvidence × Option Successor
  stampedNodes : Nat
  holdPresence : Bool

structure LifecycleObservation where
  transitions : Transitions
  gates : GateResult

def IndexRun.graphBaseline (input : IndexRun) : Option (List (String × String)) :=
  if input.presenceHead.isNone then some input.moduleBaseline else none

def IndexRun.headTreeModuleNames (input : IndexRun) : Option (List String) :=
  if input.headListed then some input.headTree else none

def IndexRun.shippedAtHead (input : IndexRun) (transitions : Transitions) :
    Option (List String) :=
  if !transitions.softDrops.isEmpty || input.graphBaseline.any (fun pairs => !pairs.isEmpty)
  then input.headTreeModuleNames else none

def IndexRun.wipeInHistory (input : IndexRun) : Option Bool :=
  let base := if truthy input.presenceHead then input.presenceHead else input.lastHead
  if truthy base && input.currentHead != "" then
    base.bind fun known => input.isAncestor known input.currentHead
  else none

def observeLifecycle (input : IndexRun) (rows : List PresenceRow) : LifecycleObservation :=
  let transitions := classify rows input.scan
  { transitions
    gates := applyGates transitions input.scan input.trusted input.allowMassRetire
      input.graphBaseline input.indexedNames (input.shippedAtHead transitions)
      input.wipeInHistory }

def manifestFileFor (scan : RegistryScan) (directory : String) : String :=
  let live (path : String) : Bool :=
    scan.finderPaths.contains path && !scan.untracked.contains path
  let inside (file : String) : String :=
    if directory = "" ∨ directory = "." then file else directory ++ "/" ++ file
  if live (inside "__manifest__.py") then "__manifest__.py"
  else if live (inside "__openerp__.py") then "__openerp__.py"
  else "__manifest__.py"

def observedPresent (scan : RegistryScan) (name : String) : Except StoreError ObservedModule :=
  let found := scan.module name
  let path := (found.map (·.path)).getD ""
  ObservedModule.make name path (manifestFileFor scan path) "present" none
    (found.bind (·.versionRaw)) (found.any (·.versionMismatch))
    ((scan.shadowed.lookup name).getD [])

def reasonText : ExclusionReason → String
  | .installableFalse => "installable_false"
  | .licenseSkip => "license_skip"
  | .unparseable => "unparseable"

def observedExcluded (scan : RegistryScan) (name : String) (known : ExcludedModule) :
    Except StoreError ObservedModule :=
  ObservedModule.make name known.path known.manifestFile "excluded"
    (some (reasonText known.reason)) known.versionRaw known.versionMismatch
    ((scan.shadowed.lookup name).getD [])

def observedModules (scan : RegistryScan) : Except StoreError (List ObservedModule) := do
  let present ← (sortedSet scan.presentNames).mapM (observedPresent scan)
  let excluded ← ((scan.excluded.filter fun (name, _) => (scan.module name).isNone).insertionSort
    fun first second => first.1 ≤ second.1).mapM fun (name, known) =>
      observedExcluded scan name known
  return present ++ excluded

/-- `retire_blocked_by` of the names this run flags. -/
def blockedBy (gates : GateResult) (retire : Bool) : Option String :=
  if !gates.retireAllowed then
    some (blockedGatePrefix ++ join "," (gates.tripped.map Gate.text))
  else if !retire then some blockedNoRetire
  else none

def absentNames (observation : LifecycleObservation) : List String :=
  (observation.transitions.retired.filter fun item =>
    !observation.gates.keptNames.contains item.name).map (·.name)

/-- The `lifecycle` counters of a run. -/
structure LifecycleCounters where
  odooVersion : String
  gatesTripped : List Gate
  pending : List String
  presenceSynced : Bool
  presenceDeferredHead : Option String
  presenceHeldHead : Option String

/-- `presence_head_sha` advances only when nothing is held and nothing pends. -/
def lifecycleCounters (input : IndexRun) (gates : GateResult) (pending : List String) :
    LifecycleCounters :=
  let stampShort := input.stampedNodes < input.scan.presentNames.dedup.length
  let held := !gates.retireAllowed || stampShort || (!pending.isEmpty && !input.retire) ||
    input.holdPresence
  { odooVersion := input.scan.odooVersion
    gatesTripped := gates.tripped
    pending
    presenceSynced := !held && pending.isEmpty
    presenceDeferredHead :=
      if !held && !pending.isEmpty then some input.currentHead else none
    presenceHeldHead := if input.holdPresence then some input.currentHead else none }

def commitLifecycle (input : IndexRun) (observation : LifecycleObservation)
    (tables : RewriteTables) : Except StoreError (LifecycleCounters × RewriteTables) := do
  let observed ← observedModules input.scan
  let (_, committed) ← commitObserved input.env tables.ledger input.repoId
    input.owningProfile input.scan.odooVersion input.currentHead observed none
  let done := input.rewriteNames.filter input.written.contains
  let (_, cleared) ← clearNeedsRewrite input.env committed input.repoId done
    input.rewriteReadAt
  let (_, applied) ← applyPendingRewrites input.env { tables with ledger := cleared }
    input.repoId input.scan.odooVersion input.scan.presentNames input.written
    input.rewriteReadAt
  let (pending, flagged) ← markRetirePending input.env applied.ledger input.repoId
    (absentNames observation) "absent" (fun name => (input.removal name).1)
    (fun name => (input.removal name).2) (blockedBy observation.gates input.retire)
  return (lifecycleCounters input observation.gates pending, { applied with ledger := flagged })

def indexRun (input : IndexRun) (tables : RewriteTables) :
    Except StoreError (LifecycleCounters × RewriteTables) :=
  commitLifecycle input
    (observeLifecycle input (tables.ledger.rows.filter (ofRepo input.repoId))) tables

end OdooSemantic.Lifecycle.Commit
