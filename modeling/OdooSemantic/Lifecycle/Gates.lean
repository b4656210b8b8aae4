import OdooSemantic.Ledger.Rows

/-!
# Transitions and safety gates of one repository scan

The previous ledger rows of a repository are compared with a fresh scan of its
checkout, and the drops are judged against the raw HEAD tree.  Nothing here
writes; the per-repository commit and the reconcile act on the result.
-/

set_option autoImplicit false

namespace OdooSemantic.Lifecycle.Gates

open Lib.Py
open Ledger.Rows

/-- The columns of an indexable module the lifecycle reads. -/
structure ScannedModule where
  path : String
  versionRaw : Option String
  versionMismatch : Bool

/-- A tracked manifest that is observed but not indexed. -/
structure ExcludedModule where
  reason : ExclusionReason
  path : String
  manifestFile : String
  versionRaw : Option String
  versionMismatch : Bool

/-- Scan truth of one checkout: `modules` by version key and name. -/
structure RegistryScan where
  odooVersion : String
  branch : Option String
  modules : List (String × List (String × ScannedModule))
  excluded : List (String × ExcludedModule)
  shadowed : List (String × List String)
  finderPaths : List String
  untracked : List String
  missing : List String
  unreadable : List String
  complete : Bool

namespace RegistryScan

def presentNames (scan : RegistryScan) : List String :=
  scan.modules.flatMap fun (_, modules) => modules.map (·.1)

def module (scan : RegistryScan) (name : String) : Option ScannedModule :=
  scan.modules.findSome? fun (_, modules) => modules.lookup name

def excludedModule (scan : RegistryScan) (name : String) : Option ExcludedModule :=
  scan.excluded.lookup name

def observedNames (scan : RegistryScan) : List String :=
  scan.presentNames ++ scan.excluded.map (·.1)

def unparseableNames (scan : RegistryScan) : List String :=
  (scan.excluded.filter fun (_, known) => known.reason == .unparseable).map (·.1)

end RegistryScan

inductive TransitionKind where
  | added
  | resurrected
  | retired
  | excluded
  | included
  | unchanged
  deriving DecidableEq

/-- How one module name moved between the previous row and the scan. -/
structure Transition where
  name : String
  before : Option PresenceState
  after : PresenceState
  beforeReason : Option ExclusionReason := none
  afterReason : Option ExclusionReason := none
  path : Option String := none
  oldPath : Option String := none

def Transition.kind (transition : Transition) : TransitionKind :=
  match transition.before with
  | none => .added
  | some before =>
      if before = .retired then .resurrected
      else if transition.after = .retired then .retired
      else if before = transition.after then .unchanged
      else if transition.after = .excluded then .excluded
      else .included

/-- A previously present module that vanished, or became unparseable. -/
def Transition.isSoftDrop (transition : Transition) : Bool :=
  transition.before == some .present &&
    (transition.after == .retired ||
      (transition.after == .excluded && transition.afterReason == some .unparseable))

structure Transitions where
  items : List Transition
  nPresentBefore : Nat

def Transitions.retired (transitions : Transitions) : List Transition :=
  transitions.items.filter fun item => item.kind == .retired

def Transitions.softDrops (transitions : Transitions) : List Transition :=
  transitions.items.filter Transition.isSoftDrop

def prevRow (rows : List PresenceRow) (name : String) : Option PresenceRow :=
  (rows.filter fun row => row.name == name).getLast?

def prevNames (rows : List PresenceRow) : List String :=
  (rows.map (·.name)).filter (· ≠ "")

def nowState (scan : RegistryScan) (name : String) :
    Option (PresenceState × Option ExclusionReason × Option String) :=
  if scan.presentNames.contains name then
    some (.present, none, (scan.module name).map (·.path))
  else
    (scan.excludedModule name).map fun known => (.excluded, some known.reason, some known.path)

/-- The previous directory of a name, when it differs from the current one. -/
def oldPath (before : PresenceState) (beforePath path : Option String) : Option String :=
  if truthy beforePath && truthy path && beforePath != path && before != .retired
  then beforePath else none

def reasonBefore (row : PresenceRow) : Option ExclusionReason :=
  if row.state = .excluded then row.exclusionReason else none

abbrev NowState := PresenceState × Option ExclusionReason × Option String

def addedTransition (name : String) (now : NowState) : Transition :=
  { name, before := none, after := now.1, afterReason := now.2.1, path := now.2.2 }

def seenTransition (name : String) (row : PresenceRow) (now : NowState) : Transition :=
  { name, before := some row.state, after := now.1, beforeReason := reasonBefore row
    afterReason := now.2.1, path := now.2.2
    oldPath := oldPath row.state (some row.path) now.2.2 }

def goneTransition (name : String) (row : PresenceRow) : Transition :=
  { name, before := some row.state, after := .retired, beforeReason := reasonBefore row
    path := some row.path }

def transitionOf (rows : List PresenceRow) (scan : RegistryScan) (name : String) :
    Option Transition :=
  match prevRow rows name, nowState scan name with
  | none, some now => some (addedTransition name now)
  | some row, some now => some (seenTransition name row now)
  | some row, none =>
      if row.state = .retired then none else some (goneTransition name row)
  | none, none => none

def classify (rows : List PresenceRow) (scan : RegistryScan) : Transitions :=
  let names := prevNames rows
  { items := (sortedSet (names ++ scan.observedNames)).filterMap (transitionOf rows scan)
    nPresentBefore := (names.dedup.filter fun name =>
      (prevRow rows name).any fun row => row.state == .present).length }

/-! ## Gates -/

inductive Gate where
  | scanIncomplete
  | scanUntrusted
  | massRetire
  | totalWipe
  | manifestUnparseable
  deriving DecidableEq

def Gate.text : Gate → String
  | .scanIncomplete => "scan_incomplete"
  | .scanUntrusted => "scan_untrusted"
  | .massRetire => "mass_retire"
  | .totalWipe => "total_wipe"
  | .manifestUnparseable => "manifest_unparseable"

inductive BaselineKind where
  | ledger
  | graph
  deriving DecidableEq

structure GateResult where
  scanOk : Bool
  massOk : Bool
  nSoftDrop : Nat
  nPresentBefore : Nat
  tripped : List Gate
  bypassed : List Gate
  reasons : List String
  baseline : BaselineKind
  unproven : List String
  allowUnproven : Bool

def GateResult.retireAllowed (gates : GateResult) : Bool :=
  gates.scanOk && gates.massOk

def GateResult.keptNames (gates : GateResult) : List String :=
  if gates.allowUnproven || gates.baseline != .ledger then [] else gates.unproven

def massRetireFloor : Nat := 20

def massGateTrips (nSoftDrop nPresentBefore nPresentAfter : Nat) : Option Gate :=
  if 0 < nPresentBefore ∧ 0 < nSoftDrop ∧ nPresentAfter = 0 then some .totalWipe
  else if nPresentBefore < 2 * nSoftDrop ∧ massRetireFloor ≤ nSoftDrop then some .massRetire
  else none

def gateExempt (reason : ExclusionReason) : Bool :=
  reason != .unparseable

/-- The `(odoo_version, name)` pairs of the graph baseline the scan lost. -/
def graphBaselineDrops (baseline : List (String × String)) (scan : RegistryScan) :
    List (String × String) :=
  baseline.dedup.filter fun (version, name) =>
    !(scan.modules.any fun (key, modules) =>
        key == version && (modules.map (·.1)).contains name) &&
      !((scan.excludedModule name).any fun known => gateExempt known.reason)

/-- Indexed modules whose manifest was read but does not parse. -/
def unparseableKept (transitions : Transitions) (scan : RegistryScan)
    (indexedNames : List String) : List String :=
  let wasPresent := (transitions.items.filter fun item =>
    item.before == some .present).map (·.name)
  sortedSet (scan.unparseableNames.filter fun name =>
    wasPresent.contains name || indexedNames.contains name)

structure DropEvidence where
  baseline : BaselineKind
  nSoftDrop : Nat
  nPresentBefore : Nat
  nUnparseable : Nat
  unproven : List String

def stillShipped (shipped : Option (List String)) (name : String) : Bool :=
  match shipped with
  | none => true
  | some names => names.contains name

def ledgerEvidence (transitions : Transitions) (shipped : Option (List String)) :
    DropEvidence :=
  { baseline := .ledger
    nSoftDrop := transitions.softDrops.length
    nPresentBefore := transitions.nPresentBefore
    nUnparseable := (transitions.softDrops.filter fun drop => drop.after != .retired).length
    unproven := (transitions.softDrops.filter fun drop =>
      drop.after == .retired && stillShipped shipped drop.name).map (·.name) }

def unparseable (scan : RegistryScan) (name : String) : Bool :=
  (scan.excludedModule name).any fun known => known.reason == .unparseable

def keyedElsewhere (scan : RegistryScan) (drop : String × String) : Bool :=
  scan.modules.any fun (version, modules) =>
    version != drop.1 && (modules.map (·.1)).contains drop.2

def graphEvidence (baseline : List (String × String)) (scan : RegistryScan)
    (shipped : Option (List String)) : DropEvidence :=
  let drops := graphBaselineDrops baseline scan
  let judged := drops.filter fun drop => !keyedElsewhere scan drop
  { baseline := .graph
    nSoftDrop := drops.length
    nPresentBefore := baseline.dedup.length
    nUnparseable := (judged.filter fun drop => unparseable scan drop.2).length
    unproven := (judged.filter fun drop =>
      !unparseable scan drop.2 && stillShipped shipped drop.2).map
        fun (version, name) => name ++ "@" ++ version }

/-- Why git does not prove a total wipe, or `none` when it does. -/
def wipeCause (evidence : DropEvidence) (shipped : Option (List String))
    (wipeInHistory : Option Bool) : Option String :=
  let nKept := evidence.unproven.length + evidence.nUnparseable
  if shipped.isNone then
    some "git cannot list the HEAD tree, so the wipe cannot be proven"
  else if nKept ≠ 0 then
    some (toString nKept ++ " of " ++ toString evidence.nSoftDrop ++
      " dropped module(s) still have a manifest in the HEAD tree (scan or checkout problem)")
  else
    match wipeInHistory with
    | some true => none
    | some false =>
        some ("the wipe is not in the branch history (the commit the ledger last " ++
          "reflected is not an ancestor of HEAD: force-push, branch swap or wrong clone)")
    | none =>
        some ("no earlier commit of this repo is recorded to prove the wipe " ++
          "is in the branch history")

def sample (names : List String) : String :=
  join ", " ((sortedSet names).take 3)

def scanReasons (scan : RegistryScan) (trusted : Bool) : List String :=
  (if !scan.complete && !scan.missing.isEmpty then
    ["scan incomplete: " ++ toString scan.missing.dedup.length ++
      " tracked manifest(s) missing on disk (" ++ sample scan.missing ++
      "); no module retired"] else []) ++
  (if !scan.complete && !scan.unreadable.isEmpty then
    ["scan incomplete: " ++ toString scan.unreadable.dedup.length ++
      " tracked manifest(s) cannot be read (permission or I/O error: " ++
      sample scan.unreadable ++ "); no module retired"] else []) ++
  (if !trusted then
    ["scan untrusted: checked-out tree is not origin/" ++
      (if truthy scan.branch then scan.branch.getD "" else "(none)") ++
      "; no module retired"] else [])

def applyGates (transitions : Transitions) (scan : RegistryScan)
    (trusted allowMassRetire : Bool) (graphBaseline : Option (List (String × String)))
    (indexedNames : List String) (shippedAtHead : Option (List String))
    (wipeInHistory : Option Bool) : GateResult :=
  let scanTripped := (if scan.complete then [] else [Gate.scanIncomplete]) ++
    (if trusted then [] else [Gate.scanUntrusted])
  let evidence := match graphBaseline with
    | some baseline => graphEvidence baseline scan shippedAtHead
    | none => ledgerEvidence transitions shippedAtHead
  let gate := massGateTrips evidence.nSoftDrop evidence.nPresentBefore
    scan.presentNames.dedup.length
  let cause := if gate = some .totalWipe
    then wipeCause evidence shippedAtHead wipeInHistory else none
  let massOk := cause.isNone || allowMassRetire
  let kept := unparseableKept transitions scan indexedNames
  let wipeReason (cause : String) : String :=
    "total wipe: none of the " ++ toString evidence.nPresentBefore ++
      " module(s) present before is in the scan; " ++ cause ++
      (if allowMassRetire then "; applied (--allow-mass-retire)"
        else "; no module retired, the repo's checkout must be checked")
  { scanOk := scanTripped.isEmpty
    massOk
    nSoftDrop := evidence.nSoftDrop
    nPresentBefore := evidence.nPresentBefore
    tripped := scanTripped ++ (if massOk then [] else [.totalWipe]) ++
      (if kept.isEmpty then [] else [.manifestUnparseable])
    bypassed := if cause.isSome && allowMassRetire then [.totalWipe] else []
    reasons := scanReasons scan trusted ++ (cause.map wipeReason).toList ++
      (if kept.isEmpty then [] else
        ["manifest unparseable: " ++ toString kept.length ++
          " indexed module(s) kept as they are until their manifest parses again (" ++
          join ", " (kept.take 3) ++ ")"])
    baseline := evidence.baseline
    unproven := evidence.unproven.insertionSort (· ≤ ·)
    allowUnproven := allowMassRetire }

def blockedNoRetire : String := "no_retire"
def blockedGatePrefix : String := "gate:"
def blockedUndecidablePrefix : String := "undecidable:"
def blockedSkippedRecent : String := "skipped_recent"
def blockedErrorPrefix : String := "error:"

def reconcileMayRetry (blockedBy : Option String) : Bool :=
  match blockedBy with
  | none => true
  | some reason =>
      reason == "" || reason == blockedSkippedRecent ||
        startsWith reason blockedUndecidablePrefix || startsWith reason blockedErrorPrefix

theorem reconcileMayRetry_noRetire : reconcileMayRetry (some blockedNoRetire) = false := by
  decide

theorem reconcileMayRetry_skippedRecent :
    reconcileMayRetry (some blockedSkippedRecent) = true := by
  decide

theorem reconcileMayRetry_undecidable (rest : String) :
    reconcileMayRetry (some (blockedUndecidablePrefix ++ rest)) = true := by
  simp [reconcileMayRetry, startsWith_append]

theorem reconcileMayRetry_error (rest : String) :
    reconcileMayRetry (some (blockedErrorPrefix ++ rest)) = true := by
  simp [reconcileMayRetry, startsWith_append]

theorem reconcileMayRetry_gate (gates : String) :
    reconcileMayRetry (some (blockedGatePrefix ++ gates)) = false := by
  have letters : (blockedGatePrefix ++ gates).toList = 'g' :: 'a' :: 't' :: 'e' :: ':' ::
      gates.toList := by
    rw [String.toList_append]
    rfl
  have filled : blockedGatePrefix ++ gates ≠ "" := by
    intro nothing
    have empty := congrArg String.toList nothing
    rw [letters] at empty
    cases empty
  have fresh : blockedGatePrefix ++ gates ≠ blockedSkippedRecent := by
    intro same
    have spelled := congrArg String.toList same
    rw [letters] at spelled
    have first : 'g' = 's' := (List.cons.inj spelled).1
    exact absurd first (by decide)
  have undecidable : startsWith (blockedGatePrefix ++ gates) blockedUndecidablePrefix = false := by
    rw [startsWith, letters]
    rfl
  have error : startsWith (blockedGatePrefix ++ gates) blockedErrorPrefix = false := by
    rw [startsWith, letters]
    rfl
  simp [reconcileMayRetry, filled, fresh, undecidable, error]

end OdooSemantic.Lifecycle.Gates
