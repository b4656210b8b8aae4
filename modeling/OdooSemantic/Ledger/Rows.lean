import OdooSemantic.Lib.Py

/-!
# Rows and values of the module lifecycle ledger

One `module_presence` row per `(repo_id, name)` with every column of the
table, the validated value objects the store takes, and the repository row the
store reads beside it.
-/

set_option autoImplicit false

namespace OdooSemantic.Ledger.Rows

open Lib

/-- Instants of the database clock. -/
abbrev Timestamp := Nat

inductive PresenceState where
  | present
  | excluded
  | retired
  deriving DecidableEq

inductive ExclusionReason where
  | installableFalse
  | licenseSkip
  | unparseable
  deriving DecidableEq

inductive RetireReason where
  | absent
  | repoRemoved
  | orphanSweep
  deriving DecidableEq

inductive SuccessorSource where
  | gitRename
  | gitMerge
  | oldTechnicalName
  deriving DecidableEq

/-- `EXCLUSION_REASONS` as the code spells them. -/
def ExclusionReason.ofText : String → Option ExclusionReason
  | "installable_false" => some .installableFalse
  | "license_skip" => some .licenseSkip
  | "unparseable" => some .unparseable
  | _ => none

/-- `RETIRE_REASONS` as the code spells them. -/
def RetireReason.ofText : String → Option RetireReason
  | "absent" => some .absent
  | "repo_removed" => some .repoRemoved
  | "orphan_sweep" => some .orphanSweep
  | _ => none

/-- `SUCCESSOR_SOURCES` as the code spells them. -/
def SuccessorSource.ofText : String → Option SuccessorSource
  | "git_rename" => some .gitRename
  | "git_merge" => some .gitMerge
  | "old_technical_name" => some .oldTechnicalName
  | _ => none

/-- A row of `module_presence`. -/
structure PresenceRow where
  id : Nat
  repoId : Option Nat
  repoUrl : String
  repoBasename : String
  repoBranch : String
  profileName : String
  odooVersion : String
  name : String
  path : String
  manifestFile : String
  shadowedPaths : List String := []
  state : PresenceState
  exclusionReason : Option ExclusionReason := none
  retireReason : Option RetireReason := none
  retirePending : Bool := false
  retirePendingReason : Option RetireReason := none
  retirePendingAt : Option Timestamp := none
  retireBlockedBy : Option String := none
  needsRewrite : Bool := false
  needsRewriteAt : Option Timestamp := none
  versionRaw : Option String := none
  versionMismatch : Bool := false
  firstSeenSha : String
  firstSeenAt : Timestamp
  lastSeenSha : String
  lastSeenAt : Timestamp
  stateChangedSha : Option String := none
  stateChangedAt : Option Timestamp := none
  removingCommitSha : Option String := none
  removingCommitDate : Option Timestamp := none
  removingCommitSubject : Option String := none
  successorNames : Option (List String) := none
  successorSource : Option SuccessorSource := none
  resurrectionCount : Nat := 0
  updatedAt : Timestamp
  lastFullParseAt : Option Timestamp := none
  lastFullParseSha : Option String := none
  lastFullParseUnobserved : List String := []
  lastFullParseEmbeddedAt : Option Timestamp := none
  lastFullParseRun : Option String := none
  deriving DecidableEq

/-- `ValueError`s of the value objects and of the store, and its own exceptions. -/
inductive StoreError where
  | observedNameEmpty
  | presentCarriesReason (name : String)
  | excludedNeedsReason (name : String) (got : Option String)
  | observedStateUnknown (name state : String)
  | successorNamesEmpty
  | successorSourceUnknown (source : String)
  | observedTwice (name : String)
  | profileNameRequired
  | reasonUnknown (reason : String)
  | retiredNeedsIdentity
  | repoNotFound (repoId : Nat)
  | lifecycleLockTimeout (version : String)

inductive ObservedState where
  | present
  | excluded
  deriving DecidableEq

def ObservedState.toState : ObservedState → PresenceState
  | .present => .present
  | .excluded => .excluded

structure ObservedModule where
  name : String
  path : String
  manifestFile : String
  state : ObservedState
  exclusionReason : Option ExclusionReason
  versionRaw : Option String
  versionMismatch : Bool
  shadowedPaths : List String
  named : name ≠ ""
  reasoned : state = .excluded ↔ exclusionReason.isSome

/-- `ObservedModule.__post_init__`. -/
def ObservedModule.make (name path manifestFile : String) (state : String)
    (exclusionReason : Option String) (versionRaw : Option String)
    (versionMismatch : Bool) (shadowedPaths : List String) :
    Except StoreError ObservedModule :=
  if named : name = "" then .error .observedNameEmpty
  else if state = "present" then
    match exclusionReason with
    | some _ => .error (.presentCarriesReason name)
    | none =>
        .ok { name, path, manifestFile, versionRaw, versionMismatch, shadowedPaths, named
              state := .present, exclusionReason := none, reasoned := by simp }
  else if state = "excluded" then
    match exclusionReason.bind ExclusionReason.ofText with
    | none => .error (.excludedNeedsReason name exclusionReason)
    | some reason =>
        .ok { name, path, manifestFile, versionRaw, versionMismatch, shadowedPaths, named
              state := .excluded, exclusionReason := some reason, reasoned := by simp }
  else .error (.observedStateUnknown name state)

/-- The commit that removed a module's manifest. -/
structure RetireEvidence where
  sha : Option String
  date : Option Timestamp
  subject : Option String

/-- Where a retired module went. -/
structure Successor where
  names : List String
  source : SuccessorSource
  nonempty : names ≠ []

/-- `Successor.__post_init__`: empty names are dropped, none may be all there is. -/
def Successor.make (names : List String) (source : String) : Except StoreError Successor :=
  let kept := names.filter (· ≠ "")
  if nonempty : kept = [] then .error .successorNamesEmpty
  else
    match SuccessorSource.ofText source with
    | none => .error (.successorSourceUnknown source)
    | some known => .ok { names := kept, source := known, nonempty }

/-- The columns of a `repos` row the store reads. -/
structure RepoRow where
  id : Nat
  url : String
  branch : String
  localPath : String
  headSha : Option String := none
  presenceHeadSha : Option String := none
  deriving DecidableEq

/-- The last path segment of `local_path` without its trailing slashes. -/
def RepoRow.basename (repo : RepoRow) : String :=
  String.ofList
    ((repo.localPath.toList.reverse.dropWhile (· = '/')).takeWhile (· ≠ '/')).reverse

structure RowShape (row : PresenceRow) : Prop where
  excluded_iff_reason : row.state = .excluded ↔ row.exclusionReason.isSome
  retired_iff_reason : row.state = .retired ↔ row.retireReason.isSome
  retired_not_pending : row.state = .retired → row.retirePending = false
  pending_iff_reason : row.retirePending = true ↔ row.retirePendingReason.isSome
  successor_pair : row.successorNames.isNone ↔ row.successorSource.isNone
  present_clean : row.state = .present → row.retirePending = false →
    row.removingCommitSha = none ∧ row.removingCommitDate = none ∧
      row.removingCommitSubject = none ∧ row.successorNames = none ∧
        row.successorSource = none

end OdooSemantic.Ledger.Rows
