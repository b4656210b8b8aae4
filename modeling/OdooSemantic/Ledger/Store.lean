import OdooSemantic.Lib.Table
import OdooSemantic.Ledger.Rows

/-!
# The ledger writers

The five writers of `ModulePresenceStore` that observe, flag and retire rows,
and the foreign-key action of a repository delete.  Each call takes what it
reads outside the ledger (repository row, clock, lock outcome, catalog probe) as
a `DbEnv`; a call that raises rolls its transaction back.
-/

set_option autoImplicit false

namespace OdooSemantic.Ledger.Store

open Lib Lib.Py
open Ledger.Rows

abbrev LedgerTable := Table PresenceRow

/-- What a store call reads besides its arguments and the ledger: the `repos`
table, `now()` and `clock_timestamp()`, whether each version lock is acquired
within the wait budget, and the probes of migrations 0006 and 0007. -/
structure DbEnv where
  repos : Nat → Option RepoRow
  now : Timestamp
  clock : Timestamp
  lockAcquired : String → Bool
  mergeSourceOk : Bool
  stampsOk : Bool

def ofRepo (repoId : Nat) (row : PresenceRow) : Bool :=
  row.repoId == some repoId

/-- `WHERE repo_id = … AND name = …`, the unique key of the table. -/
def hasKey (repoId : Nat) (name : String) (row : PresenceRow) : Bool :=
  row.repoId == some repoId && row.name == name

/-- `UNIQUE (repo_id, name)`; rows of deleted repositories are exempt. -/
def UniqueKey (ledger : LedgerTable) : Prop :=
  ∀ first ∈ ledger.rows, ∀ second ∈ ledger.rows, first.repoId = second.repoId →
    first.repoId.isSome = true → first.name = second.name → first = second

instance (ledger : LedgerTable) : Decidable (UniqueKey ledger) :=
  inferInstanceAs (Decidable (∀ first ∈ ledger.rows, ∀ second ∈ ledger.rows, _ → _ → _ → _))

def holdVersions (env : DbEnv) (versions : List String) : Except StoreError Unit :=
  match (sortedSet versions).find? fun version => !env.lockAcquired version with
  | some version => .error (.lifecycleLockTimeout version)
  | none => .ok ()

def repoRow (env : DbEnv) (repoId : Nat) : Except StoreError RepoRow :=
  match env.repos repoId with
  | some repo => .ok repo
  | none => .error (.repoNotFound repoId)

def repoVersions (ledger : LedgerTable) (repoId : Nat) : List String :=
  (ledger.rows.filter (ofRepo repoId)).map (·.odooVersion)

/-- `None` for a merge successor the schema cannot store yet. -/
def storableSuccessor (env : DbEnv) (successor : Option Successor) : Option Successor :=
  successor.filter fun known => known.source ≠ .gitMerge || env.mergeSourceOk

structure CommitObservedResult where
  inserted : List String
  resurrected : List String
  stateChanged : List String
  pendingCleared : List String

/-- Each name is observed once; `seen` are the names before. -/
def indexObserved (seen : List String) : List ObservedModule → Except StoreError Unit
  | [] => .ok ()
  | observed :: rest =>
      if observed.name ∈ seen then .error (.observedTwice observed.name)
      else indexObserved (observed.name :: seen) rest

/-- The row `_UPSERT_OBSERVED_SQL` inserts, also its `EXCLUDED` row. -/
def observedInsert (repo : RepoRow) (repoId : Nat) (profileName odooVersion headSha : String)
    (now : Timestamp) (id : Nat) (observed : ObservedModule) : PresenceRow :=
  { id
    repoId := some repoId
    repoUrl := repo.url
    repoBasename := repo.basename
    repoBranch := repo.branch
    profileName
    odooVersion
    name := observed.name
    path := observed.path
    manifestFile := observed.manifestFile
    shadowedPaths := observed.shadowedPaths
    state := observed.state.toState
    exclusionReason := observed.exclusionReason
    versionRaw := observed.versionRaw
    versionMismatch := observed.versionMismatch
    firstSeenSha := headSha
    firstSeenAt := now
    lastSeenSha := headSha
    lastSeenAt := now
    stateChangedSha := some headSha
    stateChangedAt := some now
    updatedAt := now }

/-- The `DO UPDATE SET` list of `_UPSERT_OBSERVED_SQL`. -/
def observedUpdate (excluded row : PresenceRow) : PresenceRow :=
  let changed : Bool :=
    row.state ≠ excluded.state ∨ row.exclusionReason ≠ excluded.exclusionReason
  let reparse : Bool := row.state ≠ excluded.state ∨ row.path ≠ excluded.path
  { row with
    repoUrl := excluded.repoUrl
    repoBasename := excluded.repoBasename
    repoBranch := excluded.repoBranch
    profileName := excluded.profileName
    odooVersion := excluded.odooVersion
    path := excluded.path
    manifestFile := excluded.manifestFile
    shadowedPaths := excluded.shadowedPaths
    versionRaw := excluded.versionRaw
    versionMismatch := excluded.versionMismatch
    lastSeenSha := excluded.lastSeenSha
    lastSeenAt := excluded.lastSeenAt
    stateChangedSha := if changed then excluded.stateChangedSha else row.stateChangedSha
    stateChangedAt := if changed then excluded.stateChangedAt else row.stateChangedAt
    resurrectionCount := row.resurrectionCount + (if row.state = .retired then 1 else 0)
    state := excluded.state
    exclusionReason := excluded.exclusionReason
    retireReason := none
    retirePending := false
    retirePendingReason := none
    retirePendingAt := none
    retireBlockedBy := none
    removingCommitSha := none
    removingCommitDate := none
    removingCommitSubject := none
    successorNames := none
    successorSource := none
    needsRewrite := if excluded.state = .present then row.needsRewrite else false
    lastFullParseAt := if reparse then none else row.lastFullParseAt
    lastFullParseSha := if reparse then none else row.lastFullParseSha
    lastFullParseUnobserved := if reparse then [] else row.lastFullParseUnobserved
    lastFullParseEmbeddedAt := if reparse then none else row.lastFullParseEmbeddedAt
    lastFullParseRun := if reparse then none else row.lastFullParseRun
    updatedAt := excluded.updatedAt }

def commitObservedResult (ledger : LedgerTable) (repoId : Nat) (observed : List ObservedModule) :
    CommitObservedResult :=
  let before (module : ObservedModule) := ledger.rows.find? (hasKey repoId module.name)
  let names (test : ObservedModule → PresenceRow → Bool) : List String :=
    (observed.filter fun module => (before module).any (test module)).map (·.name)
  { inserted := (observed.filter fun module => (before module).isNone).map (·.name)
    resurrected := names fun _ row => row.state = .retired
    stateChanged := names fun module row =>
      row.state ≠ .retired ∧
        (row.state ≠ module.state.toState ∨ row.exclusionReason ≠ module.exclusionReason)
    pendingCleared := names fun _ row => row.retirePending }

/-- `(by_name[n] for n in sorted(by_name))`. -/
def inNameOrder (observed : List ObservedModule) : List ObservedModule :=
  observed.insertionSort fun first second => first.name ≤ second.name

@[simp] theorem mem_inNameOrder (observed : List ObservedModule) (module : ObservedModule) :
    module ∈ inNameOrder observed ↔ module ∈ observed :=
  List.mem_insertionSort _

def commitObserved (env : DbEnv) (ledger : LedgerTable) (repoId : Nat)
    (profileName odooVersion headSha : String) (observed : List ObservedModule)
    (observedAt : Option Timestamp) : Except StoreError (CommitObservedResult × LedgerTable) := do
  indexObserved [] observed
  if profileName = "" then .error .profileNameRequired
  else if observed.isEmpty then .ok (⟨[], [], [], []⟩, ledger)
  else do
    let now := observedAt.getD env.now
    holdVersions env (odooVersion :: repoVersions ledger repoId)
    let repo ← repoRow env repoId
    let values := inNameOrder observed
    let insert := observedInsert repo repoId profileName odooVersion headSha now
    return (commitObservedResult ledger repoId values,
      ledger.upsert (fun module row => hasKey repoId module.name row)
        (fun module row => observedUpdate (insert row.id module) row) insert values)

theorem indexObserved_nodup (observed : List ObservedModule) :
    ∀ seen, indexObserved seen observed = .ok () →
      (observed.map (·.name)).Nodup ∧ ∀ module ∈ observed, module.name ∉ seen := by
  induction observed with
  | nil => intro seen _; simp
  | cons module rest ih =>
      intro seen run
      unfold indexObserved at run
      by_cases again : module.name ∈ seen
      · rw [if_pos again] at run
        cases run
      · rw [if_neg again] at run
        obtain ⟨nodup, apart⟩ := ih (module.name :: seen) run
        refine ⟨?_, ?_⟩
        · rw [List.map_cons, List.nodup_cons]
          refine ⟨fun member => ?_, nodup⟩
          obtain ⟨other, otherIn, same⟩ := List.mem_map.mp member
          exact apart other otherIn (same ▸ List.mem_cons_self)
        · intro other member
          rcases List.mem_cons.mp member with rfl | inRest
          · exact again
          · exact fun old => apart other inRest (List.mem_cons_of_mem _ old)

theorem commitObserved_eq (env : DbEnv) (ledger : LedgerTable) (repoId : Nat)
    (profileName odooVersion headSha : String) (observed : List ObservedModule)
    (observedAt : Option Timestamp) (result : CommitObservedResult) (next : LedgerTable)
    (run : commitObserved env ledger repoId profileName odooVersion headSha observed
      observedAt = .ok (result, next)) :
    (observed.map (·.name)).Nodup ∧ ∃ repo now,
      next = ledger.upsert (fun module row => hasKey repoId module.name row)
        (fun module row => observedUpdate (observedInsert repo repoId profileName odooVersion
          headSha now row.id module) row)
        (observedInsert repo repoId profileName odooVersion headSha now)
        (inNameOrder observed) := by
  unfold commitObserved at run
  obtain ⟨_, indexed, run⟩ := (bind_eq_ok _ _ _).mp run
  refine ⟨(indexObserved_nodup observed [] indexed).1, ?_⟩
  by_cases named : profileName = ""
  · rw [if_pos named] at run
    cases run
  · rw [if_neg named] at run
    cases nothing : observed.isEmpty with
    | true =>
        simp only [nothing, if_true] at run
        cases run
        have empty : observed = [] := List.isEmpty_iff.mp nothing
        subst empty
        exact ⟨⟨0, "", "", "", none, none⟩, 0, Table.upsert_nil _ _ _ _⟩
    | false =>
        simp only [nothing, Bool.false_eq_true, if_false] at run
        obtain ⟨_, -, run⟩ := (bind_eq_ok _ _ _).mp run
        obtain ⟨repo, -, run⟩ := (bind_eq_ok _ _ _).mp run
        cases run
        exact ⟨repo, observedAt.getD env.now, rfl⟩

def addEvidence (evidence : RetireEvidence) (row : PresenceRow) : PresenceRow :=
  { row with
    removingCommitSha := evidence.sha.or row.removingCommitSha
    removingCommitDate := evidence.date.or row.removingCommitDate
    removingCommitSubject := evidence.subject.or row.removingCommitSubject }

def setSuccessor (successor : Successor) (row : PresenceRow) : PresenceRow :=
  { row with
    successorNames := some successor.names
    successorSource := some successor.source }

def writeEvidence (evidence : Option RetireEvidence) (successor : Option Successor)
    (row : PresenceRow) : PresenceRow :=
  let withEvidence := match evidence with
    | some found => addEvidence found row
    | none => row
  match successor with
  | some known => setSuccessor known withEvidence
  | none => withEvidence

/-- Two UPDATEs with one WHERE over columns neither of them writes. -/
def storeEvidence (guard : PresenceRow → Bool) (evidence : Option RetireEvidence)
    (successor : Option Successor) (ledger : LedgerTable) : LedgerTable :=
  ledger.updateWhere guard (writeEvidence evidence successor)

def flagPending (now : Timestamp) (reason : RetireReason) (blockedBy : Option String)
    (row : PresenceRow) : PresenceRow :=
  { row with
    retirePending := true
    retirePendingReason := some reason
    retirePendingAt := row.retirePendingAt.or (some now)
    retireBlockedBy := blockedBy
    updatedAt := now }

/-- `WHERE repo_id = … AND name = ANY(…) AND state <> 'retired'`. -/
def retirable (repoId : Nat) (names : List String) (row : PresenceRow) : Bool :=
  ofRepo repoId row && names.contains row.name && row.state != .retired

def markRetirePending (env : DbEnv) (ledger : LedgerTable) (repoId : Nat) (names : List String)
    (reason : String) (evidence : String → Option RetireEvidence)
    (successors : String → Option Successor) (blockedBy : Option String) :
    Except StoreError (List String × LedgerTable) :=
  match RetireReason.ofText reason with
  | none => .error (.reasonUnknown reason)
  | some known =>
      let wanted := sortedSet names
      if wanted.isEmpty then .ok ([], ledger)
      else do
        holdVersions env (repoVersions ledger repoId)
        let guard := retirable repoId wanted
        let flagged := ((ledger.rows.filter guard).map (·.name)).insertionSort (· ≤ ·)
        return (flagged, flagged.foldl
          (fun table name => storeEvidence (hasKey repoId name) (evidence name)
            (storableSuccessor env (successors name)) table)
          (ledger.updateWhere guard (flagPending env.now known blockedBy)))

def markRepoRemoved (env : DbEnv) (ledger : LedgerTable) (repoId : Nat) :
    Except StoreError (List (Nat × String × String) × LedgerTable) := do
  holdVersions env (repoVersions ledger repoId)
  let guard (row : PresenceRow) : Bool := ofRepo repoId row && row.state != .retired
  let flagged := (ledger.rows.filter guard).insertionSort fun first second =>
    first.odooVersion < second.odooVersion ∨
      (first.odooVersion = second.odooVersion ∧ first.name ≤ second.name)
  return (flagged.map fun row => (row.id, row.name, row.odooVersion),
    ledger.updateWhere guard fun row =>
      { flagPending env.now .repoRemoved none row with needsRewrite := false })

def retireRow (now : Timestamp) (reason : Option RetireReason) (headSha : Option String)
    (row : PresenceRow) : PresenceRow :=
  { row with
    state := .retired
    retireReason := some ((reason.or row.retirePendingReason).getD .absent)
    exclusionReason := none
    retirePending := false
    retirePendingReason := none
    retirePendingAt := none
    retireBlockedBy := none
    needsRewrite := false
    stateChangedSha := headSha
    stateChangedAt := some now
    updatedAt := now }

/-- An omitted reason, a known one, or `ValueError`. -/
def checkReason : Option String → Except StoreError (Option RetireReason)
  | none => .ok none
  | some text =>
      match RetireReason.ofText text with
      | none => .error (.reasonUnknown text)
      | some known => .ok (some known)

/-- The row `commit_retired` addresses: by `(repo_id, name)`, or by row id. -/
def retireTarget (ledger : LedgerTable) (repoId : Option Nat) (name : String)
    (rowId : Option Nat) : Except StoreError (Option PresenceRow) :=
  match repoId, rowId with
  | some repo, _ => .ok (ledger.rows.find? (hasKey repo name))
  | none, some row => .ok (ledger.rows.find? fun known => known.id == row && known.name == name)
  | none, none => .error .retiredNeedsIdentity

/-- `WHERE id = … AND state <> 'retired'`. -/
def liveWithId (id : Nat) (row : PresenceRow) : Bool :=
  row.id == id && row.state != .retired

def commitRetired (env : DbEnv) (ledger : LedgerTable) (repoId : Option Nat) (name : String)
    (reason : Option String) (evidence : Option RetireEvidence)
    (successor : Option Successor) (headSha : Option String) (rowId : Option Nat) :
    Except StoreError (Bool × LedgerTable) := do
  let known ← checkReason reason
  match ← retireTarget ledger repoId name rowId with
  | none => return (false, ledger)
  | some target =>
      holdVersions env [target.odooVersion]
      if ledger.rows.any (liveWithId target.id) then
        return (true, storeEvidence (fun row => row.id == target.id) evidence
          (storableSuccessor env successor)
          (ledger.updateWhere (liveWithId target.id) (retireRow env.now known headSha)))
      else return (false, ledger)

def orphanRow (repo : RepoRow) (env : DbEnv) (repoId : Nat) (name profileName odooVersion path
    manifestFile lastSeenSha : String) (lastSeenAt : Timestamp)
    (evidence : Option RetireEvidence) (successor : Option Successor)
    (headSha : Option String) (id : Nat) : PresenceRow :=
  { id
    repoId := some repoId
    repoUrl := repo.url
    repoBasename := repo.basename
    repoBranch := repo.branch
    profileName
    odooVersion
    name
    path
    manifestFile
    state := .retired
    retireReason := some .orphanSweep
    firstSeenSha := lastSeenSha
    firstSeenAt := lastSeenAt
    lastSeenSha
    lastSeenAt
    stateChangedSha := headSha
    stateChangedAt := some env.now
    removingCommitSha := evidence.bind (·.sha)
    removingCommitDate := evidence.bind (·.date)
    removingCommitSubject := evidence.bind (·.subject)
    successorNames := successor.map (·.names)
    successorSource := successor.map (·.source)
    updatedAt := env.now }

/-- `ON CONFLICT (repo_id, name) DO NOTHING`: an existing row is history. -/
def recordOrphanRetired (env : DbEnv) (ledger : LedgerTable) (repoId : Nat)
    (name profileName odooVersion path manifestFile lastSeenSha : String)
    (lastSeenAt : Timestamp) (evidence : Option RetireEvidence)
    (successor : Option Successor) (headSha : Option String) :
    Except StoreError (Bool × LedgerTable) :=
  if profileName = "" then .error .profileNameRequired
  else do
    holdVersions env [odooVersion]
    let repo ← repoRow env repoId
    return (!ledger.rows.any (hasKey repoId name),
      ledger.upsert (fun (_ : Unit) row => hasKey repoId name row) (fun _ row => row)
        (fun id _ => orphanRow repo env repoId name profileName odooVersion path manifestFile
          lastSeenSha lastSeenAt evidence (storableSuccessor env successor) headSha id)
        [()])

/-- `ON DELETE SET NULL` of the repository foreign key. -/
def repoDeleted (ledger : LedgerTable) (repoId : Nat) : LedgerTable :=
  ledger.updateWhere (ofRepo repoId) fun row => { row with repoId := none }

end OdooSemantic.Ledger.Store
