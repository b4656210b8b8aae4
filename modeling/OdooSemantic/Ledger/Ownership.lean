import OdooSemantic.Ledger.Store

/-!
# Ledger reads and writes of the reconcile

Who owns a name at a version: the pending rows, the present owners, the
unsynced repositories that might still ship it, and the sync state of every
registered repository.  The two writes record why a row stays pending and send
a surviving owner back to rewrite a module.
-/

set_option autoImplicit false

namespace OdooSemantic.Ledger.Ownership

open Lib Lib.Py
open Ledger.Rows Ledger.Store

/-- A `repos` row joined with the profile it belongs to. -/
structure Repo extends RepoRow where
  profileName : String
  profileVersion : String
  deriving DecidableEq

/-- `presence_head_sha` equals `head_sha`, both recorded. -/
def Repo.synced (repo : Repo) : Bool :=
  repo.presenceHeadSha.isSome && repo.presenceHeadSha == repo.headSha

/-- `mp.repo_id = r.id AND mp.odoo_version = …`. -/
def hasRowAt (ledger : LedgerTable) (repoId : Nat) (odooVersion : String) : Bool :=
  ledger.rows.any fun row => ofRepo repoId row && row.odooVersion == odooVersion

def Repo.atVersion (ledger : LedgerTable) (odooVersion : String) (repo : Repo) : Bool :=
  repo.profileVersion == odooVersion || hasRowAt ledger repo.id odooVersion

def byBasename (first second : PresenceRow) : Bool :=
  first.repoBasename < second.repoBasename ||
    (first.repoBasename == second.repoBasename && first.id ≤ second.id)

def pendingRetirements (ledger : LedgerTable) (odooVersion : String) : List PresenceRow :=
  (ledger.rows.filter fun row => row.odooVersion == odooVersion && row.retirePending
    ).insertionSort fun first second => byBasename first second = true

/-- A `present` row of a live repository for the name. -/
def presentOwner (name odooVersion : String) (row : PresenceRow) : Bool :=
  row.name == name && row.odooVersion == odooVersion && row.state == .present &&
    row.repoId.isSome

def byRepoId (first second : PresenceRow) : Bool :=
  first.repoId.getD 0 ≤ second.repoId.getD 0

def otherPresentOwners (ledger : LedgerTable) (name odooVersion : String) :
    List PresenceRow :=
  (ledger.rows.filter (presentOwner name odooVersion)).insertionSort
    fun first second => byRepoId first second = true

inductive PotentialOwnerWhy where
  | hadName
  | neverSynced
  | shipsName
  | checkoutUnreadable
  deriving DecidableEq

/-- `POTENTIAL_OWNER_*` as the code spells them. -/
def PotentialOwnerWhy.text : PotentialOwnerWhy → String
  | .hadName => "had_name"
  | .neverSynced => "never_synced"
  | .shipsName => "ships_name"
  | .checkoutUnreadable => "checkout_unreadable"

def lastHadName (ledger : LedgerTable) (name odooVersion : String) (repo : Repo) : Bool :=
  ledger.rows.any fun row => hasKey repo.id name row && row.odooVersion == odooVersion &&
    (row.state == .present || row.state == .excluded)

def neverObserved (ledger : LedgerTable) (repo : Repo) : Bool :=
  repo.presenceHeadSha.isNone && !ledger.rows.any (ofRepo repo.id)

def potentialOwner (ledger : LedgerTable) (name odooVersion : String) (repo : Repo) :
    Option PotentialOwnerWhy :=
  if repo.atVersion ledger odooVersion && !repo.synced then
    if lastHadName ledger name odooVersion repo then some .hadName
    else if neverObserved ledger repo then some .neverSynced
    else none
  else none

def byId (first second : Repo) : Bool :=
  first.id ≤ second.id

def potentialOwnersUnsynced (registry : List Repo) (ledger : LedgerTable)
    (name odooVersion : String) : List (Repo × PotentialOwnerWhy) :=
  (registry.insertionSort fun first second => byId first second = true).filterMap fun repo =>
    (potentialOwner ledger name odooVersion repo).map fun why => (repo, why)

theorem mem_potentialOwnersUnsynced (registry : List Repo) (ledger : LedgerTable)
    (name odooVersion : String) (repo : Repo) (why : PotentialOwnerWhy) :
    (repo, why) ∈ potentialOwnersUnsynced registry ledger name odooVersion ↔
      repo ∈ registry ∧ potentialOwner ledger name odooVersion repo = some why := by
  simp only [potentialOwnersUnsynced, List.mem_filterMap, List.mem_insertionSort,
    Option.map_eq_some_iff, Prod.mk.injEq]
  constructor
  · rintro ⟨known, knownIn, found, isWhy, rfl, rfl⟩
    exact ⟨knownIn, isWhy⟩
  · rintro ⟨repoIn, isWhy⟩
    exact ⟨repo, repoIn, why, isWhy, rfl, rfl⟩

def byProfile (first second : Repo) : Bool :=
  first.profileName < second.profileName ||
    (first.profileName == second.profileName && first.id ≤ second.id)

def repoSyncState (registry : List Repo) (ledger : LedgerTable) (odooVersion : String) :
    List Repo :=
  (registry.filter (Repo.atVersion ledger odooVersion)).insertionSort
    fun first second => byProfile first second = true

def presentNames (ledger : LedgerTable) (odooVersion : String) : List String :=
  ((ledger.rows.filter fun row =>
    row.odooVersion == odooVersion && row.state == .present).map (·.name)).dedup

/-- An `excluded` row for one of the reasons. -/
def excludedFor (odooVersion : String) (reasons : List ExclusionReason)
    (row : PresenceRow) : Bool :=
  row.odooVersion == odooVersion && row.state == .excluded &&
    row.exclusionReason.any reasons.contains

def excludedNames (ledger : LedgerTable) (odooVersion : String)
    (reasons : List ExclusionReason) : List String :=
  ((ledger.rows.filter (excludedFor odooVersion reasons)).map (·.name)).dedup

def presentPairs (ledger : LedgerTable) (odooVersion : String) : List (String × String) :=
  ((ledger.rows.filter fun row =>
    row.odooVersion == odooVersion && row.state == .present).map fun row =>
      (row.name, row.profileName)).dedup

def markRetireBlocked (env : DbEnv) (ledger : LedgerTable) (rowIds : List Nat)
    (blockedBy : Option String) : Except StoreError LedgerTable :=
  if rowIds.isEmpty then .ok ledger
  else do
    holdVersions env
      ((ledger.rows.filter fun row => rowIds.contains row.id).map (·.odooVersion))
    return ledger.updateWhere (fun row => rowIds.contains row.id && row.retirePending)
      fun row => { row with retireBlockedBy := blockedBy, updatedAt := env.now }

/-- Only `present` rows. -/
def markNeedsRewrite (env : DbEnv) (ledger : LedgerTable) (repoId : Nat) (name : String) :
    Except StoreError LedgerTable := do
  holdVersions env (repoVersions ledger repoId)
  return ledger.updateWhere (fun row => hasKey repoId name row && row.state == .present)
    fun row =>
      { row with
        needsRewrite := true
        needsRewriteAt := if env.stampsOk then some env.clock else row.needsRewriteAt
        updatedAt := env.now }

end OdooSemantic.Ledger.Ownership
