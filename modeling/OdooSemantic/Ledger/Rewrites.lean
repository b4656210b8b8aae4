import OdooSemantic.Ledger.Store

/-!
# The rewrite flags and the pending rewrites

A dependency propagation flags the rows of the dependent modules, and leaves a
pending entry for a module whose repository has no present row of it yet.  An
index run reads its flags with the database clock, clears the ones set before
that read and applies its pending entries at its ledger commit.
-/

set_option autoImplicit false

namespace OdooSemantic.Ledger.Rewrites

open Lib Lib.Py
open Ledger.Rows Ledger.Store

/-- A row of `module_presence_pending_rewrite`, keyed by its first three columns. -/
structure PendingRewrite where
  odooVersion : String
  repoId : Nat
  name : String
  flaggedAt : Timestamp
  deriving DecidableEq

structure RewriteTables where
  ledger : LedgerTable
  pending : List PendingRewrite

/-- `interval '30 days'` in microseconds. -/
def pendingRetention : Timestamp := 30 * 24 * 60 * 60 * 1000000

def sameEntry (first second : PendingRewrite) : Bool :=
  first.odooVersion == second.odooVersion && first.repoId == second.repoId &&
    first.name == second.name

/-- `ON CONFLICT (odoo_version, repo_id, name) DO UPDATE SET flagged_at`. -/
def putEntry (pending : List PendingRewrite) (entry : PendingRewrite) : List PendingRewrite :=
  if pending.any (sameEntry entry) then
    pending.map fun known =>
      if sameEntry entry known then { known with flaggedAt := entry.flaggedAt } else known
  else pending ++ [entry]

/-- The rows `_FLAG_DEPENDENTS_SQL` updates. -/
def flaggable (odooVersion : String) (names : List String) (excluded : List Nat)
    (row : PresenceRow) : Bool :=
  row.odooVersion == odooVersion && names.contains row.name && row.state == .present &&
    row.repoId.any fun repoId => !excluded.contains repoId

def flagRewrite (env : DbEnv) (row : PresenceRow) : PresenceRow :=
  { row with
    needsRewrite := true
    needsRewriteAt := if env.stampsOk then some env.clock else row.needsRewriteAt
    updatedAt := env.now }

/-- `NOT EXISTS` a present row of the name in the repository, at any version. -/
def lacksPresentRow (ledger : LedgerTable) (repoId : Nat) (name : String) : Bool :=
  !ledger.rows.any fun row => hasKey repoId name row && row.state == .present

def ownersNamed (ledger : LedgerTable) (odooVersion basename : String) : List Nat :=
  ((ledger.rows.filter fun row =>
    row.odooVersion == odooVersion && row.repoBasename == basename).filterMap (·.repoId)).dedup

/-- The entries `_PENDING_INSERT_SQL` writes. -/
def pendingTargets (env : DbEnv) (ledger : LedgerTable) (odooVersion : String)
    (pairs : List (String × String)) (excluded : List Nat) : List PendingRewrite :=
  (pairs.flatMap fun (basename, name) =>
    ((ownersNamed ledger odooVersion basename).filter fun repoId =>
      !excluded.contains repoId && lacksPresentRow ledger repoId name).map
        fun repoId => { odooVersion, repoId, name, flaggedAt := env.clock }).dedup

def flagDependents (env : DbEnv) (tables : RewriteTables) (odooVersion : String)
    (names : List String) (pending : List (String × String)) (excludeRepoIds : List Nat) :
    Except StoreError ((List (Nat × String) × Nat) × RewriteTables) :=
  let wanted := sortedSet names
  let pairs := (pending.filter fun (basename, name) => basename ≠ "" ∧ name ≠ "").dedup
  if wanted.isEmpty && pairs.isEmpty then .ok (([], 0), tables)
  else do
    holdVersions env [odooVersion]
    let guard := flaggable odooVersion wanted excludeRepoIds
    let flagged := (tables.ledger.rows.filter guard).filterMap fun row =>
      row.repoId.map fun repoId => (repoId, row.name)
    let ledger := tables.ledger.updateWhere guard (flagRewrite env)
    if env.stampsOk && !pairs.isEmpty then
      let targets := pendingTargets env ledger odooVersion pairs excludeRepoIds
      let recent := tables.pending.filter fun entry =>
        !(entry.flaggedAt + pendingRetention < env.now)
      return ((flagged, targets.length), ⟨ledger, targets.foldl putEntry recent⟩)
    else return ((flagged, 0), { tables with ledger })

def needsRewriteNames (ledger : LedgerTable) (repoId : Nat) : List String :=
  ((ledger.rows.filter fun row => ofRepo repoId row && row.needsRewrite).map
    (·.name)).insertionSort (· ≤ ·)

/-- The flagged names and the clock of the read; before migration 0007 no clock.
The version locks are taken only when there are names to clear later. -/
def needsRewriteSnapshot (env : DbEnv) (ledger : LedgerTable) (repoId : Nat)
    (odooVersions : List String) : Except StoreError (List String × Option Timestamp) :=
  let names := needsRewriteNames ledger repoId
  if !env.stampsOk then .ok (names, none)
  else if names.isEmpty then .ok ([], some env.clock)
  else do
    holdVersions env (repoVersions ledger repoId ++ odooVersions)
    return (names, some env.clock)

def clearable (repoId : Nat) (names : List String) (readAt : Option Timestamp)
    (row : PresenceRow) : Bool :=
  ofRepo repoId row && names.contains row.name && row.needsRewrite &&
    (match readAt, row.needsRewriteAt with
      | some read, some stamp => stamp ≤ read
      | _, _ => true)

def clearNeedsRewrite (env : DbEnv) (ledger : LedgerTable) (repoId : Nat)
    (names : List String) (readAt : Option Timestamp) :
    Except StoreError (Nat × LedgerTable) :=
  let wanted := sortedSet names
  if wanted.isEmpty then .ok (0, ledger)
  else do
    holdVersions env (repoVersions ledger repoId)
    let guard := clearable repoId wanted (if env.stampsOk then readAt else none)
    return ((ledger.rows.filter guard).length, ledger.updateWhere guard fun row =>
      { row with
        needsRewrite := false
        needsRewriteAt := if env.stampsOk then none else row.needsRewriteAt
        updatedAt := env.now })

/-- SQL `GREATEST`, which ignores a NULL. -/
def greatest (stamp : Option Timestamp) (flaggedAt : Timestamp) : Timestamp :=
  match stamp with
  | some known => max known flaggedAt
  | none => flaggedAt

/-- The entry of `hits` that flags the row. -/
def appliedEntry (hits : List PendingRewrite) (odooVersion : String) (repoId : Nat)
    (written : List String) (readAt : Timestamp) (row : PresenceRow) :
    Option PendingRewrite :=
  hits.find? fun hit =>
    hasKey repoId hit.name row && row.odooVersion == odooVersion && row.state == .present &&
      (readAt < hit.flaggedAt || !written.contains hit.name)

def applyEntry (env : DbEnv) (hit : PendingRewrite) (row : PresenceRow) : PresenceRow :=
  { row with
    needsRewrite := true
    needsRewriteAt := some (greatest row.needsRewriteAt hit.flaggedAt)
    updatedAt := env.now }

def applyHits (env : DbEnv) (hits : List PendingRewrite) (odooVersion : String)
    (repoId : Nat) (written : List String) (readAt : Timestamp) (row : PresenceRow) :
    PresenceRow :=
  match appliedEntry hits odooVersion repoId written readAt row with
  | some hit => applyEntry env hit row
  | none => row

def consumed (odooVersion : String) (repoId : Nat) (names : List String)
    (entry : PendingRewrite) : Bool :=
  entry.odooVersion == odooVersion && entry.repoId == repoId && names.contains entry.name

def applyPendingRewrites (env : DbEnv) (tables : RewriteTables) (repoId : Nat)
    (odooVersion : String) (names written : List String) (readAt : Option Timestamp) :
    Except StoreError (List String × RewriteTables) :=
  let wanted := sortedSet names
  match readAt with
  | none => .ok ([], tables)
  | some read =>
      if wanted.isEmpty || !env.stampsOk then .ok ([], tables)
      else do
        holdVersions env [odooVersion]
        let hits := tables.pending.filter (consumed odooVersion repoId wanted)
        let applied := appliedEntry hits odooVersion repoId written read
        let rows := tables.ledger.rows.map
          (applyHits env hits odooVersion repoId written read)
        let names := ((tables.ledger.rows.filter fun row => (applied row).isSome).map
          (·.name)).insertionSort (· ≤ ·)
        return (names,
          { ledger := { tables.ledger with rows }
            pending := tables.pending.filter fun entry =>
              !consumed odooVersion repoId wanted entry })

end OdooSemantic.Ledger.Rewrites
