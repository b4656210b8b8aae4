import OdooSemantic.Reconcile.Stores
import OdooSemantic.Lifecycle.Gates

/-!
# The pending step of one reconcile pass

Each pending name is decided on its own: dropped when another repository still
ships it, kept while an unsynced repository may ship it, and otherwise handed
to the retire step.  Where a call of the pass raises is part of its input.
-/

set_option autoImplicit false

namespace OdooSemantic.Reconcile.Pending

open Lib Lib.Action Lib.Py
open Ledger.Rows Ledger.Store Ledger.Ownership
open Lifecycle.Gates Reconcile.Stores

structure Checkout where
  isDir : Bool
  repoVersion : Option String
  tracked : Option (String → List String)
  headTree : Option (List String)

inductive LedgerWrite where
  | block (name : String)
  | rewrite (repoId : Nat) (name : String)
  | retired (rowId : Nat)

/-- Where the calls of one pass raise. -/
structure Faults where
  reads : Option String
  retire : List (Raised RetirePoint String)
  drop : String → List (Raised DropPoint String)
  embeddings : String → List (Raised EmbeddingPoint String)
  ledger : LedgerWrite → Option String

def noFaults : Faults :=
  { reads := none
    retire := []
    drop := fun _ => []
    embeddings := fun _ => []
    ledger := fun _ => none }

structure PassInput where
  odooVersion : String
  runStartedAt : Timestamp
  retire : Bool
  dryRun : Bool
  onlyNames : Option (List String)
  db : DbEnv
  registry : List Repo
  checkout : Nat → Checkout
  observedHeads : Nat → Option String
  storeErrorText : StoreError → String
  faults : Faults

def PassInput.execute (input : PassInput) : Bool :=
  input.retire && !input.dryRun

def retryAttempts : Nat := 3

structure Report where
  retired : List String := []
  ownerDropped : List String := []
  undecidable : List (String × List String) := []
  blocked : List (String × String) := []
  skippedRecent : List String := []
  errors : List (String × String) := []
  ownersKept : List (String × List String) := []
  attention : List (Nat × String) := []

/-- What one `PotentialOwners` instance has read, by repository. -/
abbrev TrackedCache := List (Nat × Option (List String))

structure Pass where
  world : World
  tracked : TrackedCache
  toRetire : List (String × List PresenceRow)
  report : Report

def Pass.start (world : World) : Pass :=
  { world, tracked := [], toRetire := [], report := {} }

def onWorld {Out : Type} (action : Action World String Out) : Action Pass String Out :=
  fun pass =>
    let (result, world) := action pass.world
    (result, { pass with world })

def note (change : Report → Report) : Action Pass String Unit :=
  update fun pass => { pass with report := change pass.report }

def attend (rows : List PresenceRow) (text : String) : Action Pass String Unit :=
  note fun report =>
    { report with
      attention := report.attention ++
        (rows.filterMap (·.repoId)).map fun repoId => (repoId, text) }

def writeLedger (input : PassInput) (call : LedgerWrite)
    (write : LedgerTable → Except StoreError LedgerTable) : Action Pass String Unit :=
  match input.faults.ledger call with
  | some message => raise message
  | none => onWorld (commit fun world =>
      match write world.ledger with
      | .ok ledger => .ok { world with ledger }
      | .error error => .error (input.storeErrorText error))

def repoLabel (basename : String) (repoId : Option Nat) : String :=
  (if basename = "" then "?" else basename) ++ " (repo id=" ++
    (match repoId with
      | some id => toString id
      | none => "None") ++ ")"

/-- `_tracked_module_names`: none when git tracking is unavailable. -/
def trackedModuleNames (checkout : Checkout) (odooVersion : String) : Option (List String) :=
  checkout.tracked.map fun names =>
    if checkout.repoVersion.any (· ≠ odooVersion) then []
    else names (checkout.repoVersion.getD odooVersion)

def readTracked (input : PassInput) (cache : TrackedCache) (repo : Repo) :
    Option (List String) × TrackedCache :=
  match cache.lookup repo.id with
  | some known => (known, cache)
  | none =>
      let names := trackedModuleNames (input.checkout repo.id) input.odooVersion
      (names, (repo.id, names) :: cache)

def verdict (name : String) : Option (List String) → Option PotentialOwnerWhy
  | none => some .checkoutUnreadable
  | some names => if names.contains name then some .shipsName else none

def hasCheckout (input : PassInput) (repo : Repo) : Bool :=
  repo.localPath != "" && (input.checkout repo.id).isDir

def checkoutVerdict (input : PassInput) (name : String) (cache : TrackedCache) (repo : Repo) :
    Option PotentialOwnerWhy × TrackedCache :=
  if hasCheckout input repo then
    let (names, cache) := readTracked input cache repo
    (verdict name names, cache)
  else (none, cache)

/-- `PotentialOwners.blockers` over the candidates, in order. -/
def blockersAmong (input : PassInput) (name : String) (excluded : List Nat) :
    List (Repo × PotentialOwnerWhy) → TrackedCache →
      List (Repo × PotentialOwnerWhy) × TrackedCache
  | [], cache => ([], cache)
  | (repo, why) :: rest, cache =>
      if excluded.contains repo.id then blockersAmong input name excluded rest cache
      else if why ≠ .neverSynced then
        let (others, cache) := blockersAmong input name excluded rest cache
        ((repo, why) :: others, cache)
      else
        let (found, cache) := checkoutVerdict input name cache repo
        let (others, cache) := blockersAmong input name excluded rest cache
        ((found.map fun why => (repo, why)).toList ++ others, cache)

def blockers (input : PassInput) (ledger : LedgerTable) (name : String) (excluded : List Nat)
    (cache : TrackedCache) : List (Repo × PotentialOwnerWhy) × TrackedCache :=
  blockersAmong input name excluded
    (potentialOwnersUnsynced input.registry ledger name input.odooVersion) cache

def block (input : PassInput) (name : String) (rows : List PresenceRow) (reason : String) :
    Action Pass String Unit :=
  if input.execute then
    writeLedger input (.block name) fun ledger =>
      markRetireBlocked input.db ledger (rows.map (·.id)) (some reason)
  else done ()

/-- `_error`: the row stays pending with the error as its block. -/
def recordError (input : PassInput) (name : String) (rows : List PresenceRow)
    (message : String) : Action Pass String Unit :=
  let text := blockedErrorPrefix ++ " " ++ name ++ "@" ++ input.odooVersion ++
    " not retired (" ++ message ++ ")"
  andThen (note fun report => { report with errors := report.errors ++ [(name, message)] })
    fun _ =>
  andThen (recover (block input name rows text) fun _ => done ()) fun _ =>
  attend rows text

def repoHead (input : PassInput) (ledger : LedgerTable) (repoId : Option Nat) : Option String :=
  repoId.bind fun id =>
    (input.observedHeads id).or
      (((repoSyncState input.registry ledger input.odooVersion).find? fun repo =>
        repo.id == id).bind (·.headSha))

def commitRetiredRows (input : PassInput) (rows : List PresenceRow) : Action Pass String Unit :=
  forEach (fun row => writeLedger input (.retired row.id) fun ledger =>
    (commitRetired input.db ledger row.repoId row.name none none none
      (repoHead input ledger row.repoId) (if row.repoId.isNone then some row.id else none)).map
        (·.2)) rows

def deleteModuleEmbeddings (input : PassInput) (name : String) (profiles : List String) :
    Action Pass String Unit :=
  onWorld (retrying (deleteEmbeddings input.odooVersion name profiles) retryAttempts
    (input.faults.embeddings name))

def moduleOwner (row : PresenceRow) : ModuleOwner :=
  { profileName := row.profileName
    repoBasename := row.repoBasename
    path := row.path
    repoId := row.repoId
    repoUrl := row.repoUrl }

def goneProfiles (rows owners : List PresenceRow) : List String :=
  (rows.map (·.profileName)).filter fun profile =>
    !(owners.map (·.profileName)).contains profile

/-- `_drop_owner`: the node survives with the present owners. -/
def dropOwner (input : PassInput) (name : String) (rows owners : List PresenceRow) :
    Action Pass String Unit :=
  let kept := sortedSet (owners.map fun owner => repoLabel owner.repoBasename owner.repoId)
  let dropped := note fun report =>
    { report with ownerDropped := report.ownerDropped ++ [name] }
  andThen (note fun report => { report with ownersKept := report.ownersKept ++ [(name, kept)] })
    fun _ =>
  if !input.execute then dropped
  else recover
    (andThen (onWorld (retrying
      (dropModuleOwner input.odooVersion name (owners.map moduleOwner)) retryAttempts
      (input.faults.drop name))) fun _ =>
    andThen (deleteModuleEmbeddings input name (goneProfiles rows owners)) fun _ =>
    andThen (forEach (fun repoId => writeLedger input (.rewrite repoId name) fun ledger =>
      markNeedsRewrite input.db ledger repoId name) (owners.filterMap (·.repoId)).dedup) fun _ =>
    andThen (commitRetiredRows input rows) fun _ => dropped)
    (recordError input name rows)

def holdUndecidable (input : PassInput) (name : String) (rows : List PresenceRow)
    (blocking : List (Repo × PotentialOwnerWhy)) : Action Pass String Unit :=
  let labels := blocking.map fun (repo, why) =>
    repoLabel repo.basename (some repo.id) ++ " [" ++ why.text ++ "]"
  let text := blockedUndecidablePrefix ++ " " ++ name ++ "@" ++ input.odooVersion ++
    " kept: repo(s) " ++ join ", " labels ++ " not synced"
  andThen (note fun report =>
    { report with undecidable := report.undecidable ++ [(name, labels)] }) fun _ =>
  andThen (block input name rows text) fun _ => attend rows text

def ownersOutside (input : PassInput) (ledger : LedgerTable) (name : String)
    (retiringIds : List Nat) : List PresenceRow :=
  (otherPresentOwners ledger name input.odooVersion).filter fun owner =>
    !owner.repoId.any retiringIds.contains

def decideName (input : PassInput) (name : String) (rows : List PresenceRow) :
    Action Pass String Unit :=
  let eligible := rows.filter fun row => reconcileMayRetry row.retireBlockedBy
  let held := sortedSet
    ((rows.filter fun row => !reconcileMayRetry row.retireBlockedBy).filterMap
      (·.retireBlockedBy))
  let blockedAs (reason : String) : Action Pass String Unit :=
    note fun report => { report with blocked := report.blocked ++ [(name, reason)] }
  andThen (if held.isEmpty then done () else blockedAs (join ", " held)) fun _ =>
  if eligible.isEmpty then done ()
  else if !input.retire then
    if held.isEmpty then blockedAs blockedNoRetire else done ()
  else reading fun pass =>
    let retiringIds := eligible.filterMap (·.repoId)
    let owners := ownersOutside input pass.world.ledger name retiringIds
    let (blocking, tracked) := blockers input pass.world.ledger name
      (retiringIds ++ owners.filterMap (·.repoId)) pass.tracked
    andThen (update fun pass => { pass with tracked }) fun _ =>
    if !owners.isEmpty && blocking.isEmpty then dropOwner input name eligible owners
    else if !blocking.isEmpty then holdUndecidable input name eligible blocking
    else update fun pass => { pass with toRetire := pass.toRetire ++ [(name, eligible)] }

def settleName (input : PassInput) (profilesBefore : String → List String)
    (skipped : List String) (name : String) (rows : List PresenceRow) :
    Action Pass String Unit :=
  if skipped.contains name then
    andThen (note fun report =>
      { report with skippedRecent := report.skippedRecent ++ [name] }) fun _ =>
    block input name rows blockedSkippedRecent
  else recover
    (andThen (deleteModuleEmbeddings input name
      (profilesBefore name ++ rows.map (·.profileName))) fun _ =>
    andThen (commitRetiredRows input rows) fun _ =>
    note fun report => { report with retired := report.retired ++ [name] })
    (recordError input name rows)

/-- The graph half of `_retire`: none when it failed for all names. -/
def retireGraph (input : PassInput) (toRetire : List (String × List PresenceRow)) :
    Action Pass String (Option (List String)) :=
  recover
    (andThen
      (match input.faults.reads with
        | some message => raise message
        | none => onWorld (retrying
            (retireModules input.odooVersion (toRetire.map (·.1)) input.runStartedAt)
            retryAttempts input.faults.retire))
      fun skipped => done (some skipped))
    fun message => andThen (forEach (fun (name, rows) => recordError input name rows message)
      toRetire) fun _ => done none

/-- `_retire`.  The names arrive sorted. -/
def retire (input : PassInput) (toRetire : List (String × List PresenceRow)) :
    Action Pass String Unit :=
  if !input.execute then
    note fun report => { report with retired := report.retired ++ toRetire.map (·.1) }
  else reading fun pass =>
    let profilesBefore := moduleProfiles pass.world input.odooVersion
    andThen (retireGraph input toRetire) fun
      | none => done ()
      | some skipped => forEach (fun (name, rows) =>
          settleName input profilesBefore skipped name rows) toRetire

def consideredRows (input : PassInput) (ledger : LedgerTable) : List PresenceRow :=
  (pendingRetirements ledger input.odooVersion).filter fun row =>
    input.onlyNames.all fun names => names.contains row.name

def rowsOf (rows : List PresenceRow) (name : String) : List PresenceRow :=
  rows.filter (·.name == name)

def decideAll (input : PassInput) (rows : List PresenceRow) : Action Pass String Unit :=
  forEach (fun name => decideName input name (rowsOf rows name))
    (sortedSet (rows.map (·.name)))

def pending (input : PassInput) : Action Pass String Unit :=
  reading fun pass =>
    andThen (decideAll input (consideredRows input pass.world.ledger)) fun _ =>
    reading fun pass =>
      if pass.toRetire.isEmpty then done () else retire input pass.toRetire

def reconcilePass (world : World) (input : PassInput) : World :=
  (pending input (Pass.start world)).2.world

end OdooSemantic.Reconcile.Pending
