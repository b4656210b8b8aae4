import OdooSemantic.Lib.Run
import OdooSemantic.Ledger.Store

/-!
# Complete-parse records of the ledger

A row carries the record of the last complete parse of its copy.  Shared modules are pruned
on these records, so a record has to be of a parse of the path and version the row has.
-/

set_option autoImplicit false

namespace OdooSemantic.Ledger.FullParses

open Lib Lib.Py Lib.Run
open Ledger.Rows Ledger.Store

/-- The `last_full_parse_*` columns. -/
structure FullParse where
  at' : Option Timestamp
  sha : Option String
  unobserved : List String
  embeddedAt : Option Timestamp
  run : Option String
  deriving DecidableEq

/-- No record. -/
def FullParse.empty : FullParse := ⟨none, none, [], none, none⟩

def fullParse (row : PresenceRow) : FullParse :=
  { at' := row.lastFullParseAt
    sha := row.lastFullParseSha
    unobserved := row.lastFullParseUnobserved
    embeddedAt := row.lastFullParseEmbeddedAt
    run := row.lastFullParseRun }

def setFullParse (now : Timestamp) (parse : FullParse) (row : PresenceRow) : PresenceRow :=
  { row with
    lastFullParseAt := parse.at'
    lastFullParseSha := parse.sha
    lastFullParseUnobserved := parse.unobserved
    lastFullParseEmbeddedAt := parse.embeddedAt
    lastFullParseRun := parse.run
    updatedAt := now }

/-- The `CASE` of an array that went through `",".join` and `string_to_array`. -/
def storedLabels (unobserved : List String) : List String :=
  let text := join "," (sortedSet unobserved)
  if text = "" then [] else text.splitOn ","

/-- The arguments of `record_full_parses`; `parsedAt` is missing without a timezone. -/
structure Recording where
  repoId : Nat
  odooVersion : String
  parses : List (String × List String)
  parsedAt : Option Timestamp
  headSha : Option String
  embedded : List String
  embeddedAt : Option Timestamp
  runToken : Option String
  distinct : (parses.map Prod.fst).Nodup

/-- The rows `record_full_parses` updates. -/
def Recording.selects (recording : Recording) (row : PresenceRow) : Bool :=
  row.repoId == some recording.repoId && row.odooVersion == recording.odooVersion &&
    row.state == .present && recording.parses.any (·.1 == row.name)

def Recording.parse (recording : Recording) (name : String) : FullParse :=
  { at' := recording.parsedAt
    sha := recording.headSha
    unobserved := match recording.parses.find? (·.1 == name) with
      | some parse => storedLabels parse.2
      | none => []
    embeddedAt := if recording.embedded.contains name then recording.embeddedAt else none
    run := recording.runToken }

/-- `record_full_parses`; `none` is the `ValueError`. -/
def recordFullParses (env : DbEnv) (ledger : LedgerTable) (recording : Recording) :
    Option (Nat × LedgerTable) :=
  if recording.parsedAt.isNone then none
  else if recording.parses.isEmpty then some (0, ledger)
  else
    some (ledger.rows.countP recording.selects, ledger.updateWhere recording.selects fun row =>
      setFullParse env.now (recording.parse row.name) row)

/-- The rows `clear_full_parses` updates. -/
def forgets (repoId : Nat) (odooVersion : String) (names : List String) (row : PresenceRow) :
    Bool :=
  row.repoId == some repoId && row.odooVersion == odooVersion && names.contains row.name &&
    row.lastFullParseAt.isSome

def clearFullParses (env : DbEnv) (ledger : LedgerTable) (repoId : Nat) (odooVersion : String)
    (names : List String) : Nat × LedgerTable :=
  if names.isEmpty then (0, ledger)
  else (ledger.rows.countP (forgets repoId odooVersion names),
    ledger.updateWhere (forgets repoId odooVersion names) (setFullParse env.now .empty))

inductive ParseCall where
  | commitObserved (env : DbEnv) (repoId : Nat) (profileName odooVersion headSha : String)
      (observed : List ObservedModule) (observedAt : Option Timestamp)
  | recordFullParses (env : DbEnv) (recording : Recording)
  | clearFullParses (env : DbEnv) (repoId : Nat) (odooVersion : String) (names : List String)

def ParseCall.perform (ledger : LedgerTable) : ParseCall → Option LedgerTable
  | .commitObserved env repoId profileName odooVersion headSha observed observedAt =>
      match Store.commitObserved env ledger repoId profileName odooVersion headSha observed
          observedAt with
      | .ok done => some done.2
      | .error _ => none
  | .recordFullParses env recording =>
      (FullParses.recordFullParses env ledger recording).map Prod.snd
  | .clearFullParses env repoId odooVersion names =>
      some (FullParses.clearFullParses env ledger repoId odooVersion names).2

def parseStep (ledger : LedgerTable) (call : ParseCall) : LedgerTable :=
  (call.perform ledger).getD ledger

def ledgerAfter (calls : List ParseCall) : LedgerTable := run parseStep Table.empty calls

/-- A row of `shared_module_owners` at the version. -/
def ownerAt (odooVersion : String) (row : PresenceRow) : Bool :=
  row.odooVersion == odooVersion && row.state == .present && row.repoId.isSome

def isShared (ledger : LedgerTable) (odooVersion name : String) : Bool :=
  decide (1 < ((ledger.rows.filter fun row => ownerAt odooVersion row && row.name == name).map
    (·.repoId)).dedup.length)

def sharedModuleOwners (ledger : LedgerTable) (odooVersion : String) :
    List (String × List PresenceRow) :=
  let owners := ledger.rows.filter (ownerAt odooVersion)
  ((sortedSet (owners.map (·.name))).filter (isShared ledger odooVersion)).map fun name =>
    (name, sortedBy (·.repoId.getD 0) (owners.filter (·.name == name)))

/-- The names `prune_shared` goes on with: each owner has a record and waits for nothing. -/
def pruneCandidates (ledger : LedgerTable) (odooVersion : String) :
    List (String × List PresenceRow) :=
  (sharedModuleOwners ledger odooVersion).filter fun shared => !shared.2.any fun row =>
    row.retirePending || row.needsRewrite || row.lastFullParseAt.isNone

def Carries (row : PresenceRow) : Prop := fullParse row ≠ .empty

instance (row : PresenceRow) : Decidable (Carries row) :=
  inferInstanceAs (Decidable (¬ fullParse row = .empty))

def Records (id : Nat) (ledger : LedgerTable) (call : ParseCall) : Prop :=
  match call with
  | .recordFullParses _ recording =>
      ∃ row ∈ ledger.rows, row.id = id ∧ recording.selects row = true
  | _ => False

def PresentAs (row : PresenceRow) (ledger : LedgerTable) : Prop :=
  ∃ current ∈ ledger.rows, current.id = row.id ∧ current.state = .present ∧
    current.path = row.path ∧ current.odooVersion = row.odooVersion ∧
      fullParse current = fullParse row

def RecordedHere (calls : List ParseCall) (row : PresenceRow) : Prop :=
  HeldSince parseStep Table.empty (Records row.id) (PresentAs row) calls

def RecordsCurrent (calls : List ParseCall) : Prop :=
  ∀ row ∈ (ledgerAfter calls).rows, Carries row → RecordedHere calls row

/-- The shared modules are pruned on records of their copies at the version. -/
def EvidenceCurrent (calls : List ParseCall) : Prop :=
  ∀ odooVersion name owners, (name, owners) ∈ pruneCandidates (ledgerAfter calls) odooVersion →
    ∀ row ∈ owners, row.odooVersion = odooVersion ∧ row.state = .present ∧ RecordedHere calls row

/-- An observation that is committed moves no present row with a record to another version
at its path. -/
def KeepsVersion (ledger : LedgerTable) (call : ParseCall) : Prop :=
  match call with
  | .commitObserved _ repoId _ odooVersion _ observed _ =>
      (call.perform ledger).isSome = true → ∀ row ∈ ledger.rows, row.state = .present →
        Carries row → ∀ module ∈ observed, hasKey repoId module.name row = true →
          module.state = .present → module.path = row.path → row.odooVersion = odooVersion
  | _ => True

instance (ledger : LedgerTable) (call : ParseCall) : Decidable (KeepsVersion ledger call) :=
  match call with
  | .commitObserved _ repoId _ odooVersion _ observed _ =>
      inferInstanceAs (Decidable (_ = true → ∀ row ∈ ledger.rows, row.state = .present →
        Carries row → ∀ module ∈ observed, hasKey repoId module.name row = true →
          module.state = .present → module.path = row.path → row.odooVersion = odooVersion))
  | .recordFullParses _ _ => instDecidableTrue
  | .clearFullParses _ _ _ _ => instDecidableTrue

def RowStep (ledger : LedgerTable) (call : ParseCall) (old new : PresenceRow) : Prop :=
  Carries new →
    (∃ env recording, call = .recordFullParses env recording ∧ recording.selects old = true ∧
      new.state = old.state ∧ new.path = old.path ∧ new.odooVersion = old.odooVersion) ∨
    (fullParse new = fullParse old ∧ new.state = old.state ∧ new.path = old.path ∧
      (old.state = .present → KeepsVersion ledger call → new.odooVersion = old.odooVersion))

theorem RowStep.refl (ledger : LedgerTable) (call : ParseCall) (row : PresenceRow) :
    RowStep ledger call row row :=
  fun _ => .inr ⟨rfl, rfl, rfl, fun _ _ => rfl⟩

section Observe
variable (repo : RepoRow) (repoId : Nat) (profileName odooVersion headSha : String)
  (now : Timestamp) (id : Nat) (module : ObservedModule) (row : PresenceRow)

theorem fullParse_observedUpdate :
    fullParse (observedUpdate
        (observedInsert repo repoId profileName odooVersion headSha now id module) row) =
      if row.state = module.state.toState ∧ row.path = module.path then fullParse row
      else .empty := by
  by_cases same : row.state = module.state.toState ∧ row.path = module.path
  · rw [if_pos same]
    simp [fullParse, observedUpdate, observedInsert, same.1, same.2]
  · rw [if_neg same]
    have reparse : row.state ≠ module.state.toState ∨ row.path ≠ module.path := by
      by_cases state : row.state = module.state.toState
      · exact .inr fun path => same ⟨state, path⟩
      · exact .inl state
    simp [fullParse, observedUpdate, observedInsert, reparse, FullParse.empty]

end Observe

theorem toState_present {state : ObservedState} (isPresent : state.toState = .present) :
    state = .present := by
  cases state with
  | present => rfl
  | excluded => cases isPresent

theorem parseStep_evolves (ledger : LedgerTable) (call : ParseCall) :
    Table.Evolves PresenceRow.id (RowStep ledger call) (fun new => ¬ Carries new) ledger
      (parseStep ledger call) := by
  rw [parseStep]
  cases done : call.perform ledger with
  | none => exact Table.Evolves.refl ledger fun row _ => RowStep.refl ledger call row
  | some next =>
      rw [Option.getD_some]
      cases call with
      | commitObserved env repoId profileName odooVersion headSha observed observedAt =>
          have performed := done
          simp only [ParseCall.perform] at done
          cases committed : Store.commitObserved env ledger repoId profileName odooVersion headSha
              observed observedAt with
          | error raised =>
              rw [committed] at done
              cases done
          | ok result =>
              rw [committed] at done
              cases done
              obtain ⟨-, repo, now, same⟩ := commitObserved_eq _ _ _ _ _ _ _ _ _ _ committed
              rw [same]
              refine Table.upsert_evolves _ _ _ _ _ (fun _ _ => rfl) (fun _ _ => rfl) ?_ ?_ ?_
              · intro module observedIn row rowIn conflicts carries
                have parse := fullParse_observedUpdate repo repoId profileName odooVersion headSha
                  now row.id module row
                by_cases kept : row.state = module.state.toState ∧ row.path = module.path
                · rw [if_pos kept] at parse
                  refine .inr ⟨parse, kept.1.symm, kept.2.symm, fun present keeps => ?_⟩
                  have isPresent := toState_present (kept.1.symm.trans present)
                  have carried : Carries row := by
                    rw [Carries, parse] at carries
                    exact carries
                  exact (keeps (by rw [performed]; rfl) row rowIn present carried module
                    ((mem_inNameOrder observed module).mp observedIn) conflicts isPresent
                    kept.2.symm).symm
                · rw [if_neg kept] at parse
                  exact absurd parse carries
              · intro row _ _
                exact RowStep.refl ledger _ row
              · intro serial module _ carries
                exact carries rfl
      | recordFullParses env recording =>
          simp only [ParseCall.perform, recordFullParses] at done
          split at done
          · cases done
          · split at done
            · cases done
              exact Table.Evolves.refl ledger fun row _ => RowStep.refl ledger _ row
            · cases done
              refine Table.updateWhere_evolves ledger _ _ (fun _ => rfl) ?_ ?_
              · intro row _ selected _
                exact .inl ⟨env, recording, rfl, selected, rfl, rfl, rfl⟩
              · intro row _ _
                exact RowStep.refl ledger _ row
      | clearFullParses env repoId odooVersion names =>
          simp only [ParseCall.perform, clearFullParses] at done
          cases done
          split
          · exact Table.Evolves.refl ledger fun row _ => RowStep.refl ledger _ row
          · refine Table.updateWhere_evolves ledger _ _ (fun _ => rfl) ?_ ?_
            · intro row _ _ carries
              exact absurd rfl carries
            · intro row _ _
              exact RowStep.refl ledger _ row

theorem ledgerAfter_keyed (calls : List ParseCall) :
    Table.Keyed PresenceRow.id (ledgerAfter calls) :=
  run_preserves parseStep (Table.Keyed PresenceRow.id)
    (fun ledger call keyed => (parseStep_evolves ledger call).keyed keyed) Table.empty
    Table.keyed_empty calls

theorem ledgerAfter_snoc (calls : List ParseCall) (call : ParseCall) :
    ledgerAfter (calls ++ [call]) = parseStep (ledgerAfter calls) call := by
  rw [ledgerAfter, run_append]
  rfl

theorem recordedHere_congr {calls : List ParseCall} {old new : PresenceRow} (id : new.id = old.id)
    (path : new.path = old.path) (version : new.odooVersion = old.odooVersion)
    (parse : fullParse new = fullParse old) : RecordedHere calls old ↔ RecordedHere calls new := by
  have samePresent : PresentAs new = PresentAs old := by
    funext ledger
    rw [PresentAs, PresentAs, id, path, version, parse]
  rw [RecordedHere, RecordedHere, id, samePresent]

theorem current_advance {calls : List ParseCall} {call : ParseCall}
    (keeps : KeepsVersion (ledgerAfter calls) call)
    (present : ∀ row ∈ (ledgerAfter calls).rows, Carries row → row.state = .present)
    (current : RecordsCurrent calls) :
    (∀ row ∈ (ledgerAfter (calls ++ [call])).rows, Carries row → row.state = .present) ∧
      RecordsCurrent (calls ++ [call]) := by
  have steps : ∀ new ∈ (ledgerAfter (calls ++ [call])).rows, Carries new →
      new.state = .present ∧ RecordedHere (calls ++ [call]) new := by
    intro new newIn carries
    have here := newIn
    rw [ledgerAfter_snoc] at newIn
    obtain ⟨old, oldIn, sameId, step⟩ | ⟨-, fresh⟩ :=
      (parseStep_evolves (ledgerAfter calls) call).origin newIn
    · obtain ⟨env, recording, isRecord, selected, state, path, version⟩ |
        ⟨parse, state, path, version⟩ := step carries
      · have oldPresent : old.state = .present := by
          simp only [Recording.selects, Bool.and_eq_true, beq_iff_eq] at selected
          exact selected.1.2
        have newPresent := state.trans oldPresent
        refine ⟨newPresent, heldSince_set ?_ ⟨new, here, rfl, newPresent, rfl, rfl, rfl⟩⟩
        rw [isRecord]
        exact ⟨old, oldIn, sameId.symm, selected⟩
      · have carried : Carries old := by
          rw [Carries, parse] at carries
          exact carries
        have oldPresent := present old oldIn carried
        have newPresent := state.trans oldPresent
        have recorded := (recordedHere_congr sameId path (version oldPresent keeps) parse).mp
          (current old oldIn carried)
        exact ⟨newPresent, heldSince_keep recorded ⟨new, here, rfl, newPresent, rfl, rfl, rfl⟩⟩
    · exact absurd carries fresh
  exact ⟨fun row rowIn carries => (steps row rowIn carries).1,
    fun row rowIn carries => (steps row rowIn carries).2⟩

theorem current_of_keeps (calls : List ParseCall)
    (keeps : AllSteps parseStep KeepsVersion Table.empty calls) :
    (∀ row ∈ (ledgerAfter calls).rows, Carries row → row.state = .present) ∧
      RecordsCurrent calls := by
  induction calls using List.reverseRecOn with
  | nil =>
      exact ⟨fun row rowIn => absurd rowIn List.not_mem_nil,
        fun row rowIn => absurd rowIn List.not_mem_nil⟩
  | append_singleton earlier call ih =>
      obtain ⟨before, last⟩ := (allSteps_append _ _ _ _ _).mp keeps
      obtain ⟨present, current⟩ := ih before
      exact current_advance last.1 present current

theorem keepsVersion_of_current {calls : List ParseCall} {call : ParseCall}
    (current : RecordsCurrent (calls ++ [call])) : KeepsVersion (ledgerAfter calls) call := by
  cases call with
  | recordFullParses env recording | clearFullParses env repoId odooVersion names => trivial
  | commitObserved env repoId profileName odooVersion headSha observed observedAt =>
      intro success row rowIn present carries module observedIn conflicts isPresent path
      have after := ledgerAfter_snoc calls
        (.commitObserved env repoId profileName odooVersion headSha observed observedAt)
      rw [parseStep] at after
      simp only [ParseCall.perform] at success after
      cases committed : Store.commitObserved env (ledgerAfter calls) repoId profileName odooVersion
          headSha observed observedAt with
      | error raised =>
          rw [committed] at success
          cases success
      | ok result =>
          rw [committed, Option.getD_some] at after
          obtain ⟨nodup, repo, now, same⟩ := commitObserved_eq _ _ _ _ _ _ _ _ _ _ committed
          rw [same] at after
          have rewritten := List.mem_append_left
            (((Table.unmatched (fun module row => hasKey repoId module.name row)
              (inNameOrder observed) (ledgerAfter calls).rows).zipIdx
                (ledgerAfter calls).nextId).map fun pair =>
                  observedInsert repo repoId profileName odooVersion headSha now pair.2 pair.1)
            (List.mem_map_of_mem (f := Table.conflictUpdate
              (fun module row => hasKey repoId module.name row)
              (fun module row => observedUpdate (observedInsert repo repoId profileName odooVersion
                headSha now row.id module) row) (inNameOrder observed)) rowIn)
          obtain ⟨other, otherIn, otherKey, updated⟩ | ⟨apart, -⟩ :=
            Table.conflictUpdate_cases (fun module row => hasKey repoId module.name row)
              (fun module row => observedUpdate (observedInsert repo repoId profileName odooVersion
                headSha now row.id module) row) (inNameOrder observed) row
          · have sameModule : other = module := by
              simp only [hasKey, Bool.and_eq_true, beq_iff_eq] at otherKey conflicts
              exact List.inj_on_of_nodup_map nodup ((mem_inNameOrder observed other).mp otherIn)
                observedIn (otherKey.2.symm.trans conflicts.2)
            rw [updated, sameModule] at rewritten
            have parse := fullParse_observedUpdate repo repoId profileName odooVersion headSha now
              row.id module row
            rw [if_pos ⟨present.trans (by rw [isPresent]; rfl), path.symm⟩] at parse
            have recorded := current _ (by rw [after]; exact rewritten) (by rwa [Carries, parse])
            obtain ⟨earlier, earlierIn, sameId, -, -, version, -⟩ :=
              heldSince_before recorded (fun sets => sets)
            rw [(ledgerAfter_keyed calls).eq_of_id earlierIn rowIn sameId] at version
            exact version
          · have none := apart module ((mem_inNameOrder observed module).mpr observedIn)
            rw [conflicts] at none
            cases none

theorem evidenceCurrent {calls : List ParseCall} (current : RecordsCurrent calls) :
    EvidenceCurrent calls := by
  intro odooVersion name owners listed row rowIn
  obtain ⟨shared, ready⟩ := List.mem_filter.mp listed
  obtain ⟨other, -, same⟩ := List.mem_map.mp shared
  cases same
  have owner := (mem_sortedBy _ _ _).mp rowIn
  obtain ⟨inLedger, ownsAt⟩ := List.mem_filter.mp (List.mem_filter.mp owner).1
  simp only [ownerAt, Bool.and_eq_true, beq_iff_eq] at ownsAt
  have recorded : row.lastFullParseAt.isNone = false := by
    rw [Bool.not_eq_true'] at ready
    have all := List.any_eq_false.mp ready row rowIn
    simp only [Bool.or_eq_true, not_or, Bool.not_eq_true] at all
    exact all.2
  refine ⟨ownsAt.1.1, ownsAt.1.2, current row inLedger fun empty => ?_⟩
  rw [show row.lastFullParseAt = none from congrArg FullParse.at' empty] at recorded
  cases recorded

/-- In every state of a run the records are of the copies the rows have exactly when no
observation moves a recorded row to another version at its path. -/
theorem records_current_iff (calls : List ParseCall) :
    (∀ earlier, earlier <+: calls → RecordsCurrent earlier ∧ EvidenceCurrent earlier) ↔
      AllSteps parseStep KeepsVersion Table.empty calls := by
  constructor
  · intro current
    refine allSteps_of_splits parseStep KeepsVersion calls Table.empty ?_
    intro earlier call later split
    refine keepsVersion_of_current (current (earlier ++ [call]) ?_).1
    rw [split]
    exact ⟨later, by rw [List.append_assoc, List.singleton_append]⟩
  · intro keeps earlier first
    obtain ⟨later, split⟩ := first
    rw [← split] at keeps
    have current := (current_of_keeps earlier ((allSteps_append _ _ _ _ _).mp keeps).1).2
    exact ⟨current, evidenceCurrent current⟩

def sampleEnv (now : Timestamp) : DbEnv where
  repos id := some { id, url := "git@host:shop.git", branch := "main", localPath := "/srv/shop" }
  now := now
  clock := now
  lockAcquired _ := true
  mergeSourceOk := true
  stampsOk := true

theorem sale_named : "sale" ≠ "" := by decide

theorem unexcused : ObservedState.present = .excluded ↔ (none : Option ExclusionReason).isSome := by
  decide

def saleModule : ObservedModule where
  name := "sale"
  path := "sale"
  manifestFile := "__manifest__.py"
  state := .present
  exclusionReason := none
  versionRaw := none
  versionMismatch := false
  shadowedPaths := []
  named := sale_named
  reasoned := unexcused

def observeAt (now : Timestamp) (odooVersion : String) : ParseCall :=
  .commitObserved (sampleEnv now) 4 "shop" odooVersion "a1" [saleModule] none

def recordAt (now : Timestamp) (odooVersion : String) : ParseCall :=
  .recordFullParses (sampleEnv now)
    { repoId := 4, odooVersion, parses := [("sale", [])], parsedAt := some now
      headSha := some "a1", embedded := [], embeddedAt := none, runToken := some "run-1"
      distinct := by decide }

/-- The repository moves on to the next version: its row keeps the record of the parse at the
version before. -/
theorem record_survives_version : ¬ ∀ calls, RecordsCurrent calls := by
  intro claim
  have keeps := keepsVersion_of_current
    (claim ([observeAt 1 "16.0", recordAt 2 "16.0"] ++ [observeAt 3 "17.0"]))
  exact absurd keeps (by decide)

end OdooSemantic.Ledger.FullParses
