import OdooSemantic.Lib.Run
import OdooSemantic.Ledger.Store

/-!
# Invariants of the ledger over whole runs

`RowStep` says what any ledger writer can do to one row and `FreshRow` what a
new row looks like.  Every writer evolves the table accordingly, so the shape
of the rows, the first sighting of a module and its number of resurrections
hold after every sequence of calls.
-/

set_option autoImplicit false

namespace OdooSemantic.Ledger.Invariant

open Lib Lib.Py Lib.Run
open Ledger.Rows Ledger.Store

def resurrected (old new : PresenceRow) : Bool :=
  old.state == .retired && new.state != .retired

structure RowStep (old new : PresenceRow) : Prop where
  name : new.name = old.name
  firstSeenSha : new.firstSeenSha = old.firstSeenSha
  firstSeenAt : new.firstSeenAt = old.firstSeenAt
  counted : new.resurrectionCount = old.resurrectionCount + (resurrected old new).toNat
  shape : RowShape old → RowShape new

/-- What an inserted row looks like. -/
structure FreshRow (new : PresenceRow) : Prop where
  shape : RowShape new
  uncounted : new.resurrectionCount = 0

abbrev Advances (before after : LedgerTable) : Prop :=
  Table.Evolves PresenceRow.id RowStep FreshRow before after

theorem RowStep.refl (row : PresenceRow) : RowStep row row where
  name := rfl
  firstSeenSha := rfl
  firstSeenAt := rfl
  counted := by cases h : row.state <;> simp [resurrected, h]
  shape := fun shape => shape

theorem observedInsert_fresh (repo : RepoRow) (repoId : Nat)
    (profileName odooVersion headSha : String) (now : Timestamp) (id : Nat)
    (observed : ObservedModule) :
    FreshRow (observedInsert repo repoId profileName odooVersion headSha now id observed) where
  shape := by
    have reasoned := observed.reasoned
    cases state : observed.state <;> constructor <;>
      simp_all [observedInsert, ObservedState.toState]
  uncounted := rfl

theorem observedUpdate_step (repo : RepoRow) (repoId : Nat)
    (profileName odooVersion headSha : String) (now : Timestamp) (id : Nat)
    (observed : ObservedModule) (row : PresenceRow) :
    RowStep row (observedUpdate
      (observedInsert repo repoId profileName odooVersion headSha now id observed) row) where
  name := rfl
  firstSeenSha := rfl
  firstSeenAt := rfl
  counted := by
    have live : (observed.state.toState != .retired) = true := by
      cases observed.state <;> rfl
    by_cases retired : row.state = .retired <;>
      simp [observedUpdate, observedInsert, resurrected, retired, live]
  shape := by
    intro _
    have reasoned := observed.reasoned
    cases state : observed.state <;> constructor <;>
      simp_all [observedUpdate, observedInsert, ObservedState.toState]

theorem flagPending_step (now : Timestamp) (reason : RetireReason) (blockedBy : Option String)
    (row : PresenceRow) (live : row.state ≠ .retired) :
    RowStep row (flagPending now reason blockedBy row) where
  name := rfl
  firstSeenSha := rfl
  firstSeenAt := rfl
  counted := by simp [flagPending, resurrected, live]
  shape := by
    intro shape
    exact { excluded_iff_reason := shape.excluded_iff_reason
            retired_iff_reason := shape.retired_iff_reason
            retired_not_pending := fun retired => absurd retired live
            pending_iff_reason := by simp [flagPending]
            successor_pair := shape.successor_pair
            present_clean := fun _ idle => by simp [flagPending] at idle }

theorem retireRow_step (now : Timestamp) (reason : Option RetireReason)
    (headSha : Option String) (row : PresenceRow) :
    RowStep row (retireRow now reason headSha row) where
  name := rfl
  firstSeenSha := rfl
  firstSeenAt := rfl
  counted := by simp [retireRow, resurrected]
  shape := by
    intro shape
    exact { excluded_iff_reason := by simp [retireRow]
            retired_iff_reason := by simp [retireRow]
            retired_not_pending := fun _ => rfl
            pending_iff_reason := by simp [retireRow]
            successor_pair := shape.successor_pair
            present_clean := fun present => by simp [retireRow] at present }

theorem writeEvidence_step (evidence : Option RetireEvidence) (successor : Option Successor)
    (row : PresenceRow) (leaving : row.state = .present → row.retirePending = true) :
    RowStep row (writeEvidence evidence successor row) where
  name := by cases evidence <;> cases successor <;> rfl
  firstSeenSha := by cases evidence <;> cases successor <;> rfl
  firstSeenAt := by cases evidence <;> cases successor <;> rfl
  counted := by
    cases evidence <;> cases successor <;>
      simp [writeEvidence, addEvidence, setSuccessor, resurrected]
  shape := by
    intro shape
    cases evidence <;> cases successor <;>
      exact { excluded_iff_reason := shape.excluded_iff_reason
              retired_iff_reason := shape.retired_iff_reason
              retired_not_pending := shape.retired_not_pending
              pending_iff_reason := shape.pending_iff_reason
              successor_pair := by
                first
                  | exact shape.successor_pair
                  | simp [writeEvidence, setSuccessor]
              present_clean := fun present idle => by
                have pending := leaving present
                have waiting : row.retirePending = false := idle
                rw [pending] at waiting
                cases waiting }

structure SameStateStep (old new : PresenceRow) : Prop extends RowStep old new where
  state : new.state = old.state

theorem SameStateStep.uncounted {old new : PresenceRow} (step : SameStateStep old new) :
    new.resurrectionCount = old.resurrectionCount := by
  have idle : resurrected old new = false := by
    cases state : old.state <;> simp [resurrected, step.state, state]
  have total := step.counted
  rw [idle] at total
  exact total

theorem RowStep.trans_sameState {old middle new : PresenceRow} (first : RowStep old middle)
    (second : SameStateStep middle new) : RowStep old new where
  name := second.name.trans first.name
  firstSeenSha := second.firstSeenSha.trans first.firstSeenSha
  firstSeenAt := second.firstSeenAt.trans first.firstSeenAt
  counted := by
    have total := first.counted
    rw [← second.uncounted] at total
    simpa [resurrected, second.state] using total
  shape := fun shape => second.shape (first.shape shape)

theorem FreshRow.trans_sameState {middle new : PresenceRow} (fresh : FreshRow middle)
    (step : SameStateStep middle new) : FreshRow new where
  shape := step.shape fresh.shape
  uncounted := step.uncounted.trans fresh.uncounted

theorem writeEvidence_id (evidence : Option RetireEvidence) (successor : Option Successor)
    (row : PresenceRow) : (writeEvidence evidence successor row).id = row.id := by
  cases evidence <;> cases successor <;> rfl

theorem writeEvidence_state (evidence : Option RetireEvidence) (successor : Option Successor)
    (row : PresenceRow) : (writeEvidence evidence successor row).state = row.state := by
  cases evidence <;> cases successor <;> rfl

theorem writeEvidence_pending (evidence : Option RetireEvidence)
    (successor : Option Successor) (row : PresenceRow) :
    (writeEvidence evidence successor row).retirePending = row.retirePending := by
  cases evidence <;> cases successor <;> rfl

theorem writeEvidence_key (evidence : Option RetireEvidence) (successor : Option Successor)
    (row : PresenceRow) : (writeEvidence evidence successor row).repoId = row.repoId ∧
      (writeEvidence evidence successor row).name = row.name := by
  cases evidence <;> cases successor <;> exact ⟨rfl, rfl⟩

theorem storeEvidence_advances (before middle : LedgerTable)
    (guard : PresenceRow → Bool) (evidence : Option RetireEvidence)
    (successor : Option Successor) (reached : Advances before middle)
    (leaving : ∀ row ∈ middle.rows, guard row = true → row.state = .present →
      row.retirePending = true) :
    Advances before (storeEvidence guard evidence successor middle) := by
  let rewrite (row : PresenceRow) : PresenceRow :=
    if guard row then writeEvidence evidence successor row else row
  have step : ∀ row ∈ middle.rows, SameStateStep row (rewrite row) := by
    intro row member
    by_cases selected : guard row = true
    · simp only [rewrite, selected, if_true]
      exact { writeEvidence_step evidence successor row (leaving row member selected) with
        state := writeEvidence_state evidence successor row }
    · simp only [rewrite, selected]
      exact { RowStep.refl row with state := rfl }
  refine Table.Evolves.trans_update reached rewrite rfl rfl ?_ step ?_ ?_
  · intro row _
    by_cases selected : guard row = true
    · simp only [rewrite, selected, if_true]
      exact writeEvidence_id evidence successor row
    · simp only [rewrite, selected]
      rfl
  · intro old middle new first second
    exact first.trans_sameState second
  · intro middle new fresh second
    exact fresh.trans_sameState second

theorem updateWhere_advances (ledger : LedgerTable) (guard : PresenceRow → Bool)
    (set : PresenceRow → PresenceRow) (same_id : ∀ row, (set row).id = row.id)
    (steps : ∀ row ∈ ledger.rows, guard row = true → RowStep row (set row)) :
    Advances ledger (ledger.updateWhere guard set) :=
  Table.updateWhere_evolves ledger guard set same_id steps
    (fun row _ _ => RowStep.refl row)

theorem commitObserved_advances (env : DbEnv) (ledger : LedgerTable) (repoId : Nat)
    (profileName odooVersion headSha : String) (observed : List ObservedModule)
    (observedAt : Option Timestamp) (result : CommitObservedResult) (next : LedgerTable)
    (run : commitObserved env ledger repoId profileName odooVersion headSha observed
      observedAt = .ok (result, next)) :
    Advances ledger next := by
  obtain ⟨-, repo, now, rfl⟩ := commitObserved_eq _ _ _ _ _ _ _ _ _ _ run
  refine Table.upsert_evolves _ _ _ _ _ (fun _ _ => rfl) (fun _ _ => rfl) ?_ ?_ ?_
  · intro module _ row _ _
    exact observedUpdate_step _ _ _ _ _ _ _ _ _
  · intro row _ _
    exact RowStep.refl row
  · intro id module _
    exact observedInsert_fresh _ _ _ _ _ _ _ _

def Leaving (repoId : Nat) (names : List String) (table : LedgerTable) : Prop :=
  ∀ row ∈ table.rows, row.repoId = some repoId → row.name ∈ names →
    row.state = .present → row.retirePending = true

theorem storeEvidence_leaving (repoId : Nat) (names : List String) (table : LedgerTable)
    (guard : PresenceRow → Bool) (evidence : Option RetireEvidence)
    (successor : Option Successor) (leaving : Leaving repoId names table) :
    Leaving repoId names (storeEvidence guard evidence successor table) := by
  intro new member ofRepo named present
  obtain ⟨row, rowIn, rfl⟩ := List.mem_map.mp member
  by_cases selected : guard row = true
  · simp only [selected, if_true] at ofRepo named present ⊢
    rw [(writeEvidence_key evidence successor row).1] at ofRepo
    rw [(writeEvidence_key evidence successor row).2] at named
    rw [writeEvidence_state] at present
    rw [writeEvidence_pending]
    exact leaving row rowIn ofRepo named present
  · simp only [selected] at ofRepo named present ⊢
    exact leaving row rowIn ofRepo named present

theorem foldl_storeEvidence_advances (repoId : Nat) (names : List String)
    (evidence : String → Option RetireEvidence) (successors : String → Option Successor)
    (before : LedgerTable) (flagged : List String) (within : ∀ name ∈ flagged, name ∈ names) :
    ∀ middle : LedgerTable, Advances before middle → Leaving repoId names middle →
      Advances before (flagged.foldl (fun table name =>
        storeEvidence (hasKey repoId name) (evidence name) (successors name) table) middle) := by
  induction flagged with
  | nil => intro middle reached _; exact reached
  | cons name rest ih =>
      intro middle reached leaving
      have nameIn := within name List.mem_cons_self
      have restIn := fun other member => within other (List.mem_cons_of_mem name member)
      refine ih restIn _ (storeEvidence_advances before middle _ _ _ reached ?_)
        (storeEvidence_leaving repoId names middle _ _ _ leaving)
      intro row member selected present
      simp only [hasKey, Bool.and_eq_true, beq_iff_eq] at selected
      exact leaving row member selected.1 (by rw [selected.2]; exact nameIn) present

theorem flagPending_leaving (repoId : Nat) (names : List String) (ledger : LedgerTable)
    (now : Timestamp) (reason : RetireReason) (blockedBy : Option String) :
    Leaving repoId names
      (ledger.updateWhere (retirable repoId names) (flagPending now reason blockedBy)) := by
  intro new member ofThis named present
  obtain ⟨row, rowIn, rfl⟩ := List.mem_map.mp member
  by_cases selected : retirable repoId names row = true
  · simp [selected, flagPending]
  · rw [if_neg selected] at ofThis named present
    have chosen : retirable repoId names row = true := by
      simp [retirable, ofRepo, ofThis, named, present]
    exact absurd chosen selected

theorem markRetirePending_advances (env : DbEnv) (ledger : LedgerTable) (repoId : Nat)
    (names : List String) (reason : String) (evidence : String → Option RetireEvidence)
    (successors : String → Option Successor) (blockedBy : Option String)
    (result : List String) (next : LedgerTable)
    (run : markRetirePending env ledger repoId names reason evidence successors blockedBy =
      .ok (result, next)) :
    Advances ledger next := by
  unfold markRetirePending at run
  cases known : RetireReason.ofText reason with
  | none => rw [known] at run; cases run
  | some why =>
      simp only [known] at run
      cases nothing : (sortedSet names).isEmpty with
      | true =>
          simp only [nothing, if_true] at run
          cases run
          exact Table.Evolves.refl _ fun row _ => RowStep.refl row
      | false =>
          simp only [nothing, Bool.false_eq_true, if_false] at run
          obtain ⟨_, -, run⟩ := (bind_eq_ok _ _ _).mp run
          cases run
          refine foldl_storeEvidence_advances repoId (sortedSet names) evidence _ ledger _ ?_ _
            (updateWhere_advances ledger _ _ (fun _ => rfl) ?_)
            (flagPending_leaving repoId (sortedSet names) ledger env.now why blockedBy)
          · intro name member
            obtain ⟨row, rowIn, rfl⟩ := List.mem_map.mp ((List.mem_insertionSort _).mp member)
            have chosen := (List.mem_filter.mp rowIn).2
            simp only [retirable, Bool.and_eq_true, List.contains_iff_mem] at chosen
            exact chosen.1.2
          · intro row _ selected
            simp only [retirable, Bool.and_eq_true, bne_iff_ne] at selected
            exact flagPending_step _ _ _ row selected.2

theorem markRepoRemoved_advances (env : DbEnv) (ledger : LedgerTable) (repoId : Nat)
    (result : List (Nat × String × String)) (next : LedgerTable)
    (run : markRepoRemoved env ledger repoId = .ok (result, next)) :
    Advances ledger next := by
  unfold markRepoRemoved at run
  obtain ⟨_, -, run⟩ := (bind_eq_ok _ _ _).mp run
  cases run
  refine updateWhere_advances ledger _ _ (fun _ => rfl) ?_
  intro row _ selected
  simp only [Bool.and_eq_true, bne_iff_ne] at selected
  have flagged := flagPending_step env.now .repoRemoved none row selected.2
  exact { flagged with
    shape := fun shape => by
      have pending := flagged.shape shape
      exact { pending with } }

theorem commitRetired_advances (env : DbEnv) (ledger : LedgerTable) (repoId : Option Nat)
    (name : String) (reason : Option String) (evidence : Option RetireEvidence)
    (successor : Option Successor) (headSha : Option String) (rowId : Option Nat)
    (result : Bool) (next : LedgerTable)
    (run : commitRetired env ledger repoId name reason evidence successor headSha rowId =
      .ok (result, next)) :
    Advances ledger next := by
  unfold commitRetired at run
  obtain ⟨known, -, run⟩ := (bind_eq_ok _ _ _).mp run
  obtain ⟨target, -, run⟩ := (bind_eq_ok _ _ _).mp run
  cases target with
  | none =>
      cases run
      exact Table.Evolves.refl _ fun row _ => RowStep.refl row
  | some row =>
      obtain ⟨_, -, run⟩ := (bind_eq_ok _ _ _).mp run
      split at run
      · cases run
        refine storeEvidence_advances ledger _ _ _ _
          (updateWhere_advances ledger _ _ (fun _ => rfl)
            fun row _ _ => retireRow_step _ _ _ row) ?_
        intro new member selected present
        obtain ⟨old, oldIn, rfl⟩ := List.mem_map.mp member
        by_cases live : liveWithId row.id old = true
        · simp [live, retireRow] at present
        · rw [if_neg live] at selected present
          simp only [beq_iff_eq] at selected
          simp [liveWithId, selected, present] at live
      · cases run
        exact Table.Evolves.refl _ fun row _ => RowStep.refl row

theorem orphanRow_fresh (repo : RepoRow) (env : DbEnv) (repoId : Nat)
    (name profileName odooVersion path manifestFile lastSeenSha : String)
    (lastSeenAt : Timestamp) (evidence : Option RetireEvidence)
    (successor : Option Successor) (headSha : Option String) (id : Nat) :
    FreshRow (orphanRow repo env repoId name profileName odooVersion path manifestFile
      lastSeenSha lastSeenAt evidence successor headSha id) where
  shape := by
    constructor <;> cases successor <;> simp [orphanRow]
  uncounted := rfl

theorem recordOrphanRetired_advances (env : DbEnv) (ledger : LedgerTable) (repoId : Nat)
    (name profileName odooVersion path manifestFile lastSeenSha : String)
    (lastSeenAt : Timestamp) (evidence : Option RetireEvidence)
    (successor : Option Successor) (headSha : Option String)
    (result : Bool) (next : LedgerTable)
    (run : recordOrphanRetired env ledger repoId name profileName odooVersion path
      manifestFile lastSeenSha lastSeenAt evidence successor headSha = .ok (result, next)) :
    Advances ledger next := by
  unfold recordOrphanRetired at run
  by_cases named : profileName = ""
  · rw [if_pos named] at run
    cases run
  · rw [if_neg named] at run
    obtain ⟨_, -, run⟩ := (bind_eq_ok _ _ _).mp run
    obtain ⟨repo, -, run⟩ := (bind_eq_ok _ _ _).mp run
    cases run
    refine Table.upsert_evolves _ _ _ _ _ (fun _ _ => rfl) (fun _ _ => rfl) ?_ ?_ ?_
    · intro _ _ row _ _
      exact RowStep.refl row
    · intro row _ _
      exact RowStep.refl row
    · intro id _ _
      exact orphanRow_fresh _ _ _ _ _ _ _ _ _ _ _ _ _ _

theorem repoDeleted_advances (ledger : LedgerTable) (repoId : Nat) :
    Advances ledger (repoDeleted ledger repoId) := by
  refine updateWhere_advances ledger _ _ (fun _ => rfl) ?_
  intro row _ _
  have same := RowStep.refl row
  exact { same with shape := fun shape => { shape with } }

inductive LedgerCall where
  | commitObserved (env : DbEnv) (repoId : Nat) (profileName odooVersion headSha : String)
      (observed : List ObservedModule) (observedAt : Option Timestamp)
  | markRetirePending (env : DbEnv) (repoId : Nat) (names : List String) (reason : String)
      (evidence : String → Option RetireEvidence)
      (successors : String → Option Successor) (blockedBy : Option String)
  | markRepoRemoved (env : DbEnv) (repoId : Nat)
  | commitRetired (env : DbEnv) (repoId : Option Nat) (name : String)
      (reason : Option String) (evidence : Option RetireEvidence)
      (successor : Option Successor) (headSha : Option String) (rowId : Option Nat)
  | recordOrphanRetired (env : DbEnv) (repoId : Nat)
      (name profileName odooVersion path manifestFile lastSeenSha : String)
      (lastSeenAt : Timestamp) (evidence : Option RetireEvidence)
      (successor : Option Successor) (headSha : Option String)
  | repoDeleted (repoId : Nat)

def LedgerCall.perform (ledger : LedgerTable) : LedgerCall → Except StoreError LedgerTable
  | .commitObserved env repoId profileName odooVersion headSha observed observedAt =>
      (Store.commitObserved env ledger repoId profileName odooVersion headSha observed
        observedAt).map Prod.snd
  | .markRetirePending env repoId names reason evidence successors blockedBy =>
      (Store.markRetirePending env ledger repoId names reason evidence successors
        blockedBy).map Prod.snd
  | .markRepoRemoved env repoId => (Store.markRepoRemoved env ledger repoId).map Prod.snd
  | .commitRetired env repoId name reason evidence successor headSha rowId =>
      (Store.commitRetired env ledger repoId name reason evidence successor headSha
        rowId).map Prod.snd
  | .recordOrphanRetired env repoId name profileName odooVersion path manifestFile
        lastSeenSha lastSeenAt evidence successor headSha =>
      (Store.recordOrphanRetired env ledger repoId name profileName odooVersion path
        manifestFile lastSeenSha lastSeenAt evidence successor headSha).map Prod.snd
  | .repoDeleted repoId => .ok (Store.repoDeleted ledger repoId)

def ledgerStep (ledger : LedgerTable) (call : LedgerCall) : LedgerTable :=
  commitOrRollback ledger (call.perform ledger)

theorem perform_advances (ledger next : LedgerTable) (call : LedgerCall)
    (success : call.perform ledger = .ok next) : Advances ledger next := by
  cases call with
  | commitObserved env repoId profileName odooVersion headSha observed observedAt =>
      obtain ⟨⟨result, _⟩, run, rfl⟩ := (map_eq_ok _ _ _).mp success
      exact commitObserved_advances _ _ _ _ _ _ _ _ _ _ run
  | markRetirePending env repoId names reason evidence successors blockedBy =>
      obtain ⟨⟨result, _⟩, run, rfl⟩ := (map_eq_ok _ _ _).mp success
      exact markRetirePending_advances _ _ _ _ _ _ _ _ _ _ run
  | markRepoRemoved env repoId =>
      obtain ⟨⟨result, _⟩, run, rfl⟩ := (map_eq_ok _ _ _).mp success
      exact markRepoRemoved_advances _ _ _ _ _ run
  | commitRetired env repoId name reason evidence successor headSha rowId =>
      obtain ⟨⟨result, _⟩, run, rfl⟩ := (map_eq_ok _ _ _).mp success
      exact commitRetired_advances _ _ _ _ _ _ _ _ _ _ _ run
  | recordOrphanRetired env repoId name profileName odooVersion path manifestFile
      lastSeenSha lastSeenAt evidence successor headSha =>
      obtain ⟨⟨result, _⟩, run, rfl⟩ := (map_eq_ok _ _ _).mp success
      exact recordOrphanRetired_advances _ _ _ _ _ _ _ _ _ _ _ _ _ _ _ run
  | repoDeleted repoId =>
      cases success
      exact repoDeleted_advances ledger repoId

theorem ledgerStep_advances (ledger : LedgerTable) (call : LedgerCall) :
    Advances ledger (ledgerStep ledger call) := by
  unfold ledgerStep
  cases performed : call.perform ledger with
  | error raised => exact Table.Evolves.refl _ fun row _ => RowStep.refl row
  | ok next => exact perform_advances ledger next call performed

/-- The step takes row `id` from retired to present or excluded. -/
def retiredToLive (id : Nat) (before after : LedgerTable) : Bool :=
  before.rows.any (fun row => row.id == id && row.state == .retired) &&
    after.rows.any (fun row => row.id == id &&
      (row.state == .present || row.state == .excluded))

theorem retiredToLive_eq_resurrected (before after : LedgerTable) (old new : PresenceRow)
    (keyedBefore : Table.Keyed PresenceRow.id before)
    (keyedAfter : Table.Keyed PresenceRow.id after)
    (oldIn : old ∈ before.rows) (newIn : new ∈ after.rows) (same : new.id = old.id) :
    retiredToLive old.id before after = resurrected old new := by
  rw [Bool.eq_iff_iff]
  simp only [retiredToLive, resurrected, Bool.and_eq_true, List.any_eq_true, Bool.or_eq_true,
    beq_iff_eq, bne_iff_ne]
  constructor
  · rintro ⟨⟨row, rowIn, rowId, retired⟩, ⟨later, laterIn, laterId, live⟩⟩
    have rowEq := keyedBefore.eq_of_id rowIn oldIn rowId
    have laterEq := keyedAfter.eq_of_id laterIn newIn (laterId.trans same.symm)
    subst rowEq laterEq
    refine ⟨retired, fun still => ?_⟩
    rcases live with live | live <;> rw [still] at live <;> cases live
  · rintro ⟨retired, live⟩
    refine ⟨⟨old, oldIn, rfl, retired⟩, ⟨new, newIn, same, ?_⟩⟩
    cases state : new.state with
    | present => exact Or.inl rfl
    | excluded => exact Or.inr rfl
    | retired => exact absurd state live

theorem retiredToLive_unborn (before after : LedgerTable) (id : Nat)
    (keyed : Table.Keyed PresenceRow.id before) (unborn : before.nextId ≤ id) :
    retiredToLive id before after = false := by
  have none : before.rows.any (fun row => row.id == id && row.state == .retired) = false := by
    rw [List.any_eq_false]
    intro row member
    have below := keyed.bounded row member
    have differs : row.id ≠ id := by omega
    simp [differs]
  simp [retiredToLive, none]

/-- How often row `id` went from retired to present or excluded in these calls. -/
def resurrections (id : Nat) (calls : List LedgerCall) : Nat :=
  countSteps ledgerStep (retiredToLive id) Table.empty calls

def ledgerAfter (calls : List LedgerCall) : LedgerTable :=
  run ledgerStep Table.empty calls

structure LedgerInv (ledger : LedgerTable) (calls : List LedgerCall) : Prop where
  keyed : Table.Keyed PresenceRow.id ledger
  shaped : ∀ row ∈ ledger.rows, RowShape row
  counted : ∀ row ∈ ledger.rows, row.resurrectionCount = resurrections row.id calls
  unborn : ∀ id, ledger.nextId ≤ id → resurrections id calls = 0

theorem ledgerInv_advance (calls : List LedgerCall) (call : LedgerCall)
    (inv : LedgerInv (ledgerAfter calls) calls) :
    LedgerInv (ledgerStep (ledgerAfter calls) call) (calls ++ [call]) := by
  have step := ledgerStep_advances (ledgerAfter calls) call
  have keyed := step.keyed inv.keyed
  have snoc : ∀ id, resurrections id (calls ++ [call]) = resurrections id calls +
      (retiredToLive id (ledgerAfter calls) (ledgerStep (ledgerAfter calls) call)).toNat :=
    fun id => countSteps_snoc _ _ _ _ _
  refine ⟨keyed, ?_, ?_, ?_⟩
  · exact step.forall_rows (fun _ _ kept shape => kept.shape shape)
      (fun _ fresh => fresh.shape) inv.shaped
  · intro new newIn
    rw [snoc]
    rcases step.origin newIn with ⟨old, oldIn, same, kept⟩ | ⟨unborn, fresh⟩
    · rw [kept.counted, inv.counted old oldIn, same,
        retiredToLive_eq_resurrected _ _ old new inv.keyed keyed oldIn newIn same]
    · rw [fresh.uncounted, inv.unborn new.id unborn,
        retiredToLive_unborn _ _ _ inv.keyed unborn]
      rfl
  · intro id above
    have before : (ledgerAfter calls).nextId ≤ id := step.nextId_le.trans above
    rw [snoc, inv.unborn id before, retiredToLive_unborn _ _ _ inv.keyed before]
    rfl

theorem ledgerInv_reached (calls : List LedgerCall) : LedgerInv (ledgerAfter calls) calls := by
  refine history_induction ledgerStep Table.empty LedgerInv ?_ ?_ calls
  · exact ⟨Table.keyed_empty, fun _ member => absurd member List.not_mem_nil,
      fun _ member => absurd member List.not_mem_nil, fun _ _ => rfl⟩
  · exact ledgerInv_advance

def KeepsFirstSeen (before after : LedgerTable) : Prop :=
  ∀ old ∈ before.rows, ∃ new ∈ after.rows, new.id = old.id ∧
    new.firstSeenSha = old.firstSeenSha ∧ new.firstSeenAt = old.firstSeenAt

theorem ledgerStep_keepsFirstSeen (ledger : LedgerTable) (call : LedgerCall) :
    KeepsFirstSeen ledger (ledgerStep ledger call) := by
  intro old oldIn
  obtain ⟨new, newIn, same, kept⟩ := (ledgerStep_advances ledger call).survives oldIn
  exact ⟨new, newIn, same, kept.firstSeenSha, kept.firstSeenAt⟩

theorem run_keepsFirstSeen (ledger : LedgerTable) (calls : List LedgerCall) :
    KeepsFirstSeen ledger (run ledgerStep ledger calls) := by
  refine run_relates ledgerStep KeepsFirstSeen ?_ ?_ ledgerStep_keepsFirstSeen ledger calls
  · intro table row member
    exact ⟨row, member, rfl, rfl, rfl⟩
  · intro first second third forward onward row member
    obtain ⟨middle, middleIn, sameId, sameSha, sameAt⟩ := forward row member
    obtain ⟨last, lastIn, lastId, lastSha, lastAt⟩ := onward middle middleIn
    exact ⟨last, lastIn, lastId.trans sameId, lastSha.trans sameSha, lastAt.trans sameAt⟩

/-- Whatever the calls, their arguments and their failures: ids identify rows,
every row keeps its shape, its resurrection count is the number of times it left
the retired state, and all later calls keep the row and its first sighting. -/
theorem ledger_rows_wellFormed (calls later : List LedgerCall) :
    ((ledgerAfter calls).rows.map PresenceRow.id).Nodup ∧
    (∀ row ∈ (ledgerAfter calls).rows, RowShape row) ∧
    (∀ row ∈ (ledgerAfter calls).rows,
      row.resurrectionCount = resurrections row.id calls) ∧
    (∀ row ∈ (ledgerAfter calls).rows,
      (∃ new ∈ (ledgerAfter (calls ++ later)).rows, new.id = row.id) ∧
      ∀ new ∈ (ledgerAfter (calls ++ later)).rows, new.id = row.id →
        new.firstSeenSha = row.firstSeenSha ∧ new.firstSeenAt = row.firstSeenAt) := by
  have inv := ledgerInv_reached calls
  refine ⟨inv.keyed.nodup, inv.shaped, inv.counted, ?_⟩
  intro row member
  have keyed := (ledgerInv_reached (calls ++ later)).keyed
  have kept := run_keepsFirstSeen (ledgerAfter calls) later
  have joined : run ledgerStep (ledgerAfter calls) later = ledgerAfter (calls ++ later) :=
    (run_append _ _ _ _).symm
  rw [joined] at kept
  obtain ⟨final, finalIn, sameId, sameSha, sameAt⟩ := kept row member
  refine ⟨⟨final, finalIn, sameId⟩, ?_⟩
  intro new newIn newId
  have same := keyed.eq_of_id newIn finalIn (newId.trans sameId.symm)
  subst same
  exact ⟨sameSha, sameAt⟩

end OdooSemantic.Ledger.Invariant
