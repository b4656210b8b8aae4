import OdooSemantic.Lifecycle.Retirement

/-!
# Names the raw HEAD tree still ships

A run without the emergency bypass must not hand a module to the reconcile
while the HEAD tree still has its manifest.  The gates are read back as
conditions on the ledger rows, the scan and git, which gives exactly the runs
and names for which this holds.
-/

set_option autoImplicit false

namespace OdooSemantic.Lifecycle.HeadTree

open Lib Lib.Py
open Ledger.Rows Ledger.Store Ledger.Rewrites
open Lifecycle.Gates Lifecycle.Commit
open Lifecycle.Retirement

def repoRows (ledger : LedgerTable) (repoId : Nat) : List PresenceRow :=
  ledger.rows.filter (ofRepo repoId)

def droppedNames (input : IndexRun) (rows : List PresenceRow) : List String :=
  match input.graphBaseline with
  | some baseline => (graphBaselineDrops baseline input.scan).map (·.2)
  | none => (classify rows input.scan).softDrops.map (·.name)

/-- Something dropped and the scan finds no module at all. -/
def TotalWipe (input : IndexRun) (rows : List PresenceRow) : Prop :=
  input.scan.presentNames = [] ∧ droppedNames input rows ≠ []

/-- Git proves every drop gone by a commit of the branch's own history. -/
def WipeProven (input : IndexRun) (rows : List PresenceRow) : Prop :=
  input.headListed = true ∧
    (∀ name ∈ droppedNames input rows,
      name ∉ input.headTree ∧ unparseable input.scan name = false) ∧
    input.wipeInHistory = some true

/-- The run executes retirements: no `--no-retire`, a trusted and complete scan,
no total wipe that git does not prove. -/
def Retires (input : IndexRun) (rows : List PresenceRow) : Prop :=
  input.retire = true ∧ input.trusted = true ∧ input.scan.complete = true ∧
    (TotalWipe input rows → WipeProven input rows)

def Judged (input : IndexRun) (row : PresenceRow) : Prop :=
  row.state = .present ∧ input.presenceHead.isSome = true

instance (input : IndexRun) (row : PresenceRow) : Decidable (Judged input row) :=
  inferInstanceAs (Decidable (_ ∧ _))

/-- What keeps a shipped name from the reconcile: the scan sees it, or each of
its rows is retired or judged by the HEAD tree and carries no executable flag of
an earlier run, or is not judged and the run executes no retirement. -/
def StaysHome (input : IndexRun) (ledger : LedgerTable) (name : String) : Prop :=
  name ∈ input.scan.observedNames ∨
    ∀ row ∈ ledger.rows, hasKey input.repoId name row = true →
      if row.state = .retired ∨ Judged input row then executable row = false
      else ¬ Retires input (repoRows ledger input.repoId)

instance (input : IndexRun) (rows : List PresenceRow) : Decidable (TotalWipe input rows) :=
  inferInstanceAs (Decidable (_ ∧ _))

instance (input : IndexRun) (rows : List PresenceRow) : Decidable (WipeProven input rows) :=
  inferInstanceAs (Decidable (_ ∧ _))

instance (input : IndexRun) (rows : List PresenceRow) : Decidable (Retires input rows) :=
  inferInstanceAs (Decidable (_ ∧ _))

theorem prevRow_repoRows (ledger : LedgerTable) (repoId : Nat) (name : String)
    (row : PresenceRow) (found : prevRow (repoRows ledger repoId) name = some row) :
    row ∈ ledger.rows ∧ hasKey repoId name row = true := by
  obtain ⟨inRepo, same⟩ := List.mem_filter.mp (List.mem_of_getLast? found)
  obtain ⟨rowIn, owned⟩ := List.mem_filter.mp inRepo
  simp only [ofRepo] at owned
  exact ⟨rowIn, by rw [hasKey, owned, same]; rfl⟩

theorem prevRow_of_unique (ledger : LedgerTable) (unique : UniqueKey ledger) (repoId : Nat)
    (name : String) (row : PresenceRow) (rowIn : row ∈ ledger.rows)
    (key : hasKey repoId name row = true) :
    prevRow (repoRows ledger repoId) name = some row := by
  have parts := key
  simp only [hasKey, Bool.and_eq_true, beq_iff_eq] at parts
  have inRepo : row ∈ (repoRows ledger repoId).filter fun known => known.name == name := by
    refine List.mem_filter.mpr ⟨List.mem_filter.mpr ⟨rowIn, ?_⟩, ?_⟩
    · simp [ofRepo, parts.1]
    · simp [parts.2]
  cases last : prevRow (repoRows ledger repoId) name with
  | none =>
      rw [prevRow, List.getLast?_eq_none_iff] at last
      rw [last] at inRepo
      cases inRepo
  | some found =>
      obtain ⟨foundIn, foundKey⟩ := prevRow_repoRows ledger repoId name found last
      simp only [hasKey, Bool.and_eq_true, beq_iff_eq] at foundKey
      rw [unique found foundIn row rowIn (foundKey.1.trans parts.1.symm)
        (by rw [foundKey.1]; rfl) (foundKey.2.trans parts.2.symm)]

section Gates
variable (input : IndexRun) (rows : List PresenceRow)

theorem scanOk_iff : (observeLifecycle input rows).gates.scanOk = true ↔
    input.scan.complete = true ∧ input.trusted = true := by
  cases complete : input.scan.complete <;> cases trusted : input.trusted <;>
    simp [observeLifecycle, applyGates, complete, trusted]

theorem mem_keptNames_iff (noBypass : input.allowMassRetire = false) (name : String) :
    name ∈ (observeLifecycle input rows).gates.keptNames ↔
      input.presenceHead.isSome = true ∧
        ∃ drop ∈ (classify rows input.scan).softDrops, drop.after = .retired ∧
          drop.name = name ∧ stillShipped input.headTreeModuleNames name = true := by
  have listed : ∀ drop ∈ (classify rows input.scan).softDrops,
      input.shippedAtHead (classify rows input.scan) = input.headTreeModuleNames := by
    intro drop dropIn
    have some : (classify rows input.scan).softDrops.isEmpty = false := by
      rw [List.isEmpty_eq_false_iff]
      exact List.ne_nil_of_mem dropIn
    simp [IndexRun.shippedAtHead, some]
  cases head : input.presenceHead with
  | none =>
      simp [observeLifecycle, applyGates, GateResult.keptNames, IndexRun.graphBaseline, head,
        graphEvidence]
  | some sha =>
      simp only [observeLifecycle, applyGates, GateResult.keptNames, IndexRun.graphBaseline, head,
        ledgerEvidence, noBypass, Option.isNone_some, Bool.false_eq_true, if_false,
        Bool.false_or, bne_self_eq_false, List.mem_insertionSort, List.mem_map,
        List.mem_filter, Bool.and_eq_true, beq_iff_eq, Option.isSome_some, true_and]
      constructor
      · rintro ⟨drop, ⟨dropIn, after, shipped⟩, rfl⟩
        rw [listed drop dropIn] at shipped
        exact ⟨drop, dropIn, after, rfl, shipped⟩
      · rintro ⟨drop, dropIn, after, rfl, shipped⟩
        rw [← listed drop dropIn] at shipped
        exact ⟨drop, ⟨dropIn, after, shipped⟩, rfl⟩

theorem massGateTrips_totalWipe (nSoftDrop nPresentBefore nPresentAfter : Nat)
    (before : 0 < nSoftDrop → 0 < nPresentBefore) :
    massGateTrips nSoftDrop nPresentBefore nPresentAfter = some .totalWipe ↔
      nSoftDrop ≠ 0 ∧ nPresentAfter = 0 := by
  unfold massGateTrips
  by_cases wipe : 0 < nPresentBefore ∧ 0 < nSoftDrop ∧ nPresentAfter = 0
  · rw [if_pos wipe]
    simp only [true_iff]
    omega
  · rw [if_neg wipe]
    have not : ¬ (nSoftDrop ≠ 0 ∧ nPresentAfter = 0) := by
      intro both
      have some := before (by omega)
      omega
    simp only [not, iff_false]
    split <;> simp

theorem wipeCause_none_iff (evidence : DropEvidence) (shipped : Option (List String))
    (wipeInHistory : Option Bool) :
    wipeCause evidence shipped wipeInHistory = none ↔
      shipped.isSome = true ∧ evidence.unproven = [] ∧ evidence.nUnparseable = 0 ∧
        wipeInHistory = some true := by
  unfold wipeCause
  cases shipped with
  | none => simp
  | some names =>
      by_cases kept : evidence.unproven.length + evidence.nUnparseable = 0
      · have none : evidence.unproven = [] := by
          rw [← List.length_eq_zero_iff]
          omega
        have zero : evidence.nUnparseable = 0 := by omega
        cases wipeInHistory with
        | none => simp [none, zero]
        | some answer => cases answer <;> simp [none, zero]
      · simp only [Option.isNone_some, Bool.false_eq_true, if_false, kept, ne_eq,
          not_false_eq_true, if_true, Option.isSome_some, true_and]
        constructor
        · intro impossible
          cases impossible
        · rintro ⟨none, zero, -⟩
          rw [none, zero] at kept
          exact absurd rfl kept

def dropEvidence : DropEvidence :=
  match input.graphBaseline with
  | some baseline =>
      graphEvidence baseline input.scan (input.shippedAtHead (classify rows input.scan))
  | none =>
      ledgerEvidence (classify rows input.scan) (input.shippedAtHead (classify rows input.scan))

theorem nSoftDrop_eq : (dropEvidence input rows).nSoftDrop = (droppedNames input rows).length := by
  unfold dropEvidence droppedNames
  cases input.graphBaseline <;> simp [graphEvidence, ledgerEvidence]

theorem nPresentBefore_pos (named : "" ∉ input.scan.observedNames)
    (some : 0 < (dropEvidence input rows).nSoftDrop) :
    0 < (dropEvidence input rows).nPresentBefore := by
  unfold dropEvidence at some ⊢
  cases baseline : input.graphBaseline with
  | some pairs =>
      simp only [baseline, graphEvidence, graphBaselineDrops] at some ⊢
      exact Nat.lt_of_lt_of_le some (List.length_filter_le _ _)
  | none =>
      simp only [baseline, ledgerEvidence] at some ⊢
      obtain ⟨drop, dropIn⟩ := List.exists_mem_of_length_pos some
      obtain ⟨⟨row, previous, present⟩, -⟩ := softDrop_cases rows input.scan drop dropIn
      have nonempty : drop.name ≠ "" := by
        obtain ⟨itemIn, -⟩ := List.mem_filter.mp dropIn
        obtain ⟨name, nameIn, found⟩ := List.mem_filterMap.mp itemIn
        rw [transitionOf_name rows input.scan name drop found]
        rcases List.mem_append.mp ((mem_sortedSet _ _).mp nameIn) with old | seen
        · simpa using (List.mem_filter.mp old).2
        · exact fun blank => named (blank ▸ seen)
      refine List.length_pos_of_mem (a := drop.name) (List.mem_filter.mpr ⟨?_, ?_⟩)
      · exact List.mem_dedup.mpr
          (mem_prevNames_of_prevRow rows drop.name nonempty row previous)
      · simp [previous, present]

theorem shippedAtHead_of_dropped (dropped : droppedNames input rows ≠ []) :
    input.shippedAtHead (classify rows input.scan) = input.headTreeModuleNames := by
  unfold droppedNames at dropped
  unfold IndexRun.shippedAtHead
  cases baseline : input.graphBaseline with
  | some pairs =>
      have nonempty : pairs ≠ [] := by
        intro nothing
        simp [baseline, nothing, graphBaselineDrops] at dropped
      simp [nonempty]
  | none =>
      simp only [baseline] at dropped
      have nonempty : (classify rows input.scan).softDrops ≠ [] := by
        intro nothing
        simp [nothing] at dropped
      simp [nonempty]

theorem nothingKept_iff (wiped : input.scan.presentNames = [])
    (dropped : droppedNames input rows ≠ []) (listed : input.headListed = true) :
    ((dropEvidence input rows).unproven = [] ∧ (dropEvidence input rows).nUnparseable = 0) ↔
      ∀ name ∈ droppedNames input rows,
        name ∉ input.headTree ∧ unparseable input.scan name = false := by
  have shipped := shippedAtHead_of_dropped input rows dropped
  have names : input.headTreeModuleNames = some input.headTree := by
    simp [IndexRun.headTreeModuleNames, listed]
  unfold dropEvidence droppedNames
  rw [shipped, names]
  cases baseline : input.graphBaseline with
  | some pairs =>
      have nowhere : ∀ drop, keyedElsewhere input.scan drop = false := by
        intro drop
        unfold keyedElsewhere
        rw [List.any_eq_false]
        intro group groupIn
        have empty : group.2.map (·.1) = [] := by
          unfold RegistryScan.presentNames at wiped
          exact List.flatMap_eq_nil_iff.mp wiped group groupIn
        simp [empty]
      simp only [graphEvidence, nowhere, Bool.not_false, List.filter_true, List.map_eq_nil_iff,
        List.length_eq_zero_iff, List.filter_eq_nil_iff, List.forall_mem_map, stillShipped,
        Bool.and_eq_true, Bool.not_eq_true', List.contains_iff_mem, not_and]
      constructor
      · rintro ⟨unproven, parsed⟩ drop dropIn
        have known : unparseable input.scan drop.2 = false := by simpa using parsed drop dropIn
        exact ⟨unproven drop dropIn known, known⟩
      · intro gone
        refine ⟨fun drop dropIn _ => (gone drop dropIn).1, fun drop dropIn => ?_⟩
        simp [(gone drop dropIn).2]
  | none =>
      simp only [ledgerEvidence, List.map_eq_nil_iff, List.length_eq_zero_iff,
        List.filter_eq_nil_iff, List.forall_mem_map, stillShipped, Bool.and_eq_true,
        beq_iff_eq, bne_iff_ne, not_and, not_not, List.contains_iff_mem]
      constructor
      · rintro ⟨unproven, vanished⟩ drop dropIn
        have after := vanished drop dropIn
        refine ⟨unproven drop dropIn after, ?_⟩
        obtain ⟨-, ⟨-, unseen⟩ | ⟨excluded, -⟩⟩ := softDrop_cases rows input.scan drop dropIn
        · have none : input.scan.excludedModule drop.name = none := by
            rw [← Option.not_isSome_iff_eq_none, excludedModule_isSome_iff]
            exact fun member => unseen (List.mem_append_right _ member)
          simp [unparseable, none]
        · rw [after] at excluded
          cases excluded
      · intro gone
        refine ⟨fun drop dropIn _ => (gone drop dropIn).1, fun drop dropIn => ?_⟩
        obtain ⟨-, ⟨after, -⟩ | ⟨-, unreadable⟩⟩ := softDrop_cases rows input.scan drop dropIn
        · exact after
        · rw [(gone drop dropIn).2] at unreadable
          cases unreadable

theorem massOk_iff (noBypass : input.allowMassRetire = false)
    (named : "" ∉ input.scan.observedNames) :
    (observeLifecycle input rows).gates.massOk = true ↔
      (TotalWipe input rows → WipeProven input rows) := by
  have gate := massGateTrips_totalWipe (dropEvidence input rows).nSoftDrop
    (dropEvidence input rows).nPresentBefore input.scan.presentNames.dedup.length
    (nPresentBefore_pos input rows named)
  have shape : massGateTrips (dropEvidence input rows).nSoftDrop
      (dropEvidence input rows).nPresentBefore input.scan.presentNames.dedup.length =
        some .totalWipe ↔ TotalWipe input rows := by
    rw [gate, nSoftDrop_eq, TotalWipe, List.length_eq_zero_iff, List.dedup_eq_nil, ne_eq,
      List.length_eq_zero_iff]
    exact and_comm
  have unfolded : (observeLifecycle input rows).gates.massOk =
      ((if massGateTrips (dropEvidence input rows).nSoftDrop
          (dropEvidence input rows).nPresentBefore
          input.scan.presentNames.dedup.length = some .totalWipe
        then wipeCause (dropEvidence input rows)
          (input.shippedAtHead (classify rows input.scan)) input.wipeInHistory
        else none).isNone || input.allowMassRetire) := rfl
  rw [unfolded, noBypass, Bool.or_false, Option.isNone_iff_eq_none]
  by_cases wipe : TotalWipe input rows
  · rw [if_pos (shape.mpr wipe), wipeCause_none_iff, shippedAtHead_of_dropped _ _ wipe.2]
    simp only [wipe, true_implies]
    constructor
    · rintro ⟨known, unproven, parsed, history⟩
      have listed : input.headListed = true := by
        by_contra unlisted
        simp [IndexRun.headTreeModuleNames, unlisted] at known
      exact ⟨listed, (nothingKept_iff input rows wipe.1 wipe.2 listed).mp ⟨unproven, parsed⟩,
        history⟩
    · rintro ⟨listed, gone, history⟩
      obtain ⟨unproven, parsed⟩ := (nothingKept_iff input rows wipe.1 wipe.2 listed).mpr gone
      exact ⟨by simp [IndexRun.headTreeModuleNames, listed], unproven, parsed, history⟩
  · rw [if_neg fun test => wipe (shape.mp test)]
    simp [wipe]

theorem mayRetry_blockedBy_iff (noBypass : input.allowMassRetire = false)
    (named : "" ∉ input.scan.observedNames) :
    reconcileMayRetry (blockedBy (observeLifecycle input rows).gates input.retire) = true ↔
      Retires input rows := by
  have scan := scanOk_iff input rows
  have mass := massOk_iff input rows noBypass named
  unfold blockedBy
  by_cases allowed : (observeLifecycle input rows).gates.retireAllowed = true
  · have both := allowed
    simp only [GateResult.retireAllowed, Bool.and_eq_true] at both
    have scanned := scan.mp both.1
    have judged := mass.mp both.2
    cases retire : input.retire with
    | true => simp [allowed, Retires, retire, scanned, reconcileMayRetry]; exact judged
    | false => simp [allowed, Retires, retire, reconcileMayRetry_noRetire]
  · simp only [allowed, Bool.not_false, if_true, reconcileMayRetry_gate, Bool.false_eq_true,
      false_iff]
    rintro ⟨-, trusted, complete, judged⟩
    refine allowed ?_
    simp [GateResult.retireAllowed, scan.mpr ⟨complete, trusted⟩, mass.mpr judged]

end Gates

section IndexRun
variable (input : IndexRun) (tables next : RewriteTables) (counters : LifecycleCounters)
  (name : String)

abbrev observation : LifecycleObservation :=
  observeLifecycle input (repoRows tables.ledger input.repoId)

theorem indexRun_calls (run : indexRun input tables = .ok (counters, next)) :
    ∃ observed result committed count cleared names applied pending,
      observedModules input.scan = .ok observed ∧
      commitObserved input.env tables.ledger input.repoId input.owningProfile
        input.scan.odooVersion input.currentHead observed none = .ok (result, committed) ∧
      clearNeedsRewrite input.env committed input.repoId
        (input.rewriteNames.filter input.written.contains) input.rewriteReadAt =
          .ok (count, cleared) ∧
      applyPendingRewrites input.env { tables with ledger := cleared } input.repoId
        input.scan.odooVersion input.scan.presentNames input.written input.rewriteReadAt =
          .ok (names, applied) ∧
      markRetirePending input.env applied.ledger input.repoId
        (absentNames (observation input tables)) "absent" (fun name => (input.removal name).1)
        (fun name => (input.removal name).2)
        (blockedBy (observation input tables).gates input.retire) =
          .ok (pending, next.ledger) := by
  unfold indexRun commitLifecycle at run
  obtain ⟨observed, observedRun, run⟩ := (bind_eq_ok _ _ _).mp run
  obtain ⟨⟨result, committed⟩, commitRun, run⟩ := (bind_eq_ok _ _ _).mp run
  obtain ⟨⟨count, cleared⟩, clearRun, run⟩ := (bind_eq_ok _ _ _).mp run
  obtain ⟨⟨names, applied⟩, applyRun, run⟩ := (bind_eq_ok _ _ _).mp run
  obtain ⟨⟨pending, flagged⟩, markRun, run⟩ := (bind_eq_ok _ _ _).mp run
  cases run
  exact ⟨observed, result, committed, count, cleared, names, applied, pending, observedRun,
    commitRun, clearRun, applyRun, markRun⟩

theorem indexRun_named (run : indexRun input tables = .ok (counters, next)) :
    "" ∉ input.scan.observedNames := by
  obtain ⟨observed, _, _, _, _, _, _, _, observedRun, -⟩ :=
    indexRun_calls input tables next counters run
  intro blank
  obtain ⟨module, -, unnamed⟩ :=
    List.mem_map.mp ((observedModules_names input.scan observed observedRun "").mpr blank)
  exact module.named unnamed

theorem indexRun_seen (run : indexRun input tables = .ok (counters, next))
    (seen : name ∈ input.scan.observedNames) :
    ¬ HandedToReconcile next.ledger input.repoId name := by
  obtain ⟨observed, result, committed, count, cleared, names, applied, pending, observedRun,
    commitRun, clearRun, applyRun, markRun⟩ := indexRun_calls input tables next counters run
  have isObserved := (observedModules_names input.scan observed observedRun name).mpr seen
  have unflagged := commitObserved_not_handed input.env tables.ledger input.repoId name
    _ _ _ observed none result committed isObserved commitRun
  have notAbsent : (absentNames (observation input tables)).contains name = false := by
    rw [contains_eq_false_iff]
    intro absent
    obtain ⟨item, itemIn, rfl⟩ := List.mem_map.mp absent
    have retired := List.mem_of_mem_filter itemIn
    exact retired_unseen _ _ item retired seen
  rw [handed_markRetirePending _ _ _ _ _ _ _ _ _ _ markRun, notAbsent]
  rw [hasRow_applyPendingRewrites _ _ _ _ _ _ _ _ _ _ _ _ applyRun,
    hasRow_clearNeedsRewrite _ _ _ _ _ _ _ _ _ _ clearRun]
  exact unflagged

theorem indexRun_unseen (run : indexRun input tables = .ok (counters, next))
    (unseen : name ∉ input.scan.observedNames) :
    HandedToReconcile next.ledger input.repoId name ↔
      HasRow (flaggedTest ((absentNames (observation input tables)).contains name)
        (blockedBy (observation input tables).gates input.retire))
        tables.ledger input.repoId name := by
  obtain ⟨observed, result, committed, count, cleared, names, applied, pending, observedRun,
    commitRun, clearRun, applyRun, markRun⟩ := indexRun_calls input tables next counters run
  have isUnseen : name ∉ observed.map (·.name) :=
    fun seen => unseen ((observedModules_names input.scan observed observedRun name).mp seen)
  rw [handed_markRetirePending _ _ _ _ _ _ _ _ _ _ markRun,
    hasRow_applyPendingRewrites _ _ _ _ _ _ _ _ _ _ _ _ applyRun,
    hasRow_clearNeedsRewrite _ _ _ _ _ _ _ _ _ _ clearRun,
    hasRow_commitObserved _ _ _ _ _ _ _ _ _ _ _ _ isUnseen commitRun]

theorem mem_absentNames_iff (noBypass : input.allowMassRetire = false)
    (unique : UniqueKey tables.ledger) (named : name ≠ "") (shipped : name ∈ input.headTree)
    (unseen : name ∉ input.scan.observedNames) (row : PresenceRow)
    (rowIn : row ∈ tables.ledger.rows) (key : hasKey input.repoId name row = true) :
    name ∈ absentNames (observation input tables) ↔
      ¬ (row.state = .retired ∨ Judged input row) := by
  have previous := prevRow_of_unique tables.ledger unique input.repoId name row rowIn key
  have retired := mem_retired_iff (repoRows tables.ledger input.repoId) input.scan name named
    unseen
  have judged : name ∈ (observation input tables).gates.keptNames ↔ Judged input row := by
    rw [mem_keptNames_iff input _ noBypass name]
    constructor
    · rintro ⟨reflected, drop, dropIn, -, rfl, -⟩
      obtain ⟨⟨known, knownPrevious, present⟩, -⟩ := softDrop_cases _ _ drop dropIn
      rw [previous] at knownPrevious
      cases knownPrevious
      exact ⟨present, reflected⟩
    · rintro ⟨present, reflected⟩
      refine ⟨reflected, goneTransition name row, ?_, rfl, rfl, ?_⟩
      · exact goneTransition_softDrop _ _ name named unseen row previous present
      · unfold stillShipped IndexRun.headTreeModuleNames
        cases input.headListed <;> simp [shipped]
  have splits : name ∈ absentNames (observation input tables) ↔
      name ∈ (classify (repoRows tables.ledger input.repoId) input.scan).retired.map (·.name) ∧
        name ∉ (observation input tables).gates.keptNames := by
    simp only [absentNames, List.mem_map, List.mem_filter, Bool.not_eq_true',
      contains_eq_false_iff]
    constructor
    · rintro ⟨item, ⟨itemIn, free⟩, rfl⟩
      exact ⟨⟨item, itemIn, rfl⟩, free⟩
    · rintro ⟨⟨item, itemIn, rfl⟩, free⟩
      exact ⟨item, ⟨itemIn, free⟩, rfl⟩
  rw [splits, retired, judged]
  constructor
  · rintro ⟨⟨known, knownPrevious, live⟩, free⟩
    rw [previous] at knownPrevious
    cases knownPrevious
    exact not_or.mpr ⟨live, free⟩
  · intro neither
    exact ⟨⟨row, previous, (not_or.mp neither).1⟩, (not_or.mp neither).2⟩

end IndexRun

/-- A name the HEAD tree still ships is kept from the reconcile exactly when
`StaysHome` says so. -/
theorem shipped_not_handed_iff (input : IndexRun) (tables next : RewriteTables)
    (counters : LifecycleCounters) (name : String)
    (run : indexRun input tables = .ok (counters, next))
    (noBypass : input.allowMassRetire = false) (unique : UniqueKey tables.ledger)
    (named : name ≠ "") (shipped : name ∈ input.headTree) :
    ¬ HandedToReconcile next.ledger input.repoId name ↔
      StaysHome input tables.ledger name := by
  by_cases seen : name ∈ input.scan.observedNames
  · exact iff_of_true (indexRun_seen input tables next counters name run seen) (Or.inl seen)
  · have blocked := mayRetry_blockedBy_iff input (repoRows tables.ledger input.repoId) noBypass
      (indexRun_named input tables next counters run)
    have flagged := mem_absentNames_iff input tables name noBypass unique named shipped seen
    rw [indexRun_unseen input tables next counters name run seen]
    have oneRow : ∀ row ∈ tables.ledger.rows, hasKey input.repoId name row = true →
        (flaggedTest ((absentNames (observation input tables)).contains name)
            (blockedBy (observation input tables).gates input.retire) row.state
            row.retirePending row.retireBlockedBy = true ↔
          ¬ (if row.state = .retired ∨ Judged input row then executable row = false
            else ¬ Retires input (repoRows tables.ledger input.repoId))) := by
      intro row rowIn key
      have absent := flagged row rowIn key
      by_cases kept : row.state = .retired ∨ Judged input row
      · have free : (absentNames (observation input tables)).contains name = false := by
          rw [contains_eq_false_iff]
          exact fun member => absent.mp member kept
        rw [if_pos kept, free]
        simp [flaggedTest, executable]
      · have taken : (absentNames (observation input tables)).contains name = true := by
          rw [List.contains_iff_mem]
          exact absent.mpr kept
        have live : row.state ≠ .retired := fun retired => kept (Or.inl retired)
        rw [if_neg kept, taken, not_not, ← blocked]
        simp [flaggedTest, live]
    constructor
    · intro safe
      refine Or.inr fun row rowIn key => ?_
      by_contra leak
      exact safe ⟨row, rowIn, key, (oneRow row rowIn key).mpr leak⟩
    · rintro (impossible | safe) ⟨row, rowIn, key, passes⟩
      · exact seen impossible
      · exact (oneRow row rowIn key).mp passes (safe row rowIn key)

def freeEnv : DbEnv :=
  { repos := fun id => some { id, url := "git@host:addons.git", branch := "17.0"
                              localPath := "/srv/addons" }
    now := 100, clock := 100, lockAcquired := fun _ => true
    mergeSourceOk := true, stampsOk := true }

/-- `sale` was indexed, then excluded because its manifest did not parse. -/
def unparseableRow : PresenceRow :=
  { id := 0, repoId := some 1, repoUrl := "git@host:addons.git", repoBasename := "addons"
    repoBranch := "17.0", profileName := "community", odooVersion := "17.0", name := "sale"
    path := "sale", manifestFile := "__manifest__.py", state := .excluded
    exclusionReason := some .unparseable, firstSeenSha := "c0", firstSeenAt := 1
    lastSeenSha := "c1", lastSeenAt := 2, updatedAt := 2 }

def unparseableTables : RewriteTables := ⟨⟨[unparseableRow], 1⟩, []⟩

/-- The next commit renames the manifest of `sale` to a file name the 17.0 scan does
not look for: HEAD still ships it, the complete scan sees only `base`. -/
def renamedManifestRun : IndexRun :=
  { env := freeEnv, repoId := 1, owningProfile := "community", currentHead := "c2"
    scan := { odooVersion := "17.0", branch := some "17.0"
              modules := [("17.0", [("base", ⟨"base", none, false⟩)])]
              excluded := [], shadowed := [], finderPaths := ["base/__manifest__.py"]
              untracked := [], missing := [], unreadable := [], complete := true }
    trusted := true, headTree := ["base", "sale"], headListed := true
    presenceHead := some "c1", lastHead := some "c1", isAncestor := fun _ _ => some true
    moduleBaseline := [], indexedNames := [], allowMassRetire := false, retire := true
    rewriteNames := [], written := [], rewriteReadAt := none
    removal := fun _ => (none, none), stampedNodes := 1, holdPresence := false }

def renamedManifestOutcome : LifecycleCounters × RewriteTables :=
  commitOrRollback (lifecycleCounters renamedManifestRun
    (observation renamedManifestRun unparseableTables).gates [], unparseableTables)
    (indexRun renamedManifestRun unparseableTables)

theorem renamedManifest_handed :
    ¬ ∀ (input : IndexRun) (tables next : RewriteTables) (counters : LifecycleCounters)
        (name : String), indexRun input tables = .ok (counters, next) →
      input.allowMassRetire = false → UniqueKey tables.ledger → name ∈ input.headTree →
        ¬ HandedToReconcile next.ledger input.repoId name := by
  intro claim
  refine claim renamedManifestRun unparseableTables renamedManifestOutcome.2
    renamedManifestOutcome.1 "sale" rfl rfl ?_ ?_ ?_
  · decide
  · decide
  · decide

theorem renamedManifest_not_handed_iff :
    ¬ HandedToReconcile renamedManifestOutcome.2.ledger 1 "sale" ↔
      StaysHome renamedManifestRun unparseableTables.ledger "sale" :=
  shipped_not_handed_iff renamedManifestRun unparseableTables renamedManifestOutcome.2
    renamedManifestOutcome.1 "sale" rfl rfl (by decide) (by decide) (by decide)

end OdooSemantic.Lifecycle.HeadTree
