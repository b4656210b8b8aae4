import OdooSemantic.Lifecycle.Commit

/-!
# What a run hands to the reconcile

A row the reconcile may execute is pending and not held by a gate or by
`--no-retire`.  The store calls of a ledger commit are followed one by one to
say exactly which rows are executable afterwards, and the gates are read back as
conditions on the inputs of the run.
-/

set_option autoImplicit false

namespace OdooSemantic.Lifecycle.Retirement

open Lib Lib.Py
open Ledger.Rows Ledger.Store Ledger.Rewrites
open Lifecycle.Gates Lifecycle.Commit

/-- A pending row no gate and no `--no-retire` holds. -/
def executable (row : PresenceRow) : Bool :=
  row.retirePending && reconcileMayRetry row.retireBlockedBy

def HandedToReconcile (ledger : LedgerTable) (repoId : Nat) (name : String) : Prop :=
  ∃ row ∈ ledger.rows, hasKey repoId name row = true ∧ executable row = true

instance (ledger : LedgerTable) (repoId : Nat) (name : String) :
    Decidable (HandedToReconcile ledger repoId name) :=
  inferInstanceAs (Decidable (∃ row ∈ ledger.rows, _ ∧ _))

section Store
variable (env : DbEnv) (ledger : LedgerTable) (repoId : Nat) (name : String)

def HasRow (test : PresenceState → Bool → Option String → Bool) (ledger : LedgerTable)
    (repoId : Nat) (name : String) : Prop :=
  ∃ row ∈ ledger.rows, hasKey repoId name row = true ∧
    test row.state row.retirePending row.retireBlockedBy = true

variable (test : PresenceState → Bool → Option String → Bool)

theorem hasRow_map (nextId : Nat) (set : PresenceRow → PresenceRow)
    (sameKey : ∀ row, hasKey repoId name (set row) = hasKey repoId name row)
    (sameTest : ∀ row, test (set row).state (set row).retirePending (set row).retireBlockedBy =
      test row.state row.retirePending row.retireBlockedBy) :
    HasRow test ⟨ledger.rows.map set, nextId⟩ repoId name ↔ HasRow test ledger repoId name := by
  constructor
  · rintro ⟨_, member, key, passes⟩
    obtain ⟨row, rowIn, rfl⟩ := List.mem_map.mp member
    rw [sameKey] at key
    rw [sameTest] at passes
    exact ⟨row, rowIn, key, passes⟩
  · rintro ⟨row, rowIn, key, passes⟩
    refine ⟨set row, List.mem_map_of_mem rowIn, ?_, ?_⟩
    · rw [sameKey]
      exact key
    · rw [sameTest]
      exact passes

theorem hasRow_updateWhere (guard : PresenceRow → Bool) (set : PresenceRow → PresenceRow)
    (sameKey : ∀ row, hasKey repoId name (set row) = hasKey repoId name row)
    (sameTest : ∀ row, test (set row).state (set row).retirePending (set row).retireBlockedBy =
      test row.state row.retirePending row.retireBlockedBy) :
    HasRow test (ledger.updateWhere guard set) repoId name ↔ HasRow test ledger repoId name := by
  refine hasRow_map ledger repoId name test ledger.nextId _ ?_ ?_
  · intro row
    by_cases selected : guard row = true
    · simpa [selected] using sameKey row
    · simp [selected]
  · intro row
    by_cases selected : guard row = true
    · simpa [selected] using sameTest row
    · simp [selected]

section CommitObserved
variable (profileName odooVersion headSha : String) (observed : List ObservedModule)
  (observedAt : Option Timestamp) (result : CommitObservedResult) (next : LedgerTable)

/-- A row a successful observation leaves is an inserted one, an old one whose
name it does not see, or an old one it updated. -/
theorem commitObserved_rows
    (run : commitObserved env ledger repoId profileName odooVersion headSha observed
      observedAt = .ok (result, next)) :
    ∃ (rewrite : PresenceRow → PresenceRow) (inserted : List PresenceRow),
      next.rows = ledger.rows.map rewrite ++ inserted ∧
      (∀ row ∈ inserted, row.retirePending = false ∧ row.name ∈ observed.map (·.name)) ∧
      ∀ row, hasKey repoId name (rewrite row) = hasKey repoId name row ∧
        (hasKey repoId name row = true →
          (name ∉ observed.map (·.name) ∧ rewrite row = row) ∨
          (name ∈ observed.map (·.name) ∧ (rewrite row).retirePending = false)) := by
  obtain ⟨-, repo, now, rfl⟩ := commitObserved_eq _ _ _ _ _ _ _ _ _ _ run
  refine ⟨_, _, rfl, ?_, ?_⟩
  · intro row member
    obtain ⟨⟨module, id⟩, pairIn, rfl⟩ := List.mem_map.mp member
    have moduleIn := List.mem_of_mem_filter (List.fst_mem_of_mem_zipIdx pairIn)
    exact ⟨rfl, List.mem_map_of_mem ((mem_inNameOrder _ _).mp moduleIn)⟩
  · intro row
    rcases Table.conflictUpdate_cases (fun (module : ObservedModule) row =>
        hasKey repoId module.name row) (fun module row => observedUpdate
          (observedInsert repo repoId profileName odooVersion headSha now row.id module) row)
        (inNameOrder observed) row with
      ⟨module, moduleIn, conflict, same⟩ | ⟨apart, same⟩
    · rw [same]
      refine ⟨rfl, fun key => Or.inr ⟨?_, rfl⟩⟩
      simp only [hasKey, Bool.and_eq_true, beq_iff_eq] at key conflict
      exact List.mem_map.mpr ⟨module, (mem_inNameOrder _ _).mp moduleIn,
        conflict.2.symm.trans key.2⟩
    · rw [same]
      refine ⟨rfl, fun key => Or.inl ⟨fun seen => ?_, rfl⟩⟩
      obtain ⟨module, moduleIn, rfl⟩ := List.mem_map.mp seen
      have conflict := apart module ((mem_inNameOrder _ _).mpr moduleIn)
      rw [key] at conflict
      cases conflict

/-- An observation leaves the names it does not see alone. -/
theorem hasRow_commitObserved (unseen : name ∉ observed.map (·.name))
    (run : commitObserved env ledger repoId profileName odooVersion headSha observed
      observedAt = .ok (result, next)) :
    HasRow test next repoId name ↔ HasRow test ledger repoId name := by
  obtain ⟨rewrite, inserted, rows, newRows, rewritten⟩ :=
    commitObserved_rows env ledger repoId name _ _ _ _ _ _ _ run
  have same : ∀ row, hasKey repoId name row = true → rewrite row = row := by
    intro row key
    rcases (rewritten row).2 key with ⟨-, same⟩ | ⟨seen, -⟩
    · exact same
    · exact absurd seen unseen
  constructor
  · rintro ⟨new, member, key, passes⟩
    rw [rows] at member
    rcases List.mem_append.mp member with old | fresh
    · obtain ⟨row, rowIn, rfl⟩ := List.mem_map.mp old
      rw [(rewritten row).1] at key
      rw [same row key] at passes
      exact ⟨row, rowIn, key, passes⟩
    · have observedName := (newRows new fresh).2
      simp only [hasKey, Bool.and_eq_true, beq_iff_eq] at key
      rw [key.2] at observedName
      exact absurd observedName unseen
  · rintro ⟨row, rowIn, key, passes⟩
    refine ⟨row, ?_, key, passes⟩
    rw [rows]
    exact List.mem_append_left _ (List.mem_map.mpr ⟨row, rowIn, same row key⟩)

theorem commitObserved_not_handed (seen : name ∈ observed.map (·.name))
    (run : commitObserved env ledger repoId profileName odooVersion headSha observed
      observedAt = .ok (result, next)) :
    ¬ HandedToReconcile next repoId name := by
  obtain ⟨rewrite, inserted, rows, newRows, rewritten⟩ :=
    commitObserved_rows env ledger repoId name _ _ _ _ _ _ _ run
  rintro ⟨new, member, key, flag⟩
  rw [rows] at member
  rcases List.mem_append.mp member with old | fresh
  · obtain ⟨row, -, rfl⟩ := List.mem_map.mp old
    rw [(rewritten row).1] at key
    rcases (rewritten row).2 key with ⟨unseen, -⟩ | ⟨-, cleared⟩
    · exact unseen seen
    · simp [executable, cleared] at flag
  · simp [executable, (newRows new fresh).1] at flag

end CommitObserved

theorem hasRow_clearNeedsRewrite (target : Nat) (names : List String)
    (readAt : Option Timestamp) (count : Nat) (next : LedgerTable)
    (run : clearNeedsRewrite env ledger target names readAt = .ok (count, next)) :
    HasRow test next repoId name ↔ HasRow test ledger repoId name := by
  unfold clearNeedsRewrite at run
  cases nothing : (sortedSet names).isEmpty with
  | true =>
      simp only [nothing, if_true] at run
      cases run
      exact Iff.rfl
  | false =>
      simp only [nothing, Bool.false_eq_true, if_false] at run
      obtain ⟨_, -, run⟩ := (bind_eq_ok _ _ _).mp run
      cases run
      exact hasRow_updateWhere ledger repoId name test _ _ (fun _ => rfl) (fun _ => rfl)

theorem hasRow_applyPendingRewrites (tables : RewriteTables) (target : Nat)
    (odooVersion : String) (names written : List String) (readAt : Option Timestamp)
    (applied : List String) (next : RewriteTables)
    (run : applyPendingRewrites env tables target odooVersion names written readAt =
      .ok (applied, next)) :
    HasRow test next.ledger repoId name ↔ HasRow test tables.ledger repoId name := by
  unfold applyPendingRewrites at run
  cases readAt with
  | none =>
      cases run
      exact Iff.rfl
  | some read =>
      simp only at run
      cases idle : ((sortedSet names).isEmpty || !env.stampsOk) with
      | true =>
          simp only [idle, if_true] at run
          cases run
          exact Iff.rfl
      | false =>
          simp only [idle, Bool.false_eq_true, if_false] at run
          obtain ⟨_, -, run⟩ := (bind_eq_ok _ _ _).mp run
          cases run
          refine hasRow_map tables.ledger repoId name test tables.ledger.nextId _ ?_ ?_
          · intro row
            unfold applyHits
            split <;> rfl
          · intro row
            unfold applyHits
            split <;> rfl

theorem hasRow_foldl_storeEvidence (evidence : String → Option RetireEvidence)
    (successors : String → Option Successor) (flagged : List String) :
    ∀ table : LedgerTable, HasRow test (flagged.foldl (fun table flag =>
        storeEvidence (hasKey repoId flag) (evidence flag) (successors flag) table) table)
        repoId name ↔ HasRow test table repoId name := by
  induction flagged with
  | nil => intro table; exact Iff.rfl
  | cons first rest ih =>
      intro table
      refine (ih _).trans (hasRow_updateWhere table repoId name test _ _ ?_ ?_)
      · intro row
        cases evidence first <;> cases successors first <;> rfl
      · intro row
        cases evidence first <;> cases successors first <;> rfl

def flaggedTest (flagged : Bool) (blocked : Option String) (state : PresenceState)
    (pending : Bool) (blockedBefore : Option String) : Bool :=
  if flagged && state != .retired then reconcileMayRetry blocked
  else pending && reconcileMayRetry blockedBefore

theorem handed_markRetirePending (names : List String)
    (evidence : String → Option RetireEvidence) (successors : String → Option Successor)
    (blocked : Option String) (pending : List String) (next : LedgerTable)
    (run : markRetirePending env ledger repoId names "absent" evidence successors blocked =
      .ok (pending, next)) :
    HandedToReconcile next repoId name ↔
      HasRow (flaggedTest (names.contains name) blocked) ledger repoId name := by
  unfold markRetirePending at run
  simp only [RetireReason.ofText] at run
  cases nothing : (sortedSet names).isEmpty with
  | true =>
      simp only [nothing, if_true] at run
      cases run
      have empty : names = [] := by simpa using nothing
      simp [empty, HandedToReconcile, HasRow, flaggedTest, executable]
  | false =>
      simp only [nothing, Bool.false_eq_true, if_false] at run
      obtain ⟨_, -, run⟩ := (bind_eq_ok _ _ _).mp run
      cases run
      refine (hasRow_foldl_storeEvidence repoId name
        (fun _ flag block => flag && reconcileMayRetry block) _ _ _ _).trans ?_
      have chosen : ∀ row : PresenceRow, hasKey repoId name row = true →
          retirable repoId (sortedSet names) row =
            (names.contains name && row.state != .retired) := by
        intro row key
        simp only [hasKey, Bool.and_eq_true, beq_iff_eq] at key
        rw [Bool.eq_iff_iff]
        simp [retirable, ofRepo, key.1, key.2]
      have keyed : ∀ row : PresenceRow, hasKey repoId name
          (if retirable repoId (sortedSet names) row
            then flagPending env.now .absent blocked row else row) =
          hasKey repoId name row := by
        intro row
        split <;> rfl
      constructor
      · rintro ⟨_, member, key, passes⟩
        obtain ⟨row, rowIn, rfl⟩ := List.mem_map.mp member
        rw [keyed] at key
        refine ⟨row, rowIn, key, ?_⟩
        rw [chosen row key] at passes
        unfold flaggedTest
        split at passes
        · rename_i selected
          rw [if_pos selected]
          simpa [flagPending] using passes
        · rename_i selected
          rw [if_neg selected]
          exact passes
      · rintro ⟨row, rowIn, key, passes⟩
        refine ⟨_, List.mem_map_of_mem rowIn, (keyed row).trans key, ?_⟩
        rw [chosen row key]
        unfold flaggedTest at passes
        split at passes
        · rename_i selected
          rw [if_pos selected]
          simpa [flagPending] using passes
        · rename_i selected
          rw [if_neg selected]
          exact passes

end Store

theorem module_isSome_iff (scan : RegistryScan) (name : String) :
    (scan.module name).isSome ↔ name ∈ scan.presentNames := by
  simp only [RegistryScan.module, RegistryScan.presentNames, List.findSome?_isSome_iff,
    List.lookup_isSome_iff, List.mem_flatMap, List.mem_map]
  constructor
  · rintro ⟨group, groupIn, known, knownIn, same⟩
    exact ⟨group, groupIn, known, knownIn, (beq_iff_eq.mp same).symm⟩
  · rintro ⟨group, groupIn, known, knownIn, same⟩
    exact ⟨group, groupIn, known, knownIn, beq_iff_eq.mpr same.symm⟩

theorem excludedModule_isSome_iff (scan : RegistryScan) (name : String) :
    (scan.excludedModule name).isSome ↔ name ∈ scan.excluded.map (·.1) := by
  simp only [RegistryScan.excludedModule, List.lookup_isSome_iff, List.mem_map]
  constructor
  · rintro ⟨known, knownIn, same⟩
    exact ⟨known, knownIn, (beq_iff_eq.mp same).symm⟩
  · rintro ⟨known, knownIn, same⟩
    exact ⟨known, knownIn, beq_iff_eq.mpr same.symm⟩

theorem nowState_eq_none_iff (scan : RegistryScan) (name : String) :
    nowState scan name = none ↔ name ∉ scan.observedNames := by
  unfold nowState RegistryScan.observedNames
  rw [List.mem_append, ← excludedModule_isSome_iff]
  by_cases present : name ∈ scan.presentNames
  · simp [present]
  · cases found : scan.excludedModule name <;> simp [present]

theorem make_name (name path manifestFile state : String) (reason versionRaw : Option String)
    (mismatch : Bool) (shadowed : List String) (observed : ObservedModule)
    (made : ObservedModule.make name path manifestFile state reason versionRaw mismatch
      shadowed = .ok observed) : observed.name = name := by
  unfold ObservedModule.make at made
  split at made
  · cases made
  · split at made
    · split at made <;> cases made
      rfl
    · split at made
      · split at made <;> cases made
        rfl
      · cases made

theorem observedPresent_name (scan : RegistryScan) (name : String) (observed : ObservedModule)
    (made : observedPresent scan name = .ok observed) : observed.name = name := by
  unfold observedPresent at made
  exact make_name _ _ _ _ _ _ _ _ _ made

theorem observedExcluded_name (scan : RegistryScan) (name : String) (known : ExcludedModule)
    (observed : ObservedModule) (made : observedExcluded scan name known = .ok observed) :
    observed.name = name := by
  unfold observedExcluded at made
  exact make_name _ _ _ _ _ _ _ _ _ made

theorem observedModules_names (scan : RegistryScan) (observed : List ObservedModule)
    (run : observedModules scan = .ok observed) (name : String) :
    name ∈ observed.map (·.name) ↔ name ∈ scan.observedNames := by
  unfold observedModules at run
  obtain ⟨present, presentRun, run⟩ := (bind_eq_ok _ _ _).mp run
  obtain ⟨excluded, excludedRun, run⟩ := (bind_eq_ok _ _ _).mp run
  cases run
  obtain ⟨presentSome, presentFrom⟩ := mapM_mem _ _ _ presentRun
  obtain ⟨excludedSome, excludedFrom⟩ := mapM_mem _ _ _ excludedRun
  rw [RegistryScan.observedNames, List.mem_append, List.map_append, List.mem_append]
  constructor
  · rintro (inPresent | inExcluded)
    · obtain ⟨module, moduleIn, rfl⟩ := List.mem_map.mp inPresent
      obtain ⟨source, sourceIn, made⟩ := presentFrom module moduleIn
      rw [observedPresent_name _ _ _ made]
      exact Or.inl ((mem_sortedSet _ _).mp sourceIn)
    · obtain ⟨module, moduleIn, rfl⟩ := List.mem_map.mp inExcluded
      obtain ⟨source, sourceIn, made⟩ := excludedFrom module moduleIn
      rw [observedExcluded_name _ _ _ _ made]
      have member := List.mem_of_mem_filter ((List.mem_insertionSort _).mp sourceIn)
      exact Or.inr (List.mem_map_of_mem member)
  · intro seen
    by_cases here : name ∈ scan.presentNames
    · obtain ⟨module, moduleIn, made⟩ := presentSome name ((mem_sortedSet _ _).mpr here)
      exact Or.inl (List.mem_map.mpr ⟨module, moduleIn, observedPresent_name _ _ _ made⟩)
    · obtain ⟨pair, pairIn, rfl⟩ := List.mem_map.mp (seen.resolve_left here)
      have gone : (scan.module pair.1).isNone = true := by
        rw [Option.isNone_iff_eq_none, ← Option.not_isSome_iff_eq_none, module_isSome_iff]
        exact here
      obtain ⟨module, moduleIn, made⟩ := excludedSome pair
        ((List.mem_insertionSort _).mpr (List.mem_filter.mpr ⟨pairIn, gone⟩))
      exact Or.inr (List.mem_map.mpr ⟨module, moduleIn, observedExcluded_name _ _ _ _ made⟩)

section Transitions
variable (rows : List PresenceRow) (scan : RegistryScan)

/-- The three ways a name moves. -/
theorem transitionOf_cases (name : String) (item : Transition)
    (found : transitionOf rows scan name = some item) :
    (∃ now, prevRow rows name = none ∧ nowState scan name = some now ∧
        item = addedTransition name now) ∨
      (∃ row now, prevRow rows name = some row ∧ nowState scan name = some now ∧
        item = seenTransition name row now) ∨
      (∃ row, prevRow rows name = some row ∧ nowState scan name = none ∧
        row.state ≠ .retired ∧ item = goneTransition name row) := by
  unfold transitionOf at found
  cases previous : prevRow rows name with
  | none =>
      cases now : nowState scan name with
      | none => simp [previous, now] at found
      | some seen =>
          simp only [previous, now, Option.some.injEq] at found
          exact Or.inl ⟨seen, rfl, rfl, found.symm⟩
  | some row =>
      cases now : nowState scan name with
      | none =>
          simp only [previous, now] at found
          by_cases retired : row.state = .retired
          · simp [retired] at found
          · simp only [retired, if_false, Option.some.injEq] at found
            exact Or.inr (Or.inr ⟨row, rfl, rfl, retired, found.symm⟩)
      | some seen =>
          simp only [previous, now, Option.some.injEq] at found
          exact Or.inr (Or.inl ⟨row, seen, rfl, rfl, found.symm⟩)

theorem transitionOf_name (name : String) (item : Transition)
    (found : transitionOf rows scan name = some item) : item.name = name := by
  rcases transitionOf_cases rows scan name item found with
    ⟨now, -, -, rfl⟩ | ⟨row, now, -, -, rfl⟩ | ⟨row, -, -, -, rfl⟩ <;> rfl

theorem mem_prevNames_of_prevRow (name : String) (named : name ≠ "") (row : PresenceRow)
    (found : prevRow rows name = some row) : name ∈ prevNames rows := by
  have member := List.mem_of_getLast? found
  obtain ⟨rowIn, same⟩ := List.mem_filter.mp member
  rw [beq_iff_eq] at same
  refine List.mem_filter.mpr ⟨List.mem_map.mpr ⟨row, rowIn, same⟩, ?_⟩
  simpa using named

theorem mem_items_iff (item : Transition) (named : item.name ≠ "") :
    item ∈ (classify rows scan).items ↔
      transitionOf rows scan item.name = some item := by
  simp only [classify, List.mem_filterMap, mem_sortedSet]
  constructor
  · rintro ⟨name, -, found⟩
    rw [transitionOf_name rows scan name item found]
    exact found
  · intro found
    refine ⟨item.name, List.mem_append.mpr ?_, found⟩
    by_cases seen : item.name ∈ scan.observedNames
    · exact Or.inr seen
    · left
      have unseen := (nowState_eq_none_iff scan item.name).mpr seen
      cases previous : prevRow rows item.name with
      | none => simp [transitionOf, previous, unseen] at found
      | some row => exact mem_prevNames_of_prevRow rows item.name named row previous

theorem mem_retired_iff (name : String) (named : name ≠ "")
    (unseen : name ∉ scan.observedNames) :
    name ∈ (classify rows scan).retired.map (·.name) ↔
      ∃ row, prevRow rows name = some row ∧ row.state ≠ .retired := by
  have now := (nowState_eq_none_iff scan name).mpr unseen
  constructor
  · intro member
    obtain ⟨item, itemIn, rfl⟩ := List.mem_map.mp member
    have found := (mem_items_iff rows scan item named).mp (List.mem_of_mem_filter itemIn)
    rcases transitionOf_cases rows scan item.name item found with
      ⟨seen, -, observed, -⟩ | ⟨row, seen, -, observed, -⟩ | ⟨row, previous, -, live, -⟩
    · rw [now] at observed
      cases observed
    · rw [now] at observed
      cases observed
    · exact ⟨row, previous, live⟩
  · rintro ⟨row, previous, live⟩
    have found : transitionOf rows scan name = some (goneTransition name row) := by
      simp [transitionOf, previous, now, live]
    refine List.mem_map.mpr ⟨goneTransition name row, List.mem_filter.mpr ⟨?_, ?_⟩, rfl⟩
    · exact (mem_items_iff rows scan (goneTransition name row) named).mpr found
    · simp [Transition.kind, goneTransition, live]

theorem retired_unseen (item : Transition) (itemIn : item ∈ (classify rows scan).retired) :
    item.name ∉ scan.observedNames := by
  obtain ⟨inItems, kind⟩ := List.mem_filter.mp itemIn
  obtain ⟨name, -, found⟩ := List.mem_filterMap.mp inItems
  rcases transitionOf_cases rows scan name item found with
    ⟨seen, -, -, rfl⟩ | ⟨row, seen, -, now, rfl⟩ | ⟨row, -, now, -, rfl⟩
  · simp [Transition.kind, addedTransition] at kind
  · have live : seen.1 ≠ .retired := by
      unfold nowState at now
      by_cases present : scan.presentNames.contains name = true
      · rw [if_pos present] at now
        cases now
        simp
      · rw [if_neg present] at now
        obtain ⟨known, -, rfl⟩ := Option.map_eq_some_iff.mp now
        simp
    cases before : row.state <;> cases after : seen.1 <;>
      simp [Transition.kind, seenTransition, before, after] at kind live
  · exact (nowState_eq_none_iff scan name).mp now

theorem softDrop_cases (item : Transition)
    (drop : item ∈ (classify rows scan).softDrops) :
    (∃ row, prevRow rows item.name = some row ∧ row.state = .present) ∧
      ((item.after = .retired ∧ item.name ∉ scan.observedNames) ∨
        (item.after = .excluded ∧ unparseable scan item.name = true)) := by
  obtain ⟨itemIn, soft⟩ := List.mem_filter.mp drop
  obtain ⟨name, -, found⟩ := List.mem_filterMap.mp itemIn
  rcases transitionOf_cases rows scan name item found with
    ⟨seen, -, -, rfl⟩ | ⟨row, seen, previous, now, rfl⟩ | ⟨row, previous, now, -, rfl⟩
  · simp [Transition.isSoftDrop, addedTransition] at soft
  · simp only [Transition.isSoftDrop, seenTransition, Bool.and_eq_true, beq_iff_eq,
      Bool.or_eq_true, Option.some.injEq] at soft
    refine ⟨⟨row, previous, soft.1⟩, Or.inr ?_⟩
    unfold nowState at now
    by_cases present : scan.presentNames.contains name = true
    · rw [if_pos present] at now
      cases now
      simp at soft
    · rw [if_neg present] at now
      obtain ⟨known, knownIn, rfl⟩ := Option.map_eq_some_iff.mp now
      have why : known.reason = .unparseable := by simpa using soft.2
      exact ⟨rfl, by simp [unparseable, seenTransition, knownIn, why]⟩
  · simp only [Transition.isSoftDrop, goneTransition, Bool.and_eq_true, beq_iff_eq,
      Option.some.injEq] at soft
    exact ⟨⟨row, previous, soft.1⟩, Or.inl ⟨rfl, (nowState_eq_none_iff scan name).mp now⟩⟩

theorem goneTransition_softDrop (name : String) (named : name ≠ "")
    (unseen : name ∉ scan.observedNames) (row : PresenceRow)
    (previous : prevRow rows name = some row) (present : row.state = .present) :
    goneTransition name row ∈ (classify rows scan).softDrops := by
  have now := (nowState_eq_none_iff scan name).mpr unseen
  have found : transitionOf rows scan name = some (goneTransition name row) := by
    simp [transitionOf, previous, now, present]
  refine List.mem_filter.mpr ⟨?_, ?_⟩
  · exact (mem_items_iff rows scan (goneTransition name row) named).mpr found
  · simp [Transition.isSoftDrop, goneTransition, present]

end Transitions

end OdooSemantic.Lifecycle.Retirement
