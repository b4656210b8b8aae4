import OdooSemantic.Reconcile.Kept

/-!
# What the pending step hands to the retire step

The reads of a decision see the ledger after the outcomes of the names before
it; the decision is related to the ledger at the start of the pass, which the
rows of the pass were read from.
-/

set_option autoImplicit false

namespace OdooSemantic.Reconcile.Decisions

open Lib Lib.Action Lib.Py
open Ledger.Rows Ledger.Store Ledger.Ownership
open Lifecycle.Gates Reconcile.Stores Reconcile.Pending
open Reconcile.Kept

theorem ne_nil_of_filled {α : Type} {items : List α} (filled : (!items.isEmpty) = true) :
    items ≠ [] := by
  rintro rfl
  cases filled

section PotentialOwners
variable (input : PassInput) (name : String)

/-- What the checkout of a never observed repository says about the name. -/
def shipsVerdict (repo : Repo) : Option PotentialOwnerWhy :=
  if hasCheckout input repo then
    verdict name (trackedModuleNames (input.checkout repo.id) input.odooVersion)
  else none

def Consistent (cache : TrackedCache) : Prop :=
  ∀ entry ∈ cache, entry.2 = trackedModuleNames (input.checkout entry.1) input.odooVersion

theorem consistent_nil : Consistent input [] :=
  fun _ member => absurd member List.not_mem_nil

theorem checkoutVerdict_eq (cache : TrackedCache) (consistent : Consistent input cache)
    (repo : Repo) :
    (checkoutVerdict input name cache repo).1 = shipsVerdict input name repo ∧
      Consistent input (checkoutVerdict input name cache repo).2 := by
  unfold checkoutVerdict shipsVerdict
  by_cases has : hasCheckout input repo = true
  · rw [if_pos has, if_pos has]
    unfold readTracked
    cases found : cache.lookup repo.id with
    | some known =>
        obtain ⟨before, after, split, -⟩ := List.lookup_eq_some_iff.mp found
        have knownIn : (repo.id, known) ∈ cache := by rw [split]; simp
        have same : known = trackedModuleNames (input.checkout repo.id) input.odooVersion :=
          consistent (repo.id, known) knownIn
        exact ⟨congrArg (verdict name) same, consistent⟩
    | none =>
        refine ⟨rfl, fun entry member => ?_⟩
        rcases List.mem_cons.mp member with rfl | old
        · rfl
        · exact consistent entry old
  · rw [if_neg has, if_neg has]
    exact ⟨rfl, consistent⟩

def Harmless (excluded : List Nat) (candidate : Repo × PotentialOwnerWhy) : Prop :=
  candidate.1.id ∈ excluded ∨
    (candidate.2 = .neverSynced ∧ shipsVerdict input name candidate.1 = none)

theorem blockersAmong_spec (excluded : List Nat) (candidates : List (Repo × PotentialOwnerWhy)) :
    ∀ cache, Consistent input cache →
      Consistent input (blockersAmong input name excluded candidates cache).2 ∧
        ((blockersAmong input name excluded candidates cache).1 = [] ↔
          ∀ candidate ∈ candidates, Harmless input name excluded candidate) := by
  induction candidates with
  | nil =>
      intro cache consistent
      simp [blockersAmong, consistent]
  | cons candidate rest ih =>
      intro cache consistent
      obtain ⟨repo, why⟩ := candidate
      unfold blockersAmong
      by_cases leftOut : repo.id ∈ excluded
      · simpa [leftOut, Harmless] using ih cache consistent
      · rw [if_neg (by simpa using leftOut)]
        by_cases observed : why = .neverSynced
        · rw [if_neg (by simpa using observed)]
          obtain ⟨direct, after⟩ := checkoutVerdict_eq input name cache consistent repo
          obtain ⟨stays, none⟩ := ih _ after
          refine ⟨stays, ?_⟩
          simp [direct, none, Harmless, leftOut, observed]
        · rw [if_pos observed]
          obtain ⟨stays, -⟩ := ih cache consistent
          refine ⟨stays, ?_⟩
          simp [Harmless, leftOut, observed]

end PotentialOwners

section Reads
variable {odooVersion : String} {permit : Permit} {start current : LedgerTable}

theorem any_kept (kept : LedgerKept odooVersion permit start current) (test : PresenceRow → Bool)
    (same : ∀ old new, RowKept odooVersion permit old new → test new = test old) :
    current.rows.any test = start.rows.any test := by
  rw [Bool.eq_iff_iff, List.any_eq_true, List.any_eq_true]
  constructor
  · rintro ⟨new, newIn, holds⟩
    obtain ⟨old, oldIn, related⟩ := kept.origin newIn
    exact ⟨old, oldIn, (same old new related).symm.trans holds⟩
  · rintro ⟨old, oldIn, holds⟩
    obtain ⟨new, newIn, related⟩ := kept.survives oldIn
    exact ⟨new, newIn, (same old new related).trans holds⟩

theorem atVersion_kept (kept : LedgerKept odooVersion permit start current) (version : String)
    (repo : Repo) : repo.atVersion current version = repo.atVersion start version := by
  unfold Repo.atVersion hasRowAt
  rw [any_kept kept]
  intro old new related
  simp [ofRepo, related.1.repoId, related.1.odooVersion]

theorem neverObserved_kept (kept : LedgerKept odooVersion permit start current) (repo : Repo) :
    neverObserved current repo = neverObserved start repo := by
  unfold neverObserved
  rw [any_kept kept]
  intro old new related
  simp [ofRepo, related.1.repoId]

theorem potentialOwner_kept (kept : LedgerKept odooVersion permit start current) (name : String)
    (repo : Repo) (why : PotentialOwnerWhy)
    (candidate : potentialOwner start name odooVersion repo = some why) :
    (∃ row ∈ start.rows, hasKey repo.id name row = true ∧ eligible odooVersion row = true) ∨
      potentialOwner current name odooVersion repo = some why := by
  unfold potentialOwner at candidate ⊢
  rw [atVersion_kept kept, neverObserved_kept kept]
  by_cases open' : (repo.atVersion start odooVersion && !repo.synced) = true
  · rw [if_pos open'] at candidate ⊢
    by_cases had : lastHadName start name odooVersion repo = true
    · rw [if_pos had] at candidate
      obtain ⟨row, rowIn, holds⟩ := List.any_eq_true.mp had
      simp only [Bool.and_eq_true] at holds
      by_cases may : eligible odooVersion row = true
      · exact Or.inl ⟨row, rowIn, holds.1.1, may⟩
      · right
        obtain ⟨new, newIn, same, ⟨still, -⟩ | ⟨executed, -⟩⟩ := kept.survives rowIn
        · have has : lastHadName current name odooVersion repo = true := by
            refine List.any_eq_true.mpr ⟨new, newIn, ?_⟩
            simpa [hasKey, same.repoId, same.name, same.odooVersion, still.state] using holds
          rw [if_pos has]
          exact candidate
        · exact absurd executed.eligible may
    · right
      rw [if_neg had] at candidate
      split at candidate
      · rename_i never
        have nothing : lastHadName current name odooVersion repo = false := by
          have unobserved := neverObserved_kept kept repo
          rw [never] at unobserved
          simp only [neverObserved, Bool.and_eq_true, Bool.not_eq_true',
            List.any_eq_false] at unobserved
          refine List.any_eq_false.mpr fun row rowIn holds => ?_
          simp only [hasKey, Bool.and_eq_true] at holds
          exact unobserved.2 row rowIn holds.1.1.1
        rw [nothing, if_neg Bool.false_ne_true, if_pos never]
        exact candidate
      · cases candidate
  · rw [if_neg open'] at candidate
    cases candidate

theorem potentialOwner_origin (kept : LedgerKept odooVersion permit start current) (name : String)
    (repo : Repo) (why : PotentialOwnerWhy)
    (candidate : potentialOwner current name odooVersion repo = some why) :
    potentialOwner start name odooVersion repo = some why := by
  have hadBefore : lastHadName current name odooVersion repo = true →
      lastHadName start name odooVersion repo = true := by
    intro has
    obtain ⟨new, newIn, holds⟩ := List.any_eq_true.mp has
    obtain ⟨old, oldIn, same, ⟨still, -⟩ | ⟨executed, -⟩⟩ := kept.origin newIn
    · refine List.any_eq_true.mpr ⟨old, oldIn, ?_⟩
      simpa [hasKey, same.repoId, same.name, same.odooVersion, still.state] using holds
    · simp [executed.retired] at holds
  unfold potentialOwner at candidate ⊢
  rw [atVersion_kept kept, neverObserved_kept kept] at candidate
  by_cases open' : (repo.atVersion start odooVersion && !repo.synced) = true
  · rw [if_pos open'] at candidate ⊢
    by_cases has : lastHadName current name odooVersion repo = true
    · rw [if_pos has] at candidate
      rw [if_pos (hadBefore has)]
      exact candidate
    · rw [if_neg has] at candidate
      by_cases never : neverObserved start repo = true
      · rw [if_pos never] at candidate
        have nothing : lastHadName start name odooVersion repo = false := by
          simp only [neverObserved, Bool.and_eq_true, Bool.not_eq_true',
            List.any_eq_false] at never
          refine List.any_eq_false.mpr fun row rowIn holds => ?_
          simp only [hasKey, Bool.and_eq_true] at holds
          exact never.2 row rowIn holds.1.1.1
        rw [nothing, if_neg Bool.false_ne_true, if_pos never]
        exact candidate
      · rw [if_neg never] at candidate
        cases candidate
  · rw [if_neg open'] at candidate
    cases candidate

theorem presentOwner_kept (kept : LedgerKept odooVersion permit start current) (name : String)
    (row : PresenceRow) (rowIn : row ∈ start.rows)
    (owner : presentOwner name odooVersion row = true)
    (notEligible : ¬ eligible odooVersion row = true) :
    ∃ new ∈ otherPresentOwners current name odooVersion, new.repoId = row.repoId := by
  obtain ⟨new, newIn, same, ⟨still, -⟩ | ⟨executed, -⟩⟩ := kept.survives rowIn
  · refine ⟨new, (List.mem_insertionSort _).mpr (List.mem_filter.mpr ⟨newIn, ?_⟩),
      same.repoId⟩
    simpa [presentOwner, same.name, same.odooVersion, same.repoId, still.state] using owner
  · exact absurd executed.eligible notEligible

theorem presentOwner_origin (kept : LedgerKept odooVersion permit start current) (name : String)
    (new : PresenceRow) (newIn : new ∈ otherPresentOwners current name odooVersion) :
    ∃ row ∈ start.rows, presentOwner name odooVersion row = true ∧ new.repoId = row.repoId := by
  obtain ⟨inRows, owner⟩ := List.mem_filter.mp ((List.mem_insertionSort _).mp newIn)
  obtain ⟨row, rowIn, same, ⟨still, -⟩ | ⟨executed, -⟩⟩ := kept.origin inRows
  · refine ⟨row, rowIn, ?_, same.repoId⟩
    simpa [presentOwner, same.name, same.odooVersion, same.repoId, still.state] using owner
  · simp [presentOwner, executed.retired] at owner

end Reads

section Decision
variable (input : PassInput) (start : LedgerTable)

def eligibleRows (name : String) : List PresenceRow :=
  (rowsOf (consideredRows input start) name).filter fun row =>
    reconcileMayRetry row.retireBlockedBy

def retiringIds (name : String) : List Nat :=
  (eligibleRows input start name).filterMap (·.repoId)

def allowsName (name : String) : Prop :=
  input.onlyNames.all (fun names => names.contains name) = true

structure Approved (name : String) (rows : List PresenceRow) : Prop where
  enabled : input.retire = true
  executable : Executable input start name rows
  owners : ∀ row ∈ start.rows, presentOwner name input.odooVersion row = true → row ∈ rows
  unsynced : ∀ repo ∈ input.registry, ∀ why,
    potentialOwner start name input.odooVersion repo = some why →
      (∃ row ∈ rows, row.repoId = some repo.id) ∨
        (why = .neverSynced ∧ shipsVerdict input name repo = none)

/-- Every present row of a live repository for the name is eligible itself. -/
def Unowned (odooVersion name : String) (ledger : LedgerTable) : Prop :=
  ∀ row ∈ ledger.rows, presentOwner name odooVersion row = true →
    eligible odooVersion row = true

instance (odooVersion name : String) (ledger : LedgerTable) :
    Decidable (Unowned odooVersion name ledger) :=
  inferInstanceAs (Decidable (∀ row ∈ ledger.rows, _ → _))

/-- What the decisions so far have read and handed over; `more` is a further property of
what was handed over. -/
structure Decided (more : List (String × List PresenceRow) → Prop) (tracked : TrackedCache)
    (toRetire : List (String × List PresenceRow)) : Prop where
  consistent : Consistent input tracked
  rows : ∀ item ∈ toRetire, item.2 = eligibleRows input start item.1
  approved : ∀ item ∈ toRetire, Approved input start item.1 item.2
  more : more toRetire

variable {input} {permit : Permit} {start}

theorem Decided.handOver {more more' : List (String × List PresenceRow) → Prop}
    {tracked : TrackedCache} {toRetire : List (String × List PresenceRow)} {name : String}
    (decided : Decided input start more tracked toRetire)
    (found : Approved input start name (eligibleRows input start name))
    (grows : more' (toRetire ++ [(name, eligibleRows input start name)])) :
    Decided input start more' tracked (toRetire ++ [(name, eligibleRows input start name)]) := by
  refine ⟨decided.consistent, ?_, ?_, grows⟩
  · intro item member
    rcases List.mem_append.mp member with old | new
    · exact decided.rows item old
    · rw [List.mem_singleton.mp new]
  · intro item member
    rcases List.mem_append.mp member with old | new
    · exact decided.approved item old
    · rw [List.mem_singleton.mp new]
      exact found

theorem mem_consideredRows (row : PresenceRow) :
    row ∈ consideredRows input start ↔ row ∈ start.rows ∧
      row.odooVersion = input.odooVersion ∧ row.retirePending = true ∧
        allowsName input row.name := by
  simp [consideredRows, pendingRetirements, allowsName, and_assoc]

theorem mem_eligibleRows (name : String) (row : PresenceRow) :
    row ∈ eligibleRows input start name ↔ row ∈ start.rows ∧ row.name = name ∧
      eligible input.odooVersion row = true ∧ allowsName input name := by
  simp only [eligibleRows, rowsOf, List.mem_filter, mem_consideredRows, beq_iff_eq, eligible,
    Bool.and_eq_true]
  constructor
  · rintro ⟨⟨⟨rowIn, version, pending, allowed⟩, same⟩, retry⟩
    exact ⟨rowIn, same, ⟨⟨pending, version⟩, retry⟩, same ▸ allowed⟩
  · rintro ⟨rowIn, same, ⟨⟨pending, version⟩, retry⟩, allowed⟩
    exact ⟨⟨⟨rowIn, version, pending, same.symm ▸ allowed⟩, same⟩, retry⟩

theorem eligibleRows_executable (name : String)
    (nonempty : eligibleRows input start name ≠ []) :
    Executable input start name (eligibleRows input start name) where
  nonempty := nonempty
  known := fun row member => ((mem_eligibleRows name row).mp member).1
  named := fun row member => ((mem_eligibleRows name row).mp member).2.1
  eligible := fun row member => ((mem_eligibleRows name row).mp member).2.2.1

theorem mem_retiringIds (name : String) (repoId : Nat) :
    repoId ∈ retiringIds input start name ↔
      ∃ row ∈ eligibleRows input start name, row.repoId = some repoId := by
  simp [retiringIds, List.mem_filterMap]

theorem decideAll_keeps_of (inv : Pass → Prop)
    (each : ∀ name, allowsName input name → Keeps inv
      (decideName input name (rowsOf (consideredRows input start) name))) :
    Keeps inv (decideAll input (consideredRows input start)) := by
  unfold decideAll
  apply keeps_forEach
  intro name member
  obtain ⟨row, rowIn, same⟩ := List.mem_map.mp ((mem_sortedSet _ _).mp member)
  exact each name (same ▸ ((mem_consideredRows row).mp rowIn).2.2.2)

theorem approved (formed : WellFormed start) (current : LedgerTable)
    (kept : LedgerKept input.odooVersion permit start current) (name : String)
    (allowed : allowsName input name) (enabled : input.retire = true)
    (nonempty : eligibleRows input start name ≠ [])
    (unowned : ownersOutside input current name (retiringIds input start name) = [])
    (harmless : ∀ candidate ∈ potentialOwnersUnsynced input.registry current name
      input.odooVersion, Harmless input name (retiringIds input start name) candidate) :
    Approved input start name (eligibleRows input start name) where
  enabled := enabled
  executable := eligibleRows_executable name nonempty
  owners := by
    intro row rowIn owner
    have live := owner
    simp only [presentOwner, Bool.and_eq_true, beq_iff_eq] at live
    refine (mem_eligibleRows name row).mpr ⟨rowIn, live.1.1.1, ?_, allowed⟩
    by_contra notEligible
    obtain ⟨new, newIn, sameRepo⟩ := presentOwner_kept kept name row rowIn owner notEligible
    have retiring := List.filter_eq_nil_iff.mp unowned new newIn
    cases repo : row.repoId with
    | none =>
        rw [repo] at live
        cases live.2
    | some repoId =>
        simp only [sameRepo, repo, Option.any_some, Bool.not_eq_true', Bool.not_eq_false,
          List.contains_iff_mem, mem_retiringIds] at retiring
        obtain ⟨other, otherIn, otherRepo⟩ := retiring
        obtain ⟨inStart, otherName, may, -⟩ := (mem_eligibleRows name other).mp otherIn
        have same : row = other := formed.repoName row rowIn other inStart
          (repo.trans otherRepo.symm) (by rw [repo]; rfl) (live.1.1.1.trans otherName.symm)
        exact notEligible (same ▸ may)
  unsynced := by
    intro repo repoIn why candidate
    rcases potentialOwner_kept kept name repo why candidate with
      ⟨row, rowIn, key, may⟩ | still
    · simp only [hasKey, Bool.and_eq_true, beq_iff_eq] at key
      exact Or.inl ⟨row, (mem_eligibleRows name row).mpr ⟨rowIn, key.2, may, allowed⟩, key.1⟩
    · rcases harmless (repo, why)
        ((mem_potentialOwnersUnsynced _ _ _ _ _ _).mpr ⟨repoIn, still⟩) with retiring | never
      · exact Or.inl ((mem_retiringIds name repo.id).mp retiring)
      · exact Or.inr never

theorem ownersOutside_eq_nil (current : LedgerTable)
    (kept : LedgerKept input.odooVersion permit start current) (name : String)
    (allowed : allowsName input name) (unowned : Unowned input.odooVersion name start) :
    ownersOutside input current name (retiringIds input start name) = [] := by
  apply List.filter_eq_nil_iff.mpr
  intro new newIn
  obtain ⟨row, rowIn, owner, sameRepo⟩ := presentOwner_origin kept name new newIn
  have may := unowned row rowIn owner
  simp only [presentOwner, Bool.and_eq_true, beq_iff_eq] at owner
  cases repo : row.repoId with
  | none =>
      rw [repo] at owner
      cases owner.2
  | some repoId =>
      have retiring : repoId ∈ retiringIds input start name := (mem_retiringIds name repoId).mpr
        ⟨row, (mem_eligibleRows name row).mpr ⟨rowIn, owner.1.1.1, may, allowed⟩, repo⟩
      simpa [sameRepo, repo] using retiring

def DropFramed (input : PassInput) (permit : Permit) (start : LedgerTable)
    (extra : World → Prop) (name : String) : Prop :=
  Unowned input.odooVersion name start ∨
    (Framed input extra name ∧ ∀ row ∈ eligibleRows input start name, permit.executed row)

theorem decideName_keeps (formed : WellFormed start) {extra : World → Prop}
    {more : List (String × List PresenceRow) → Prop}
    (grows : ∀ toRetire item, more toRetire → more (toRetire ++ [item]))
    (frame : ∀ world ledger, extra world → extra { world with ledger }) (name : String)
    (drops : DropFramed input permit start extra name) (allowed : allowsName input name) :
    Keeps (Since input permit start extra (Decided input start more))
      (decideName input name (rowsOf (consideredRows input start) name)) := by
  have blockedAs : ∀ reason, Keeps (Since input permit start extra (Decided input start more))
      (note fun report => { report with blocked := report.blocked ++ [(name, reason)] }) :=
    fun reason => keeps_note _ fun _ named => ⟨named.retired, named.dropped⟩
  unfold decideName
  simp only
  apply keeps_andThen
  · split
    · exact keeps_done _
    · exact blockedAs _
  · intro _
    split
    · exact keeps_done _
    · rename_i some
      have nonempty : eligibleRows input start name ≠ [] := by
        simpa [eligibleRows, List.isEmpty_iff] using some
      have executable := eligibleRows_executable name nonempty
      split
      · split
        · exact blockedAs _
        · exact keeps_done _
      · rename_i enabled
        apply keeps_reading
        intro pass since
        obtain ⟨consistent, harmless⟩ := blockersAmong_spec input name
          (retiringIds input start name ++ (ownersOutside input pass.world.ledger name
            (retiringIds input start name)).filterMap (·.repoId))
          (potentialOwnersUnsynced input.registry pass.world.ledger name input.odooVersion)
          pass.tracked since.plan.consistent
        apply keeps_andThen
        · intro current holds
          exact ⟨holds.ledger, holds.report, holds.extra,
            ⟨consistent, holds.plan.rows, holds.plan.approved, holds.plan.more⟩⟩
        · intro _
          split
          · rename_i dropped
            rcases drops with unowned | ⟨framed, permitted⟩
            · have none : ownersOutside input pass.world.ledger name
                  (retiringIds input start name) = [] :=
                ownersOutside_eq_nil pass.world.ledger since.ledger name allowed unowned
              exact absurd none (ne_nil_of_filled (Bool.and_eq_true_iff.mp dropped).1)
            · exact dropOwner_keeps formed name framed _ _ executable permitted
          · rename_i notDropped
            split
            · exact holdUndecidable_keeps formed frame name _ executable _
            · rename_i free
              have noBlocker := free
              simp only [Bool.not_eq_true', Bool.not_eq_false, List.isEmpty_iff] at noBlocker
              have unowned := notDropped
              simp only [noBlocker, List.isEmpty_nil, Bool.and_true, Bool.not_eq_true',
                Bool.not_eq_false, List.isEmpty_iff] at unowned
              have all := harmless.mp noBlocker
              rw [show ownersOutside input pass.world.ledger name (retiringIds input start name)
                = [] from unowned, List.filterMap_nil, List.append_nil] at all
              have found := approved formed pass.world.ledger since.ledger name allowed
                (by simpa using enabled) nonempty unowned all
              intro current holds
              exact ⟨holds.ledger, holds.report, holds.extra,
                holds.plan.handOver found (grows _ _ holds.plan.more)⟩

end Decision

section PassResults
variable (input : PassInput) (world : World) (formed : WellFormed world.ledger)

def handedOver : List (String × List PresenceRow) :=
  (decideAll input (consideredRows input world.ledger) (Pass.start world)).2.toRetire

/-- Nothing is required of what was handed over. -/
abbrev DecidedOnly : TrackedCache → List (String × List PresenceRow) → Prop :=
  Decided input world.ledger fun _ => True

theorem since_start {permit : Permit} (held : ∀ row ∈ world.ledger.rows, permit.held row)
    {extra : World → Prop} (holds : extra world) :
    Since input permit world.ledger extra (DecidedOnly input world) (Pass.start world) where
  ledger := LedgerKept.refl world.ledger held
  report := ⟨fun _ member => absurd member List.not_mem_nil,
    fun _ member => absurd member List.not_mem_nil⟩
  extra := holds
  plan := ⟨consistent_nil input, fun _ member => absurd member List.not_mem_nil,
    fun _ member => absurd member List.not_mem_nil, trivial⟩

theorem framed_true (name : String) : Framed input (fun _ => True) name :=
  ⟨fun _ _ _ => trivial, fun _ _ _ _ => trivial, fun _ _ _ _ => trivial⟩

include formed

theorem decideAll_keeps {extra : World → Prop} (framed : ∀ name, Framed input extra name) :
    Keeps (Since input .all world.ledger extra (DecidedOnly input world))
      (decideAll input (consideredRows input world.ledger)) :=
  decideAll_keeps_of _ fun name allowed =>
    decideName_keeps formed (fun _ _ _ => trivial) (framed name).ledger name
      (Or.inr ⟨framed name, fun _ _ => trivial⟩) allowed

theorem pending_keeps {extra : World → Prop} (framed : ∀ name, Framed input extra name)
    (graph : ∀ names point,
      Keeps extra (retireModules input.odooVersion names input.runStartedAt point)) :
    Keeps (Since input .all world.ledger extra (DecidedOnly input world))
      (andThen (decideAll input (consideredRows input world.ledger)) fun _ =>
        reading fun pass =>
          if pass.toRetire.isEmpty then done () else retire input pass.toRetire) := by
  apply keeps_andThen _ _ (decideAll_keeps input world formed framed)
  intro _
  apply keeps_reading
  intro pass since
  split
  · exact keeps_done _
  · exact retire_keeps formed pass.toRetire (framed "").ledger (graph _)
      (fun item _ => (framed item.1).embeddings)
      (fun item member => (since.plan.approved item member).executable)
      fun _ _ _ _ => trivial

theorem pending_since {extra : World → Prop} (framed : ∀ name, Framed input extra name)
    (graph : ∀ names point,
      Keeps extra (retireModules input.odooVersion names input.runStartedAt point))
    (holds : extra world) :
    Since input .all world.ledger extra (DecidedOnly input world)
      (pending input (Pass.start world)).2 :=
  pending_keeps input world formed framed graph (Pass.start world)
    (since_start input world (fun _ _ => trivial) holds)

theorem pending_ledger :
    Since input .all world.ledger (fun _ => True) (DecidedOnly input world)
      (pending input (Pass.start world)).2 :=
  pending_since input world formed (framed_true input) (fun _ _ _ _ => trivial) trivial

theorem held_row_stays (row : PresenceRow) (rowIn : row ∈ world.ledger.rows)
    (isHeld : held input.odooVersion row = true) :
    ∃ after ∈ (reconcilePass world input).ledger.rows, after.id = row.id ∧
      after.state = row.state ∧ after.retirePending = true ∧
        after.retireBlockedBy = row.retireBlockedBy := by
  have notEligible : eligible input.odooVersion row = false := by
    simp only [held, Bool.and_eq_true, Bool.not_eq_true'] at isHeld
    simp [eligible, isHeld]
  obtain ⟨after, afterIn, same, ⟨still, -⟩ | ⟨executed, -⟩⟩ :=
    (pending_ledger input world formed).ledger.survives rowIn
  · simp only [held, Bool.and_eq_true] at isHeld
    exact ⟨after, afterIn, same.id, still.state, still.pending.trans isHeld.1.1,
      still.blocked notEligible⟩
  · rw [executed.eligible] at notEligible
    cases notEligible

omit formed in
theorem not_eligible_of_all_held (name : String)
    (allHeld : ∀ row ∈ world.ledger.rows, row.name = name →
      row.odooVersion = input.odooVersion → row.retirePending = true →
        held input.odooVersion row = true) :
    ¬ ∃ row ∈ world.ledger.rows, row.name = name ∧ eligible input.odooVersion row = true := by
  intro free
  obtain ⟨row, rowIn, same, may⟩ := free
  simp only [eligible, Bool.and_eq_true, beq_iff_eq] at may
  have isHeld := allHeld row rowIn same may.1.2 may.1.1
  simp [held, may] at isHeld

/-- A name is handed to the retire step only when every present row of a live repository
is one of its eligible rows and no other potential owner is unsynced; held rows are left
alone, and a name whose pending rows are all held is neither retired nor dropped. -/
theorem handedOver_unowned :
    (∀ item ∈ handedOver input world, Approved input world.ledger item.1 item.2) ∧
      (∀ row ∈ world.ledger.rows, held input.odooVersion row = true →
        ∃ after ∈ (reconcilePass world input).ledger.rows, after.id = row.id ∧
          after.state = row.state ∧ after.retirePending = true ∧
            after.retireBlockedBy = row.retireBlockedBy) ∧
      ∀ name, (∀ row ∈ world.ledger.rows, row.name = name →
          row.odooVersion = input.odooVersion → row.retirePending = true →
            held input.odooVersion row = true) →
        name ∉ (handedOver input world).map (·.1) ∧
          name ∉ (pending input (Pass.start world)).2.report.retired ∧
            name ∉ (pending input (Pass.start world)).2.report.ownerDropped := by
  have decided := decideAll_keeps input world formed (framed_true input) (Pass.start world)
    (since_start input world (fun _ _ => trivial) trivial)
  have named := (pending_ledger input world formed).report
  refine ⟨decided.plan.approved, held_row_stays input world formed, fun name allHeld => ?_⟩
  have noRow := not_eligible_of_all_held input world name allHeld
  refine ⟨fun handed => ?_, fun retired => ?_, fun dropped => ?_⟩
  · obtain ⟨item, itemIn, rfl⟩ := List.mem_map.mp handed
    exact noRow (decided.plan.approved item itemIn).executable.hasRow
  · exact noRow (named.retired name retired)
  · exact noRow (named.dropped name dropped)

end PassResults

/-- `sale` of a repository at 17.0, pending. -/
def pendingSale (id repoId : Nat) (profileName : String) (blockedBy : Option String) :
    PresenceRow :=
  { id, repoId := some repoId, repoUrl := "git@host:" ++ profileName
    repoBasename := profileName, repoBranch := "17.0", profileName, odooVersion := "17.0"
    name := "sale", path := "sale", manifestFile := "__manifest__.py", state := .present
    retirePending := true, retirePendingReason := some .absent, retirePendingAt := some 2
    retireBlockedBy := blockedBy, firstSeenSha := "a1", firstSeenAt := 1, lastSeenSha := "a1"
    lastSeenAt := 1, updatedAt := 2 }

def saleNode (profile : List String) : ModuleNode :=
  { odooVersion := "17.0", name := "sale", profile, repos := profile, repo := "shop"
    path := "sale", repoId := some 1, repoUrl := none, lastSeenAt := some 1 }

def saleEmbedding (profileName : String) : EmbeddingRow :=
  { odooVersion := "17.0", module := "sale", profileName }

def passInput (faults : Faults) : PassInput :=
  { odooVersion := "17.0", runStartedAt := 10, retire := true, dryRun := false
    onlyNames := none
    db := { repos := fun _ => none, now := 20, clock := 20, lockAcquired := fun _ => true
            mergeSourceOk := true, stampsOk := true }
    registry := [], checkout := fun _ => ⟨false, none, none, none⟩
    observedHeads := fun _ => some "b2", storeErrorText := fun _ => "LifecycleLockTimeout"
    faults }

/-- Two repositories dropped `sale`; the scan of the second one tripped a gate. -/
def heldWorld : World :=
  { ledger := ⟨[pendingSale 0 1 "shop" none, pendingSale 1 2 "field" (some "gate:total_wipe")],
      2⟩
    modules := [saleNode ["field", "shop"]]
    children := []
    embeddings := [saleEmbedding "field", saleEmbedding "shop"] }

theorem held_row_stays_pending :
    ∃ after ∈ (reconcilePass heldWorld (passInput noFaults)).ledger.rows, after.id = 1 ∧
      after.state = .present ∧ after.retirePending = true ∧
        after.retireBlockedBy = some "gate:total_wipe" :=
  have formed : WellFormed heldWorld.ledger := by decide
  (handedOver_unowned (passInput noFaults) heldWorld formed).2.1
    (pendingSale 1 2 "field" (some "gate:total_wipe")) (by decide) (by decide)

def unsyncedShop : Repo :=
  { id := 1, url := "git@host:shop", branch := "17.0", localPath := "/srv/shop"
    headSha := some "b2", presenceHeadSha := some "a1", profileName := "shop"
    profileVersion := "17.0" }

/-- `sale` of an unsynced repository, of a deleted one, and excluded by a held one. -/
def leftoverWorld : World :=
  { ledger := ⟨[pendingSale 0 1 "shop" none,
      { pendingSale 1 2 "field" none with repoId := none, retirePending := false },
      { pendingSale 2 3 "lab" (some "gate:total_wipe") with
        state := .excluded, exclusionReason := some .installableFalse }], 3⟩
    modules := [saleNode ["shop"]]
    children := []
    embeddings := [] }

def leftoverInput : PassInput :=
  { passInput noFaults with registry := [unsyncedShop] }

/-- A name with a held row is dropped from another repository; and a name is retired
beside a present row of a deleted repository, an excluded row a gate holds, and while
the retiring repository is unsynced itself. -/
theorem held_name_dropped :
    WellFormed heldWorld.ledger ∧
      (∃ row ∈ heldWorld.ledger.rows, row.name = "sale" ∧ held "17.0" row = true) ∧
      (pending (passInput noFaults) (Pass.start heldWorld)).2.report.ownerDropped = ["sale"] ∧
      WellFormed leftoverWorld.ledger ∧
      handedOver leftoverInput leftoverWorld = [("sale", [pendingSale 0 1 "shop" none])] ∧
      (∃ row ∈ leftoverWorld.ledger.rows, row.name = "sale" ∧ row.state = .present ∧
        row ∉ [pendingSale 0 1 "shop" none]) ∧
      (∃ row ∈ leftoverWorld.ledger.rows, row.name = "sale" ∧ held "17.0" row = true) ∧
      potentialOwner leftoverWorld.ledger "sale" "17.0" unsyncedShop = some .hadName := by
  decide +kernel

end OdooSemantic.Reconcile.Decisions
