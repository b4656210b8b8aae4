import OdooSemantic.Reconcile.Finishing
import OdooSemantic.Lib.Run

/-!
# Retirement over several passes

A pending row becomes retired only when the nodes of its name and the
embeddings of every profile that owned them are gone, as long as each pass of
the version settles the name; a pass without a fault retires what is left.
-/

set_option autoImplicit false

namespace OdooSemantic.Reconcile.Passes

open Lib Lib.Action Lib.Py Lib.Run
open Ledger.Rows Ledger.Store Ledger.Ownership
open Lifecycle.Gates Reconcile.Stores Reconcile.Pending
open Reconcile.Kept Reconcile.Decisions
open Reconcile.Cascade Reconcile.Retry
open Reconcile.Finishing

section OnePass
variable (input : PassInput) (world : World) (name : String) (gone : List String)

def knownProfiles : List String :=
  moduleProfiles world input.odooVersion name ++ rowProfiles name world input

/-- What a pass that settles the name leaves of it: the nodes as they were; or no row
executed and every owner among the rows; or no node and no embedding of a known profile. -/
def Outcome (pass : Pass) : Prop :=
  Mid input world.ledger name (untouched name)
      (fun nodes => nodes = nodesOf input.odooVersion name world) gone pass ∨
    (RowsCoverNode name world input ∧
      Mid input world.ledger name (untouched name) (fun _ => True) gone pass) ∨
    (allowsName input name ∧ Mid input world.ledger name .all (fun nodes => nodes = [])
      (knownProfiles input world name ++ gone) pass)

def Deciding (current : World) : Prop :=
  Trail input.odooVersion name (fun nodes => nodes = nodesOf input.odooVersion name world) gone
    current ∧ Stamped world current

variable {input} {world} {name} {gone}

theorem Deciding.profiles {current : World} (deciding : Deciding input world name gone current) :
    moduleProfiles current input.odooVersion name = moduleProfiles world input.odooVersion name := by
  have same : nodesOf input.odooVersion name current = nodesOf input.odooVersion name world :=
    deciding.1.nodes
  unfold nodesOf at same
  unfold moduleProfiles
  rw [same]

section Named
variable (formed : WellFormed world.ledger) (retirable : retirableName name = true)
  (toRetire : List (String × List PresenceRow))
  (rows : ∀ item ∈ toRetire, item.2 = eligibleRows input world.ledger item.1)
  (approved : ∀ item ∈ toRetire, Approved input world.ledger item.1 item.2)
  (executes : input.execute = true)
  (member : name ∈ toRetire.map (·.1))
include formed retirable toRetire approved executes member

/-- A name that was written again is skipped. -/
theorem retire_recent
    (late : recent input.odooVersion name input.runStartedAt world = true) :
    Meets (Since input (untouched name) world.ledger (Deciding input world name gone)
        (Decided input world.ledger fun _ => True))
      (retire input toRetire) (fun _ => Outcome input world name gone) := by
  rw [recent_eq] at late
  apply retire_outcome formed
    (Trail input.odooVersion name (fun nodes => nodes = nodesOf input.odooVersion name world) gone)
    (fun skipped current => Trail input.odooVersion name
      (fun nodes => nodes = nodesOf input.odooVersion name world) gone current ∧ name ∈ skipped)
    toRetire executes fun item itemIn => (approved item itemIn).executable
  · intro _ current deciding
    have skips := retried_recent input.faults.retire retryAttempts _ late member retirable current
      deciding.1.nodes
    have kept : Trail input.odooVersion name
        (fun nodes => nodes = nodesOf input.odooVersion name world) gone
        (retrying (retireModules input.odooVersion (toRetire.map (·.1)) input.runStartedAt)
          retryAttempts input.faults.retire current).2 := by
      refine ⟨skips.1, ?_⟩
      rw [retried_graph_embeddings]
      exact deciding.1.embeddings
    exact ⟨fun skipped isOk => ⟨kept, skips.2 skipped isOk⟩, fun _ _ => kept⟩
  · exact fun _ current deciding => deciding.1
  · exact trail_ledger
  · exact fun pass since => Or.inl since
  · intro current _ skipped pass since
    have mid : Mid input world.ledger name (untouched name)
        (fun nodes => nodes = nodesOf input.odooVersion name world) gone pass :=
      ⟨since.ledger, since.report, since.extra.1, since.plan⟩
    refine Or.inl (keeps_forEach _ toRetire ?_ pass mid)
    intro item itemIn
    have executable := (approved item itemIn).executable
    by_cases same : item.1 = name
    · subst same
      exact settleSkipped_mid formed _ skipped item.2 executable since.extra.2
    · exact settleOther_mid formed _ skipped item executable fun row rowIn isName =>
        same ((executable.named row rowIn).symm.trans isName)

theorem retire_raising
    (stale : recent input.odooVersion name input.runStartedAt world = false)
    (raises : RaisesBefore name world input) :
    Meets (Since input (untouched name) world.ledger (Deciding input world name gone)
        (Decided input world.ledger fun _ => True))
      (retire input toRetire) (fun _ => Outcome input world name gone) := by
  rw [recent_eq] at stale
  apply retire_outcome formed
    (Trail input.odooVersion name (fun nodes => nodes = nodesOf input.odooVersion name world) gone)
    (fun _ _ => False) toRetire executes fun item itemIn => (approved item itemIn).executable
  · intro reads current deciding
    rcases raises with unread | ⟨unsettled, spared⟩
    · rw [reads] at unread
      cases unread
    · have raised := retried_spared input.faults.retire _ stale member retirable spared
        retryAttempts unsettled current deciding.1.nodes
      obtain ⟨error, isError⟩ := raised.2
      refine ⟨fun skipped isOk => ?_, fun _ _ => ⟨raised.1, ?_⟩⟩
      · rw [isError] at isOk
        cases isOk
      · rw [retried_graph_embeddings]
        exact deciding.1.embeddings
  · exact fun _ current deciding => deciding.1
  · exact trail_ledger
  · exact fun pass since => Or.inl since
  · exact fun _ _ _ _ since => since.extra.elim

include rows

omit formed retirable executes in
theorem allowed_of_member : allowsName input name := by
  obtain ⟨item, itemIn, rfl⟩ := List.mem_map.mp member
  obtain ⟨row, rowIn⟩ := List.exists_mem_of_ne_nil item.2 (approved item itemIn).executable.nonempty
  rw [rows item itemIn] at rowIn
  exact ((mem_eligibleRows item.1 row).mp rowIn).2.2.2

theorem retire_covered
    (stale : recent input.odooVersion name input.runStartedAt world = false)
    (covered : RowsCoverNode name world input) :
    Meets (Since input (untouched name) world.ledger (Deciding input world name gone)
        (Decided input world.ledger fun _ => True))
      (retire input toRetire) (fun _ => Outcome input world name gone) := by
  rw [recent_eq] at stale
  apply retire_outcome formed (Trail input.odooVersion name (fun _ => True) gone)
    (fun skipped current => Trail input.odooVersion name (fun nodes => nodes = []) gone current ∧
      name ∉ skipped) toRetire executes fun item itemIn => (approved item itemIn).executable
  · intro _ current deciding
    have old : recent input.odooVersion name input.runStartedAt current = false := by
      rw [recent_eq, deciding.1.nodes]
      exact stale
    have deleted := @retried_stale input.odooVersion (toRetire.map (·.1)) input.runStartedAt
      input.faults.retire retryAttempts name current old
    have embeddings := @retried_graph_embeddings input.odooVersion (toRetire.map (·.1))
      input.runStartedAt input.faults.retire retryAttempts current
    refine ⟨fun skipped isOk => ?_, fun _ _ => ⟨trivial, ?_⟩⟩
    · obtain ⟨notSkipped, nodes⟩ := deleted.2 skipped isOk
      refine ⟨⟨nodes member retirable, ?_⟩, notSkipped⟩
      rw [embeddings]
      exact deciding.1.embeddings
    · rw [embeddings]
      exact deciding.1.embeddings
  · exact fun _ current deciding => ⟨trivial, deciding.1.embeddings⟩
  · exact trail_ledger
  · exact fun pass since => Or.inr (Or.inl ⟨covered, since⟩)
  · intro current deciding skipped pass since
    have settled : Keeps (fun pass =>
        name ∉ skipped → Mid input world.ledger name (untouched name) (fun nodes => nodes = [])
            gone pass ∨
          Mid input world.ledger name .all (fun nodes => nodes = [])
            (knownProfiles input world name ++ gone) pass)
        (forEach (fun item : String × List PresenceRow =>
          settleName input (moduleProfiles current input.odooVersion) skipped item.1 item.2)
          toRetire) := by
      apply keeps_forEach
      intro item itemIn pass either notSkipped
      have executable := (approved item itemIn).executable
      rcases either notSkipped with open' | closed
      · by_cases same : item.1 = name
        · subst same
          have outcome := (settleName_mid formed (moduleProfiles current input.odooVersion) skipped
            item.2 executable notSkipped pass open').either
          rw [deciding.profiles, rows item itemIn] at outcome
          rw [rows item itemIn]
          exact outcome
        · exact Or.inl (settleOther_mid formed _ skipped item executable (fun row rowIn isName =>
            same ((executable.named row rowIn).symm.trans isName)) pass open')
      · exact Or.inr (settleOther_mid formed _ skipped item executable (fun _ _ => trivial) pass
          closed)
    have mid : Mid input world.ledger name (untouched name) (fun nodes => nodes = []) gone pass :=
      ⟨since.ledger, since.report, since.extra.1, since.plan⟩
    rcases settled pass (fun _ => Or.inl mid) since.extra.2 with open' | closed
    · exact Or.inr (Or.inl ⟨covered, open'.weaken fun _ _ => trivial⟩)
    · exact Or.inr (Or.inr ⟨allowed_of_member toRetire rows approved member, closed⟩)

theorem retire_completing
    (stale : recent input.odooVersion name input.runStartedAt world = false)
    (reads : input.faults.reads = none) (completes : Completes name world input) :
    Meets (Since input (untouched name) world.ledger (Deciding input world name gone)
        (Decided input world.ledger fun _ => True))
      (retire input toRetire) (fun _ => Outcome input world name gone) := by
  rw [recent_eq] at stale
  apply retire_outcome formed (fun _ => False)
    (fun skipped current => Trail input.odooVersion name (fun nodes => nodes = []) gone current ∧
      name ∉ skipped ∧ ∀ other ∈ skipped,
        recent input.odooVersion other input.runStartedAt world = true)
    toRetire executes fun item itemIn => (approved item itemIn).executable
  · intro _ current deciding
    have old : recent input.odooVersion name input.runStartedAt current = false := by
      rw [recent_eq, deciding.1.nodes]
      exact stale
    have deleted := @retried_stale input.odooVersion (toRetire.map (·.1)) input.runStartedAt
      input.faults.retire retryAttempts name current old
    refine ⟨fun skipped isOk => ?_, fun error isError => ?_⟩
    · obtain ⟨notSkipped, nodes⟩ := deleted.2 skipped isOk
      refine ⟨⟨nodes member retirable, ?_⟩, notSkipped, fun other otherIn => ?_⟩
      · rw [retried_graph_embeddings]
        exact deciding.1.embeddings
      · by_contra notLate
        have early : recent input.odooVersion other input.runStartedAt current = false := by
          by_contra late
          exact notLate (deciding.2.recent _ _ _ (by simpa using late))
        exact ((retried_stale input.faults.retire retryAttempts other current early).2 skipped
          isOk).1 otherIn
    · obtain ⟨out, isOk⟩ := retrying_returns _ retireModules_returns input.faults.retire
        retryAttempts completes.graph current
      rw [isOk] at isError
      cases isError
  · intro unread
    rw [reads] at unread
    cases unread
  · exact fun _ _ never => never
  · exact fun _ since => since.extra.elim
  · intro current deciding skipped pass since
    obtain ⟨notSkipped, late⟩ := since.extra.2
    obtain ⟨item, itemIn, named⟩ := List.mem_map.mp member
    subst named
    obtain ⟨earlier, later, split⟩ := List.append_of_mem itemIn
    have mid : Mid input world.ledger item.1 .all (fun nodes => nodes = []) gone pass :=
      Mid.all ⟨since.ledger, since.report, since.extra.1, since.plan⟩
    have each : ∀ other ∈ toRetire, Succeeds
        (Mid input world.ledger item.1 .all (fun nodes => nodes = []) gone)
        (settleName input (moduleProfiles current input.odooVersion) skipped other.1 other.2) := by
      intro other otherIn
      refine settleName_succeeds formed _ skipped other (approved other otherIn).executable
        (fun isSkipped => completes.marks other.1 ?_ (late other.1 isSkipped)) fun _ _ => trivial
      rw [← rows other otherIn]
      exact (approved other otherIn).executable.nonempty
    have whole := meets_forEach_at (fun other : String × List PresenceRow =>
        settleName input (moduleProfiles current input.odooVersion) skipped other.1 other.2)
      earlier item later (fun other otherIn => each other (by rw [split]; simp [otherIn]))
      (fun pass open' => (settleName_mid formed _ skipped item.2
        (approved item itemIn).executable notSkipped pass open').commits completes.embeddings)
      (fun other otherIn => settleOther_mid formed _ skipped other
        (approved other (by rw [split]; simp [otherIn])).executable fun _ _ => trivial)
    rw [← split, deciding.profiles, rows item itemIn] at whole
    exact Or.inr (Or.inr ⟨allowed_of_member toRetire rows approved member, whole pass mid⟩)

end Named

variable (formed : WellFormed world.ledger) (unowned : Unowned input.odooVersion name world.ledger)
include formed unowned

theorem deciding_keeps :
    Keeps (Since input (untouched name) world.ledger (Deciding input world name gone)
        (Decided input world.ledger fun _ => True))
      (decideAll input (consideredRows input world.ledger)) := by
  apply decideAll_apart formed unowned
  · exact fun current ledger deciding => ⟨trail_ledger current ledger deciding.1, deciding.2⟩
  · intro other apart
    exact (framed_other other fun _ => apart).and (framed_stamped input world other)
  · exact fun _ apart => apart

theorem pass_outcome (retirable : retirableName name = true) (settles : Settles name world input)
    (quiet : ∀ row ∈ world.embeddings, row.odooVersion = input.odooVersion → row.module = name →
      row.profileName ∈ gone → ownedProfile row.profileName = false) :
    Outcome input world name gone (pending input (Pass.start world)).2 := by
  have retires : ∀ pass : Pass, Since input (untouched name) world.ledger
      (Deciding input world name gone) (Decided input world.ledger fun _ => True) pass →
        Outcome input world name gone (retire input pass.toRetire pass).2 := by
    intro pass since
    have mid : Mid input world.ledger name (untouched name)
        (fun nodes => nodes = nodesOf input.odooVersion name world) gone pass :=
      ⟨since.ledger, since.report, since.extra.1, since.plan⟩
    have approved := since.plan.approved
    have rows := since.plan.rows
    by_cases executes : input.execute = true
    · by_cases member : name ∈ pass.toRetire.map (·.1)
      · by_cases late : recent input.odooVersion name input.runStartedAt world = true
        · exact retire_recent formed retirable pass.toRetire approved executes member late pass
            since
        · have stale : recent input.odooVersion name input.runStartedAt world = false := by
            simpa using late
          obtain ⟨item, itemIn, named⟩ := List.mem_map.mp member
          have found := approved item itemIn
          rw [rows item itemIn, named] at found
          rcases settles ⟨executes, found, stale⟩ with covered | raises | completes
          · exact retire_covered formed retirable pass.toRetire rows approved executes member stale
              covered pass since
          · exact retire_raising formed retirable pass.toRetire approved executes member stale
              raises pass since
          · cases reads : input.faults.reads with
            | some message =>
                exact retire_raising formed retirable pass.toRetire approved executes member stale
                  (Or.inl (by rw [reads]; rfl)) pass since
            | none =>
                exact retire_completing formed retirable pass.toRetire rows approved executes
                  member stale reads completes pass since
      · refine Or.inl (retire_keeps formed pass.toRetire trail_ledger
          (retireModules_trail_other fun _ => member) (fun item _ => deleteEmbeddings_trail _ item.1)
          (fun item itemIn => (approved item itemIn).executable) ?_ pass mid)
        intro item itemIn row rowIn isName
        have named := (approved item itemIn).executable.named row rowIn
        exact member (List.mem_map.mpr ⟨item, itemIn, named.symm.trans isName⟩)
    · exact Or.inl (retire_report_keeps pass.toRetire
        (fun item itemIn => (approved item itemIn).executable) (by simpa using executes) pass mid)
  have kept : ∀ pass : Pass, Since input (untouched name) world.ledger
      (Deciding input world name gone) (Decided input world.ledger fun _ => True) pass →
        Outcome input world name gone pass :=
    fun pass since => Or.inl ⟨since.ledger, since.report, since.extra.1, since.plan⟩
  have whole := @meets_andThen _ _ _ _ _ (fun _ => Since input (untouched name) world.ledger
      (Deciding input world name gone) (Decided input world.ledger fun _ => True))
    (fun _ => Outcome input world name gone) _
    (fun _ => reading fun pass =>
      if pass.toRetire.isEmpty then done () else retire input pass.toRetire)
    (deciding_keeps formed unowned) (by
      intro _ pass since
      change Outcome input world name gone
        ((if pass.toRetire.isEmpty then done () else retire input pass.toRetire) pass).2
      split
      · exact kept pass since
      · exact retires pass since) (fun _ pass since => kept pass since)
  exact whole (Pass.start world) (since_start input world (fun _ _ => trivial)
    ⟨⟨rfl, quiet⟩, fun node nodeIn => ⟨node, nodeIn, rfl, rfl, rfl⟩⟩)

theorem pass_gone (left : Trail input.odooVersion name (fun nodes => nodes = []) gone world) :
    Trail input.odooVersion name (fun nodes => nodes = []) gone (reconcilePass world input) := by
  have shrinkable : Shrinkable fun nodes : List ModuleNode => nodes = [] := by
    intro all test empty
    rw [empty, List.filter_nil]
  have decides : Keeps (Mid input world.ledger name .all (fun nodes => nodes = []) gone)
      (decideAll input (consideredRows input world.ledger)) :=
    decideAll_apart formed unowned trail_ledger (fun other apart => framed_other other fun _ => apart)
      fun _ _ => trivial
  have whole : Keeps (Mid input world.ledger name .all (fun nodes => nodes = []) gone)
      (andThen (decideAll input (consideredRows input world.ledger)) fun _ =>
        reading fun pass =>
          if pass.toRetire.isEmpty then done () else retire input pass.toRetire) := by
    apply keeps_andThen _ _ decides
    intro _
    apply keeps_reading
    intro pass mid
    split
    · exact keeps_done _
    · exact retire_keeps formed pass.toRetire trail_ledger (retireModules_trail shrinkable)
        (fun item _ => deleteEmbeddings_trail _ item.1)
        (fun item itemIn => (mid.plan.approved item itemIn).executable) fun _ _ _ _ => trivial
  exact (whole (Pass.start world) (since_start input world (fun _ _ => trivial) left)).extra

end OnePass

section Rows
variable {odooVersion name : String} {permit : Permit}

def RowsKept (odooVersion : String) (permit : Permit) (start current : LedgerTable) : Prop :=
  List.Forall₂ (fun old new => SameIdentity old new ∧
    (old.odooVersion = odooVersion → RowKept odooVersion permit old new)) start.rows current.rows

theorem rowsKept_refl (ledger : LedgerTable) (held : ∀ row, permit.held row) :
    RowsKept odooVersion permit ledger ledger := by
  apply List.forall₂_same.mpr
  intro row rowIn
  exact ⟨⟨rfl, rfl, rfl, rfl, rfl⟩, fun _ =>
    ⟨⟨rfl, rfl, rfl, rfl, rfl⟩, Or.inl ⟨StillHeld.refl row, held row⟩⟩⟩

theorem rowsKept_here {start current : LedgerTable}
    (kept : LedgerKept odooVersion permit start current) :
    RowsKept odooVersion permit start current :=
  List.Forall₂.imp (fun _ _ related => ⟨related.1, fun _ => related⟩) kept

theorem rowsKept_elsewhere {version : String} {start current : LedgerTable}
    (apart : version ≠ odooVersion) (held : ∀ row, permit.held row)
    (kept : LedgerKept version .all start current) : RowsKept odooVersion permit start current := by
  refine List.Forall₂.imp (fun old new related => ⟨related.1, fun here => ?_⟩) kept
  have notThere : eligible version old = false := by
    simp [eligible, here, Ne.symm apart]
  obtain ⟨same, ⟨still, -⟩ | ⟨executed, -⟩⟩ := related
  · have blocked := still.blocked notThere
    refine ⟨same, Or.inl ⟨⟨still.state, still.pending, fun may => ?_, fun _ => blocked⟩, held old⟩⟩
    simp only [eligible, Bool.and_eq_true] at may
    rw [blocked]
    exact may.2
  · rw [executed.eligible] at notThere
    cases notThere

theorem RowsKept.trans {start middle current : LedgerTable}
    (stable : ∀ old middle, SameIdentity old middle → permit.executed middle → permit.executed old)
    (first : RowsKept odooVersion permit start middle)
    (second : RowsKept odooVersion permit middle current) :
    RowsKept odooVersion permit start current := by
  refine Table.forall₂_trans ?_ first second
  intro old between new one two
  refine ⟨one.1.trans two.1, fun here => ?_⟩
  exact RowKept.trans stable (one.2 here) (two.2 (one.1.odooVersion.trans here))

theorem RowsKept.eligible {start current : LedgerTable}
    (kept : RowsKept odooVersion permit start current) (row : PresenceRow)
    (rowIn : row ∈ start.rows) (may : eligible odooVersion row = true) :
    ∃ after ∈ current.rows, SameIdentity row after ∧
      ((Kept.eligible odooVersion after = true ∧ after.state = row.state) ∨
        (after.state = .retired ∧ permit.executed row)) := by
  have here := may
  simp only [Kept.eligible, Bool.and_eq_true, beq_iff_eq] at here
  obtain ⟨after, afterIn, same, related⟩ := Table.forall₂_left kept row rowIn
  refine ⟨after, afterIn, same, ?_⟩
  rcases (related here.1.2).2 with ⟨still, -⟩ | ⟨executed, permitted⟩
  · exact Or.inl ⟨(still.eligible_eq same).trans may, still.state⟩
  · exact Or.inr ⟨executed.retired, permitted⟩

theorem RowsKept.unowned {start current : LedgerTable}
    (kept : RowsKept odooVersion permit start current)
    (unowned : Unowned odooVersion name start) : Unowned odooVersion name current := by
  intro row rowIn owner
  have live := owner
  simp only [presentOwner, Bool.and_eq_true, beq_iff_eq] at live
  obtain ⟨old, oldIn, same, related⟩ := Table.forall₂_right kept row rowIn
  rcases (related (same.odooVersion.symm.trans live.1.1.2)).2 with ⟨still, -⟩ | ⟨executed, -⟩
  · have before := unowned old oldIn
      (by simpa [presentOwner, same.name, same.odooVersion, same.repoId, still.state] using owner)
    exact (still.eligible_eq same).trans before
  · rw [executed.retired] at live
    cases live.1.2

theorem untouched_stable (old middle : PresenceRow) (same : SameIdentity old middle)
    (executed : (untouched name).executed middle) : (untouched name).executed old :=
  fun isName => executed (same.name.trans isName)

end Rows

section Runs
variable (odooVersion name : String) (owners : List String)

/-- Every owner with embeddings left is still on the node or on an eligible row. -/
def Remembered (world : World) : Prop :=
  ∀ embedding ∈ world.embeddings, embedding.odooVersion = odooVersion →
    embedding.module = name → embedding.profileName ∈ owners →
    ownedProfile embedding.profileName = true →
      embedding.profileName ∈ moduleProfiles world odooVersion name ∨
        ∃ row ∈ world.ledger.rows, row.name = name ∧ eligible odooVersion row = true ∧
          row.profileName = embedding.profileName

/-- The owners without an embedding. -/
def quiet (world : World) : List String :=
  owners.filter fun profile => !world.embeddings.any fun embedding =>
    embedding.odooVersion == odooVersion && embedding.module == name &&
      embedding.profileName == profile

structure Underway (start world : World) : Prop where
  formed : WellFormed world.ledger
  unowned : Unowned odooVersion name world.ledger
  rows : RowsKept odooVersion .all start.ledger world.ledger
  progress :
    (RowsKept odooVersion (untouched name) start.ledger world.ledger ∧
      Remembered odooVersion name owners world) ∨
    Trail odooVersion name (fun nodes => nodes = []) owners world

def SettlesAt (world : World) (input : PassInput) : Prop :=
  input.odooVersion = odooVersion → Settles name world input

variable {odooVersion name owners}

theorem quiet_spec (world : World) (embedding : EmbeddingRow)
    (member : embedding ∈ world.embeddings) (version : embedding.odooVersion = odooVersion)
    (module : embedding.module = name) :
    embedding.profileName ∉ quiet odooVersion name owners world := by
  intro isQuiet
  have nothing := (List.mem_filter.mp isQuiet).2
  simp only [Bool.not_eq_true', List.any_eq_false] at nothing
  exact nothing embedding member (by simp [version, module])

theorem embedding_before {before after : World}
    (left : ∀ embedding ∈ after.embeddings, embedding.odooVersion = odooVersion →
      embedding.module = name → embedding.profileName ∈ quiet odooVersion name owners before →
        ownedProfile embedding.profileName = false)
    (embedding : EmbeddingRow) (member : embedding ∈ after.embeddings)
    (version : embedding.odooVersion = odooVersion) (module : embedding.module = name)
    (owner : embedding.profileName ∈ owners)
    (owned : ownedProfile embedding.profileName = true) :
    ∃ old ∈ before.embeddings, old.odooVersion = odooVersion ∧ old.module = name ∧
      old.profileName = embedding.profileName := by
  have notQuiet : embedding.profileName ∉ quiet odooVersion name owners before := by
    intro isQuiet
    rw [left embedding member version module isQuiet] at owned
    cases owned
  simp only [quiet, List.mem_filter, owner, true_and, Bool.not_eq_true', Bool.not_eq_false,
    List.any_eq_true, Bool.and_eq_true, beq_iff_eq] at notQuiet
  obtain ⟨old, oldIn, ⟨sameVersion, sameModule⟩, sameProfile⟩ := notQuiet
  exact ⟨old, oldIn, sameVersion, sameModule, sameProfile⟩

theorem remembered_step {before after : World}
    (remembered : Remembered odooVersion name owners before)
    (rows : RowsKept odooVersion (untouched name) before.ledger after.ledger)
    (left : ∀ embedding ∈ after.embeddings, embedding.odooVersion = odooVersion →
      embedding.module = name → embedding.profileName ∈ quiet odooVersion name owners before →
        ownedProfile embedding.profileName = false)
    (profiles : ∀ old ∈ before.embeddings, old.odooVersion = odooVersion → old.module = name →
      ownedProfile old.profileName = true →
      old.profileName ∈ moduleProfiles before odooVersion name →
        old.profileName ∈ moduleProfiles after odooVersion name ∨
          ∃ row ∈ before.ledger.rows, row.name = name ∧ eligible odooVersion row = true ∧
            row.profileName = old.profileName) :
    Remembered odooVersion name owners after := by
  intro embedding member version module owner owned
  obtain ⟨old, oldIn, oldVersion, oldModule, same⟩ :=
    embedding_before left embedding member version module owner owned
  have fromRow : (∃ row ∈ before.ledger.rows, row.name = name ∧ eligible odooVersion row = true ∧
      row.profileName = embedding.profileName) →
      ∃ row ∈ after.ledger.rows, row.name = name ∧ eligible odooVersion row = true ∧
        row.profileName = embedding.profileName := by
    intro known
    obtain ⟨row, rowIn, named, may, profile⟩ := known
    obtain ⟨kept, keptIn, identity, ⟨still, -⟩ | ⟨-, executed⟩⟩ := rows.eligible row rowIn may
    · exact ⟨kept, keptIn, identity.name.trans named, still, identity.profileName.trans profile⟩
    · exact absurd named executed
  rw [← same] at owner owned ⊢
  rw [← same] at fromRow
  rcases remembered old oldIn oldVersion oldModule owner owned with onNode | onRow
  · rcases profiles old oldIn oldVersion oldModule owned onNode with stays | known
    · exact Or.inl stays
    · exact Or.inr (fromRow known)
  · exact Or.inr (fromRow onRow)

theorem profiles_same {before after : World}
    (same : nodesOf odooVersion name after = nodesOf odooVersion name before) :
    moduleProfiles after odooVersion name = moduleProfiles before odooVersion name := by
  unfold nodesOf at same
  unfold moduleProfiles
  rw [same]

theorem underway_here {start world : World} {input : PassInput} (retirable : retirableName name = true)
    (version : input.odooVersion = odooVersion) (settles : Settles name world input)
    (formed : WellFormed world.ledger) (unowned : Unowned odooVersion name world.ledger)
    (rows : RowsKept odooVersion (untouched name) start.ledger world.ledger)
    (remembered : Remembered odooVersion name owners world) :
    (RowsKept odooVersion (untouched name) start.ledger (reconcilePass world input).ledger ∧
      Remembered odooVersion name owners (reconcilePass world input)) ∨
    Trail odooVersion name (fun nodes => nodes = []) owners (reconcilePass world input) := by
  subst version
  have outcome := @pass_outcome input world name (quiet input.odooVersion name owners world)
    formed unowned retirable settles fun embedding member version module isQuiet =>
      absurd isQuiet (quiet_spec world embedding member version module)
  rcases outcome with mid | ⟨covered, mid⟩ | ⟨allowed, mid⟩
  · have step := rowsKept_here mid.ledger
    refine Or.inl ⟨rows.trans untouched_stable step,
      remembered_step remembered step mid.extra.embeddings ?_⟩
    intro old _ _ _ _ onNode
    left
    exact (profiles_same mid.extra.nodes).symm ▸ onNode
  · have step := rowsKept_here mid.ledger
    refine Or.inl ⟨rows.trans untouched_stable step,
      remembered_step remembered step mid.extra.embeddings ?_⟩
    intro old oldIn version module owned onNode
    obtain ⟨row, rowIn, profile⟩ := List.mem_map.mp (covered old oldIn version module owned onNode)
    obtain ⟨inRows, named, may, -⟩ := (mem_eligibleRows name row).mp rowIn
    exact Or.inr ⟨row, inRows, named, may, profile⟩
  · refine Or.inr ⟨mid.extra.nodes, fun embedding member version module owner => ?_⟩
    by_contra owned
    have owned' : ownedProfile embedding.profileName = true := by simpa using owned
    have left := mid.extra.embeddings embedding member version module
    obtain ⟨old, oldIn, oldVersion, oldModule, same⟩ := embedding_before
      (fun other otherIn version module isQuiet => mid.extra.embeddings other otherIn version module
        (List.mem_append_right _ isQuiet)) embedding member version module owner owned'
    apply owned
    apply left
    apply List.mem_append_left
    rw [← same] at owner owned' ⊢
    rcases remembered old oldIn oldVersion oldModule owner owned' with onNode | onRow
    · exact List.mem_append_left _ onNode
    · obtain ⟨row, rowIn, named, may, profile⟩ := onRow
      exact List.mem_append_right _ (List.mem_map.mpr
        ⟨row, (mem_eligibleRows name row).mpr ⟨rowIn, named, may, allowed⟩, profile⟩)

theorem trail_elsewhere {world : World} {input : PassInput} {nodes : List ModuleNode → Prop}
    {gone : List String} (apart : input.odooVersion ≠ odooVersion) (formed : WellFormed world.ledger)
    (trail : Trail odooVersion name nodes gone world) :
    Trail odooVersion name nodes gone (reconcilePass world input) :=
  (pending_since input world formed (fun other => framed_other other fun same => absurd same apart)
    (fun _ point => retireModules_trail_other (fun same => absurd same apart) point) trail).extra

theorem underway_step (retirable : retirableName name = true) (start world : World)
    (input : PassInput) (settles : SettlesAt odooVersion name world input)
    (underway : Underway odooVersion name owners start world) :
    Underway odooVersion name owners start (reconcilePass world input) := by
  have ledger : LedgerKept input.odooVersion .all world.ledger (reconcilePass world input).ledger :=
    (pending_ledger input world underway.formed).ledger
  by_cases version : input.odooVersion = odooVersion
  · have step : RowsKept odooVersion .all world.ledger (reconcilePass world input).ledger :=
      rowsKept_here (version ▸ ledger)
    refine ⟨ledger.wellFormed underway.formed, step.unowned underway.unowned,
      underway.rows.trans (fun _ _ _ _ => trivial) step, ?_⟩
    rcases underway.progress with ⟨rows, remembered⟩ | gone
    · exact underway_here retirable version (settles version) underway.formed underway.unowned rows
        remembered
    · subst version
      exact Or.inr (pass_gone underway.formed underway.unowned gone)
  · have step : ∀ permit : Permit, (∀ row, permit.held row) →
        RowsKept odooVersion permit world.ledger (reconcilePass world input).ledger :=
      fun permit held => rowsKept_elsewhere version held ledger
    refine ⟨ledger.wellFormed underway.formed, (step .all fun _ => trivial).unowned underway.unowned,
      underway.rows.trans (fun _ _ _ _ => trivial) (step .all fun _ => trivial), ?_⟩
    rcases underway.progress with ⟨rows, remembered⟩ | gone
    · have untouchedStep := step (untouched name) fun _ => trivial
      have trail := @trail_elsewhere odooVersion name world input
        (fun nodes => nodes = nodesOf odooVersion name world)
        (quiet odooVersion name owners world) version underway.formed
        ⟨rfl, fun embedding member version module isQuiet =>
          absurd isQuiet (quiet_spec world embedding member version module)⟩
      refine Or.inl ⟨rows.trans untouched_stable untouchedStep,
        remembered_step remembered untouchedStep trail.embeddings ?_⟩
      intro old _ _ _ _ onNode
      left
      exact (profiles_same trail.nodes).symm ▸ onNode
    · exact Or.inr (trail_elsewhere version underway.formed gone)

/-- In a run whose passes settle the name, a row of it is still pending and retryable, or
it is retired and the nodes and the embeddings of every profile that owned them are gone;
a pass without a fault retires the rows that are still pending. -/
theorem retired_only_when_gone (odooVersion name : String) (start : World)
    (inputs : List PassInput) (retirable : retirableName name = true)
    (formed : WellFormed start.ledger) (unowned : Unowned odooVersion name start.ledger)
    (settles : AllSteps reconcilePass (SettlesAt odooVersion name) start inputs) :
    (∀ row ∈ start.ledger.rows, row.name = name → eligible odooVersion row = true →
      ∃ after ∈ (run reconcilePass start inputs).ledger.rows, after.id = row.id ∧
        ((eligible odooVersion after = true ∧ after.state = row.state) ∨
          (after.state = .retired ∧
            nodesOf odooVersion name (run reconcilePass start inputs) = [] ∧
            ∀ embedding ∈ (run reconcilePass start inputs).embeddings,
              embedding.odooVersion = odooVersion → embedding.module = name →
              embedding.profileName ∈ moduleProfiles start odooVersion name →
                ownedProfile embedding.profileName = false))) ∧
      ∀ last, last.odooVersion = odooVersion →
        Clean name (run reconcilePass start inputs) last →
        ∀ row ∈ (run reconcilePass start inputs).ledger.rows, row.name = name →
          eligible odooVersion row = true →
          ∃ after ∈ (reconcilePass (run reconcilePass start inputs) last).ledger.rows,
            after.id = row.id ∧ after.state = .retired := by
  have initial : Underway odooVersion name (moduleProfiles start odooVersion name) start start :=
    ⟨formed, unowned, rowsKept_refl _ fun _ => trivial,
      Or.inl ⟨rowsKept_refl _ fun _ => trivial, fun _ _ _ _ owner _ => Or.inl owner⟩⟩
  have final := run_preserves_guarded reconcilePass (SettlesAt odooVersion name)
    (Underway odooVersion name (moduleProfiles start odooVersion name) start)
    (fun world input guard => underway_step retirable start world input guard) inputs start settles
    initial
  refine ⟨fun row rowIn named may => ?_, fun last version clean row rowIn named may => ?_⟩
  · obtain ⟨after, afterIn, same, outcome⟩ := final.rows.eligible row rowIn may
    refine ⟨after, afterIn, same.id, ?_⟩
    rcases outcome with still | ⟨retired, -⟩
    · exact Or.inl still
    · rcases final.progress with ⟨rows, -⟩ | gone
      · obtain ⟨other, otherIn, identity, ⟨still, state⟩ | ⟨-, executed⟩⟩ :=
          rows.eligible row rowIn may
        · have one : other = after :=
            final.formed.id other otherIn after afterIn (identity.id.trans same.id.symm)
          have settled := formed.settled row rowIn (state.symm.trans (one ▸ retired))
          simp [eligible, settled] at may
        · exact absurd named executed
      · exact Or.inr ⟨retired, gone.nodes, gone.embeddings⟩
  · subst version
    obtain ⟨allowedRow, allowedIn⟩ :=
      List.exists_mem_of_ne_nil _ clean.approved.executable.nonempty
    have allowed := ((mem_eligibleRows name allowedRow).mp allowedIn).2.2.2
    exact clean_pass_retires final.formed retirable clean row
      ((mem_eligibleRows name row).mpr ⟨rowIn, named, may, allowed⟩)

end Runs

/-- `sale` of one repository, pending. -/
def droppedWorld (owners : List String) : World :=
  { ledger := ⟨[pendingSale 0 1 "shop" none], 1⟩
    modules := [saleNode owners]
    children := []
    embeddings := owners.map saleEmbedding }

def failingInput : PassInput :=
  passInput { noFaults with embeddings := fun _ => [⟨.beforeCommit, "connection lost", false⟩] }

theorem shop_row_retired :
    ∃ after ∈ (run reconcilePass (droppedWorld ["shop"])
        [failingInput, passInput noFaults]).ledger.rows, after.id = 0 ∧
      ((eligible "17.0" after = true ∧ after.state = .present) ∨
        (after.state = .retired ∧
          nodesOf "17.0" "sale" (run reconcilePass (droppedWorld ["shop"])
            [failingInput, passInput noFaults]) = [] ∧
          ∀ embedding ∈ (run reconcilePass (droppedWorld ["shop"])
              [failingInput, passInput noFaults]).embeddings, embedding.odooVersion = "17.0" →
            embedding.module = "sale" →
            embedding.profileName ∈ moduleProfiles (droppedWorld ["shop"]) "17.0" "sale" →
              ownedProfile embedding.profileName = false)) :=
  (retired_only_when_gone "17.0" "sale" (droppedWorld ["shop"]) [failingInput, passInput noFaults]
    (by decide) (by decide) (by decide)
    ⟨fun _ _ => Or.inl (by decide), fun _ _ => Or.inl (by decide +kernel), trivial⟩).1
    (pendingSale 0 1 "shop" none) (by decide) rfl (by decide)

/-- The second attempt no longer knows that `field` owned the node: the row becomes retired
and the embeddings of `field` stay. -/
theorem second_attempt_forgets_owner :
    WellFormed (droppedWorld ["field", "shop"]).ledger ∧
      Unowned "17.0" "sale" (droppedWorld ["field", "shop"]).ledger ∧
      "field" ∈ moduleProfiles (droppedWorld ["field", "shop"]) "17.0" "sale" ∧
      (∃ after ∈ (run reconcilePass (droppedWorld ["field", "shop"])
          [failingInput, passInput noFaults]).ledger.rows,
        after.id = 0 ∧ after.state = .retired) ∧
      saleEmbedding "field" ∈ (run reconcilePass (droppedWorld ["field", "shop"])
        [failingInput, passInput noFaults]).embeddings := by
  decide +kernel

end OdooSemantic.Reconcile.Passes
