import OdooSemantic.Reconcile.Cascade
import OdooSemantic.Reconcile.Decisions

/-!
# One attempt to retire a name

The profiles whose embeddings an attempt deletes are those of the pending rows
and those of the graph node, which the first half of the attempt deletes.  A
pass that settles the name leaves its nodes alone, or loses no profile with
them, or has deleted the nodes and the embeddings together.
-/

set_option autoImplicit false

namespace OdooSemantic.Reconcile.Retry

open Lib Lib.Action Lib.Py
open Ledger.Rows Ledger.Store Ledger.Ownership
open Lifecycle.Gates Reconcile.Stores Reconcile.Pending
open Reconcile.Kept Reconcile.Decisions
open Reconcile.Cascade

section Conditions
variable (name : String) (world : World) (input : PassInput)

def rowProfiles : List String :=
  (eligibleRows input world.ledger name).map (·.profileName)

/-- The pass would delete the nodes of the name. -/
structure Attempted : Prop where
  executes : input.execute = true
  approved : Approved input world.ledger name (eligibleRows input world.ledger name)
  stale : recent input.odooVersion name input.runStartedAt world = false

def RowsCoverNode : Prop :=
  ∀ row ∈ world.embeddings, row.odooVersion = input.odooVersion → row.module = name →
    ownedProfile row.profileName = true →
    row.profileName ∈ moduleProfiles world input.odooVersion name →
      row.profileName ∈ rowProfiles name world input

instance : Decidable (RowsCoverNode name world input) :=
  inferInstanceAs (Decidable (∀ row ∈ world.embeddings, _ → _ → _ → _ → _))

def RaisesBefore : Prop :=
  input.faults.reads.isSome = true ∨
    (settled retryAttempts input.faults.retire = false ∧
      ∀ raised ∈ input.faults.retire,
        spares (nodesOf input.odooVersion name world) raised.point = true)

def Markable (other : String) : Prop :=
  input.faults.ledger (.block other) = none ∧ input.db.lockAcquired input.odooVersion = true

structure Completes : Prop where
  graph : settled retryAttempts input.faults.retire = true
  embeddings : deletes retryAttempts (input.faults.embeddings name) = true
  marks : ∀ other, eligibleRows input world.ledger other ≠ [] →
    recent input.odooVersion other input.runStartedAt world = true → Markable input other

/-- The pass does not part the nodes of the name from its embeddings. -/
def Settles : Prop :=
  Attempted name world input →
    RowsCoverNode name world input ∨ RaisesBefore name world input ∨ Completes name world input

end Conditions

def untouched (name : String) : Permit :=
  ⟨fun _ => True, fun row => row.name ≠ name⟩

def Stamped (before world : World) : Prop :=
  ∀ node ∈ world.modules, ∃ old ∈ before.modules, old.odooVersion = node.odooVersion ∧
    old.name = node.name ∧ old.lastSeenAt = node.lastSeenAt

theorem Stamped.recent {before world : World} (stamped : Stamped before world)
    (odooVersion name : String) (runStartedAt : Timestamp)
    (late : recent odooVersion name runStartedAt world = true) :
    recent odooVersion name runStartedAt before = true := by
  obtain ⟨node, nodeIn, holds⟩ := List.any_eq_true.mp late
  obtain ⟨old, oldIn, version, same, stamp⟩ := stamped node nodeIn
  refine List.any_eq_true.mpr ⟨old, oldIn, ?_⟩
  simpa [ModuleNode.isAt, version, same, stamp] using holds

theorem framed_stamped (input : PassInput) (before : World) (name : String) :
    Framed input (Stamped before) name where
  ledger := fun _ _ stamped => stamped
  drop := by
    intro owners point
    unfold dropModuleOwner
    simp only
    split
    · exact keeps_raise _
    · split
      · exact keeps_done _
      · split
        · exact keeps_raise _
        · apply keeps_andThen
          · intro world stamped node nodeIn
            obtain ⟨old, oldIn, same⟩ := List.mem_map.mp nodeIn
            obtain ⟨first, firstIn, version, named, stamp⟩ := stamped old oldIn
            refine ⟨first, firstIn, ?_⟩
            split at same <;> (subst same; exact ⟨version, named, stamp⟩)
          · intro _
            apply keeps_andThen
            · apply keeps_forEach
              intro label _
              exact batched_keeps _ _ fun _ _ stamped => stamped
            · intro _
              apply keeps_forEach
              intro label _
              exact batched_keeps _ _ fun _ _ stamped => stamped
  embeddings := by
    intro profiles point world stamped
    unfold deleteEmbeddings
    split
    · exact stamped
    · cases point with
      | none => exact stamped
      | some at' => cases at' <;> exact stamped

section Steps
variable {input : PassInput} {start : LedgerTable} {permit : Permit} {name : String}
  {nodes : List ModuleNode → Prop} {gone : List String}

abbrev Mid (input : PassInput) (start : LedgerTable) (name : String) (permit : Permit)
    (nodes : List ModuleNode → Prop) (gone : List String) : Pass → Prop :=
  Since input permit start (Trail input.odooVersion name nodes gone)
    (Decided input start fun _ => True)

theorem Mid.weaken {nodes' : List ModuleNode → Prop} {pass : Pass}
    (mid : Mid input start name permit nodes gone pass)
    (weaker : ∀ all, nodes all → nodes' all) : Mid input start name permit nodes' gone pass where
  ledger := mid.ledger
  report := mid.report
  extra := ⟨weaker _ mid.extra.nodes, mid.extra.embeddings⟩
  plan := mid.plan

theorem Mid.all {pass : Pass} (mid : Mid input start name permit nodes gone pass) :
    Mid input start name .all nodes gone pass where
  ledger := mid.ledger.mono (fun _ _ => trivial) fun _ _ => trivial
  report := mid.report
  extra := mid.extra
  plan := mid.plan

theorem deleteModuleEmbeddings_mid (profiles : List String) :
    Meets (Mid input start name permit nodes gone) (deleteModuleEmbeddings input name profiles)
      (fun result pass => Mid input start name permit nodes gone pass ∧
        (result = .ok () ∨ deletes retryAttempts (input.faults.embeddings name) = true →
          Mid input start name permit nodes (profiles ++ gone) pass)) := by
  have ledger : Keeps (fun world => LedgerKept input.odooVersion permit start world.ledger)
      (retrying (deleteEmbeddings input.odooVersion name profiles) retryAttempts
        (input.faults.embeddings name)) :=
    keeps_retrying _ (fun point => deleteEmbeddings_ledger _ _ _ point) _ _
  intro pass mid
  have returned := meets_onWorld _ ledger (retried_embeddings gone profiles _ _) pass mid
  refine ⟨⟨returned.ledger, returned.report, returned.extra.1, returned.plan⟩, fun either => ?_⟩
  rcases either with isOk | commits
  · exact ⟨returned.ledger, returned.report, returned.extra.2 isOk, returned.plan⟩
  · exact meets_onWorld _ ledger (retried_deletes gone profiles _ _ commits) pass mid

structure Settlement (input : PassInput) (start : LedgerTable) (name : String) (permit : Permit)
    (nodes : List ModuleNode → Prop) (gone profiles : List String) (pass : Pass) : Prop where
  either : Mid input start name permit nodes gone pass ∨
    Mid input start name .all nodes (profiles ++ gone) pass
  commits : deletes retryAttempts (input.faults.embeddings name) = true →
    Mid input start name .all nodes (profiles ++ gone) pass

variable (formed : WellFormed start)
include formed

theorem decideAll_apart {extra : World → Prop} (unowned : Unowned input.odooVersion name start)
    (frame : ∀ world ledger, extra world → extra { world with ledger })
    (framed : ∀ other, other ≠ name → Framed input extra other)
    (permitted : ∀ row, row.name ≠ name → permit.executed row) :
    Keeps (Since input permit start extra (Decided input start fun _ => True))
      (decideAll input (consideredRows input start)) := by
  apply decideAll_keeps_of
  intro other allowed
  apply decideName_keeps formed (fun _ _ _ => trivial) frame other _ allowed
  by_cases same : other = name
  · exact Or.inl (same ▸ unowned)
  · refine Or.inr ⟨framed other same, fun row rowIn => permitted row ?_⟩
    intro isName
    exact same (((mem_eligibleRows other row).mp rowIn).2.1.symm.trans isName)

theorem settleOther_mid (profilesBefore : String → List String) (skipped : List String)
    (item : String × List PresenceRow) (executable : Executable input start item.1 item.2)
    (permitted : ∀ row ∈ item.2, permit.executed row) :
    Keeps (Mid input start name permit nodes gone)
      (settleName input profilesBefore skipped item.1 item.2) :=
  settleName_keeps formed profilesBefore skipped item.1 trail_ledger
    (deleteEmbeddings_trail _ item.1) item.2 executable permitted

theorem settleSkipped_mid (profilesBefore : String → List String) (skipped : List String)
    (rows : List PresenceRow) (executable : Executable input start name rows)
    (isSkipped : name ∈ skipped) :
    Keeps (Mid input start name permit nodes gone)
      (settleName input profilesBefore skipped name rows) := by
  unfold settleName
  rw [if_pos (List.contains_iff_mem.mpr isSkipped)]
  apply keeps_andThen
  · exact keeps_note _ fun _ named => ⟨named.retired, named.dropped⟩
  · intro _
    exact block_keeps formed trail_ledger name rows executable _ reconcileMayRetry_skippedRecent

theorem settleName_mid (profilesBefore : String → List String) (skipped : List String)
    (rows : List PresenceRow) (executable : Executable input start name rows)
    (notSkipped : name ∉ skipped) :
    Meets (Mid input start name permit nodes gone)
      (settleName input profilesBefore skipped name rows)
      (fun _ => Settlement input start name permit nodes gone
        (profilesBefore name ++ rows.map (·.profileName))) := by
  have commits : Keeps (Mid input start name .all nodes
      (profilesBefore name ++ rows.map (·.profileName) ++ gone))
      (andThen (commitRetiredRows input rows) fun _ =>
        note fun report => { report with retired := report.retired ++ [name] }) := by
    apply keeps_andThen _ _ (commitRetiredRows_keeps formed trail_ledger name rows executable
      fun _ _ => trivial)
    intro _
    apply keeps_note
    intro report named
    refine ⟨fun other member => ?_, named.dropped⟩
    rcases List.mem_append.mp member with old | new
    · exact named.retired other old
    · rw [List.mem_singleton.mp new]
      exact executable.hasRow
  have records : ∀ {permit : Permit} {gone : List String} error,
      Keeps (Mid input start name permit nodes gone) (recordError input name rows error) :=
    recordError_keeps formed trail_ledger name rows executable
  unfold settleName
  rw [if_neg (by simpa using notSkipped)]
  apply @meets_recover _ _ _ _ (fun _ => Settlement input start name permit nodes gone _)
  · apply @meets_andThen _ _ _ _ _ _ (fun _ => Settlement input start name permit nodes gone _)
      _ _ (deleteModuleEmbeddings_mid _)
    · intro out pass deleted
      have after := commits pass (deleted.2 (Or.inl rfl)).all
      exact ⟨Or.inr after, fun _ => after⟩
    · intro error pass deleted
      exact ⟨Or.inl deleted.1, fun commits => (deleted.2 (Or.inr commits)).all⟩
  · exact fun _ _ holds => holds
  · intro error pass holds
    exact ⟨holds.either.imp (records error pass) (records error pass),
      fun commits => records error pass (holds.commits commits)⟩

variable {plan : TrackedCache → List (String × List PresenceRow) → Prop}

theorem retireGraph_outcome {before failed : World → Prop} {done : List String → World → Prop}
    (toRetire : List (String × List PresenceRow))
    (executable : ∀ item ∈ toRetire, Executable input start item.1 item.2)
    (attempt : input.faults.reads = none → Meets before
      (retrying (retireModules input.odooVersion (toRetire.map (·.1)) input.runStartedAt)
        retryAttempts input.faults.retire)
      (fun result world => (∀ skipped, result = .ok skipped → done skipped world) ∧
        (∀ error, result = .error error → failed world)))
    (unread : input.faults.reads.isSome = true → ∀ world, before world → failed world)
    (frame : ∀ world ledger, failed world → failed { world with ledger }) :
    Meets (Since input permit start before plan) (retireGraph input toRetire)
      (fun result pass =>
        (∃ skipped, result = .ok (some skipped) ∧
          Since input permit start (done skipped) plan pass) ∨
        ((∀ skipped, result ≠ .ok (some skipped)) ∧ Since input permit start failed plan pass)) := by
  unfold retireGraph
  apply @meets_recover _ _ _ _ (fun result pass =>
    (∃ skipped, result = .ok (some skipped) ∧ Since input permit start (done skipped) plan pass) ∨
      (∃ error, result = .error error) ∧ Since input permit start failed plan pass)
  · apply @meets_andThen _ _ _ _ _ (fun result pass =>
      (∃ skipped, result = .ok skipped ∧ Since input permit start (done skipped) plan pass) ∨
        (∃ error, result = .error error) ∧ Since input permit start failed plan pass)
    · cases reads : input.faults.reads with
      | some message =>
          intro pass since
          have aborted := unread (by rw [reads]; rfl) pass.world since.extra
          exact Or.inr ⟨⟨message, rfl⟩, since.ledger, since.report, aborted, since.plan⟩
      | none =>
          have ledger := keeps_retrying _
            (fun point => @retireModules_ledger (LedgerKept input.odooVersion permit start) input.odooVersion
              (toRetire.map (·.1)) input.runStartedAt point) input.faults.retire retryAttempts
          intro pass since
          have after := meets_onWorld _ ledger (attempt reads) pass since
          cases ran : (onWorld (retrying (retireModules input.odooVersion (toRetire.map (·.1))
              input.runStartedAt) retryAttempts input.faults.retire) pass).1 with
          | ok skipped =>
              rw [ran] at after
              exact Or.inl ⟨skipped, rfl, after.ledger, after.report, after.extra.1 skipped rfl,
                after.plan⟩
          | error error =>
              rw [ran] at after
              exact Or.inr ⟨⟨error, rfl⟩, after.ledger, after.report, after.extra.2 error rfl,
                after.plan⟩
    · intro skipped pass reached
      rcases reached with ⟨known, same, since⟩ | ⟨⟨error, isError⟩, -⟩
      · cases same
        exact Or.inl ⟨skipped, rfl, since⟩
      · cases isError
    · intro error pass reached
      rcases reached with ⟨known, same, -⟩ | ⟨-, since⟩
      · cases same
      · exact Or.inr ⟨⟨error, rfl⟩, since⟩
  · intro out pass reached
    rcases reached with found | ⟨⟨error, isError⟩, -⟩
    · exact Or.inl found
    · cases isError
  · intro message
    have records : Keeps (Since input permit start failed plan)
        (forEach (fun item => recordError input item.1 item.2 message) toRetire) := by
      apply keeps_forEach
      intro item itemIn
      exact recordError_keeps formed frame item.1 item.2 (executable item itemIn) message
    apply @meets_andThen _ _ _ _ _ (fun _ pass => Since input permit start failed plan pass)
    · intro pass reached
      rcases reached with ⟨known, same, -⟩ | ⟨-, since⟩
      · cases same
      · exact records pass since
    · exact fun _ pass since => Or.inr ⟨fun _ same => (by cases same), since⟩
    · exact fun _ pass since => Or.inr ⟨fun _ same => (by cases same), since⟩

theorem retire_outcome {before : World → Prop} (failed : World → Prop)
    (done : List String → World → Prop)
    {post : Pass → Prop}
    (toRetire : List (String × List PresenceRow)) (executes : input.execute = true)
    (executable : ∀ item ∈ toRetire, Executable input start item.1 item.2)
    (attempt : input.faults.reads = none → Meets before
      (retrying (retireModules input.odooVersion (toRetire.map (·.1)) input.runStartedAt)
        retryAttempts input.faults.retire)
      (fun result world => (∀ skipped, result = .ok skipped → done skipped world) ∧
        (∀ error, result = .error error → failed world)))
    (unread : input.faults.reads.isSome = true → ∀ world, before world → failed world)
    (frame : ∀ world ledger, failed world → failed { world with ledger })
    (aborts : ∀ pass, Since input permit start failed plan pass → post pass)
    (settles : ∀ world, before world → ∀ skipped,
      Meets (Since input permit start (done skipped) plan)
        (forEach (fun item : String × List PresenceRow =>
          settleName input (moduleProfiles world input.odooVersion) skipped item.1 item.2)
          toRetire) (fun _ => post)) :
    Meets (Since input permit start before plan) (retire input toRetire) (fun _ => post) := by
  intro pass since
  have graph := retireGraph_outcome formed toRetire executable attempt unread frame pass since
  unfold retire
  rw [if_neg (by simp [executes])]
  change post (andThen (retireGraph input toRetire) _ pass).2
  unfold andThen
  cases ran : retireGraph input toRetire pass with
  | mk result after =>
      rw [ran] at graph
      rcases graph with ⟨skipped, isOk, reached⟩ | ⟨notOk, reached⟩
      · simp only at isOk
        subst isOk
        exact settles pass.world since.extra skipped after reached
      · cases result with
        | error error => exact aborts after reached
        | ok out =>
            cases out with
            | none => exact aborts after reached
            | some skipped => exact absurd rfl (notOk skipped)

theorem block_succeeds {extra : World → Prop}
    (frame : ∀ world ledger, extra world → extra { world with ledger })
    (rows : List PresenceRow) (executable : Executable input start name rows)
    (markable : Markable input name) (reason : String)
    (retryable : reconcileMayRetry (some reason) = true) :
    Succeeds (Since input permit start extra plan) (block input name rows reason) := by
  intro pass since
  refine ⟨?_, block_keeps formed frame name rows executable reason retryable pass since⟩
  unfold block
  split
  · unfold writeLedger
    rw [markable.1]
    have locked : ∃ ledger, markRetireBlocked input.db pass.world.ledger (rows.map (·.id))
        (some reason) = .ok ledger := by
      unfold markRetireBlocked
      split
      · exact ⟨_, rfl⟩
      · refine (exists_congr fun _ => bind_eq_ok _ _ _).mpr ⟨_, (), ?_, rfl⟩
        unfold holdVersions
        have free : (sortedSet ((pass.world.ledger.rows.filter fun row =>
            (rows.map (·.id)).contains row.id).map (·.odooVersion))).find?
              (fun version => !input.db.lockAcquired version) = none := by
          apply List.find?_eq_none.mpr
          intro version member
          obtain ⟨row, rowIn, rfl⟩ := List.mem_map.mp ((mem_sortedSet _ _).mp member)
          obtain ⟨inRows, listed⟩ := List.mem_filter.mp rowIn
          obtain ⟨target, targetIn, sameId⟩ :=
            List.mem_map.mp (List.contains_iff_mem.mp listed)
          obtain ⟨old, oldIn, related⟩ := since.ledger.origin inRows
          have same : target = old := formed.id target (executable.known target targetIn) old oldIn
            (sameId.trans related.1.id)
          have may := executable.eligible target targetIn
          simp only [eligible, Bool.and_eq_true, beq_iff_eq] at may
          rw [related.1.odooVersion, ← same, may.1.2, markable.2]
          decide
        rw [free]
    obtain ⟨ledger, wrote⟩ := locked
    refine ⟨(), ?_⟩
    simp only [onWorld, commit, wrote]
  · exact ⟨(), rfl⟩

omit formed in
theorem recordError_returns (rows : List PresenceRow) (message : String) :
    Returns (recordError input name rows message) := by
  unfold recordError
  apply returns_andThen
  · exact fun _ => ⟨(), rfl⟩
  · intro _
    apply returns_andThen
    · exact returns_recover _ _ fun _ => returns_done ()
    · exact fun _ _ => ⟨(), rfl⟩

theorem settleName_succeeds (profilesBefore : String → List String) (skipped : List String)
    (item : String × List PresenceRow) (executable : Executable input start item.1 item.2)
    (markable : item.1 ∈ skipped → Markable input item.1)
    (permitted : ∀ row ∈ item.2, permit.executed row) :
    Succeeds (Mid input start name permit nodes gone)
      (settleName input profilesBefore skipped item.1 item.2) := by
  intro pass mid
  refine ⟨?_, settleOther_mid formed profilesBefore skipped item executable permitted pass mid⟩
  unfold settleName
  by_cases isSkipped : item.1 ∈ skipped
  · rw [if_pos (List.contains_iff_mem.mpr isSkipped)]
    have noted : Mid input start name permit nodes gone
        { pass with report := { pass.report with
            skippedRecent := pass.report.skippedRecent ++ [item.1] } } :=
      ⟨mid.ledger, ⟨mid.report.retired, mid.report.dropped⟩, mid.extra, mid.plan⟩
    exact (block_succeeds formed trail_ledger item.2 executable (markable isSkipped) _
      reconcileMayRetry_skippedRecent _ noted).1
  · rw [if_neg (by simpa using isSkipped)]
    exact returns_recover _ _ (fun message => recordError_returns item.2 message) pass

end Steps

end OdooSemantic.Reconcile.Retry
