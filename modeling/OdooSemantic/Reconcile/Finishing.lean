import OdooSemantic.Reconcile.Retry

/-!
# The pass that finishes a retirement

A pass without a fault retires every eligible row of a name it may retire.
-/

set_option autoImplicit false

namespace OdooSemantic.Reconcile.Finishing

open Lib Lib.Action Lib.Py
open Ledger.Rows Ledger.Store Ledger.Ownership
open Lifecycle.Gates Reconcile.Stores Reconcile.Pending
open Reconcile.Kept Reconcile.Decisions
open Reconcile.Cascade Reconcile.Retry

structure Clean (name : String) (world : World) (input : PassInput) : Prop
    extends Attempted name world input where
  faultless : input.faults = noFaults
  locks : input.db.lockAcquired input.odooVersion = true

theorem Clean.markable {name : String} {world : World} {input : PassInput}
    (clean : Clean name world input) (other : String) : Markable input other :=
  ⟨by rw [clean.faultless]; rfl, clean.locks⟩

section Commit
variable {odooVersion : String} {permit : Permit} {start current : LedgerTable}

theorem commitRetired_executes (formed : WellFormed start)
    (kept : LedgerKept odooVersion permit start current) (db : DbEnv)
    (locks : db.lockAcquired odooVersion = true) (row : PresenceRow) (rowIn : row ∈ start.rows)
    (may : eligible odooVersion row = true) (headSha : Option String) :
    ∃ next, (commitRetired db current row.repoId row.name none none none headSha
        (if row.repoId.isNone then some row.id else none)).map (·.2) = .ok next ∧
      ∀ new ∈ next.rows, new.id = row.id → new.state = .retired := by
  have found : ∃ target, retireTarget current row.repoId row.name
      (if row.repoId.isNone then some row.id else none) = .ok (some target) := by
    obtain ⟨new, newIn, same, -⟩ := kept.survives rowIn
    unfold retireTarget
    cases owner : row.repoId with
    | some repoId =>
        have hit : (current.rows.find? (hasKey repoId row.name)).isSome = true :=
          List.find?_isSome.mpr ⟨new, newIn, by simp [hasKey, same.repoId, same.name, owner]⟩
        obtain ⟨target, isTarget⟩ := Option.isSome_iff_exists.mp hit
        exact ⟨target, congrArg Except.ok isTarget⟩
    | none =>
        have hit : (current.rows.find? fun known => known.id == row.id &&
            known.name == row.name).isSome = true :=
          List.find?_isSome.mpr ⟨new, newIn, by simp [same.id, same.name]⟩
        obtain ⟨target, isTarget⟩ := Option.isSome_iff_exists.mp hit
        exact ⟨target, congrArg Except.ok isTarget⟩
  obtain ⟨target, targetRun⟩ := found
  obtain ⟨targetIn, targetKept⟩ := retireTarget_known formed kept row rowIn target targetRun
  have version : target.odooVersion = odooVersion := by
    simp only [eligible, Bool.and_eq_true, beq_iff_eq] at may
    exact targetKept.1.odooVersion.trans may.1.2
  have locked : holdVersions db [target.odooVersion] = .ok () := by
    have alone : sortedSet [target.odooVersion] = [target.odooVersion] := rfl
    unfold holdVersions
    rw [alone, version]
    simp [locks]
  have returned : ∃ changed next, commitRetired db current row.repoId row.name none none none
      headSha (if row.repoId.isNone then some row.id else none) = .ok (changed, next) ∧
        ∀ new ∈ next.rows, new.id = row.id → new.state = .retired := by
    by_cases live : current.rows.any (liveWithId target.id) = true
    · refine ⟨true, current.updateWhere (liveWithId target.id) (retireRow db.now none headSha),
        ?_, ?_⟩
      · unfold commitRetired
        rw [targetRun]
        change (holdVersions db [target.odooVersion] >>= fun _ => _) = _
        rw [locked]
        change (if current.rows.any (liveWithId target.id) = true then _ else _) = _
        rw [if_pos live, storeEvidence_none]
        rfl
      · intro new newIn sameId
        obtain ⟨old, oldIn, rfl⟩ := List.mem_map.mp newIn
        by_cases hit : liveWithId target.id old = true
        · rw [if_pos hit]
          rfl
        · rw [if_neg hit] at sameId ⊢
          simpa [liveWithId, sameId, targetKept.1.id] using hit
    · refine ⟨false, current, ?_, ?_⟩
      · unfold commitRetired
        rw [targetRun]
        change (holdVersions db [target.odooVersion] >>= fun _ => _) = _
        rw [locked]
        change (if current.rows.any (liveWithId target.id) = true then _ else _) = _
        rw [if_neg live]
        rfl
      · intro new newIn sameId
        simp only [Bool.not_eq_true, List.any_eq_false] at live
        simpa [liveWithId, sameId, targetKept.1.id] using live new newIn
  obtain ⟨changed, next, ran, retired⟩ := returned
  exact ⟨next, (map_eq_ok _ _ _).mpr ⟨_, ran, rfl⟩, retired⟩

end Commit

section Settle
variable {input : PassInput} {start : LedgerTable} {name : String}
  {nodes : List ModuleNode → Prop} {gone : List String}

def finished (rows : List PresenceRow) : Permit :=
  ⟨fun row => row ∉ rows, fun _ => True⟩

variable (formed : WellFormed start) (faultless : input.faults = noFaults)
  (locks : input.db.lockAcquired input.odooVersion = true)
include formed faultless locks

theorem commitRow_executes (done : List PresenceRow) (row : PresenceRow) (rowIn : row ∈ start.rows)
    (may : eligible input.odooVersion row = true) :
    Meets (Mid input start name (finished done) nodes gone)
      (writeLedger input (.retired row.id) fun ledger =>
        (commitRetired input.db ledger row.repoId row.name none none none
          (repoHead input ledger row.repoId)
          (if row.repoId.isNone then some row.id else none)).map (·.2))
      (fun result pass => result = .ok () ∧
        Mid input start name (finished (done ++ [row])) nodes gone pass) := by
  intro pass mid
  have free : input.faults.ledger (.retired row.id) = none := by rw [faultless]; rfl
  obtain ⟨next, ran, retired⟩ := commitRetired_executes formed mid.ledger input.db locks row rowIn
    may (repoHead input pass.world.ledger row.repoId)
  have kept := commitRetired_kept formed mid.ledger input.db row rowIn may trivial
    (repoHead input pass.world.ledger row.repoId) ran
  have narrowed : LedgerKept input.odooVersion (finished (done ++ [row])) start next := by
    apply kept.narrow
    · intro old _ new newIn same still notDone listed
      rcases List.mem_append.mp listed with before | isRow
      · exact notDone before
      · have known := List.mem_singleton.mp isRow
        subst known
        have state := retired new newIn same.id
        rw [still.state] at state
        have settled := formed.settled old rowIn state
        simp [eligible, settled] at may
    · exact fun _ _ => trivial
  unfold writeLedger
  rw [free]
  simp only [onWorld, commit, ran]
  exact ⟨trivial, narrowed, mid.report, trail_ledger _ _ mid.extra, mid.plan⟩

theorem commitRetiredRows_executes (rows : List PresenceRow)
    (known : ∀ row ∈ rows, row ∈ start.rows ∧ eligible input.odooVersion row = true) :
    ∀ done, Meets (Mid input start name (finished done) nodes gone)
      (commitRetiredRows input rows)
      (fun result pass => result = .ok () ∧
        Mid input start name (finished (done ++ rows)) nodes gone pass) := by
  induction rows with
  | nil =>
      intro done pass mid
      rw [List.append_nil]
      exact ⟨rfl, mid⟩
  | cons row rest ih =>
      intro done
      obtain ⟨rowIn, may⟩ := known row List.mem_cons_self
      have others := ih (fun other member => known other (List.mem_cons_of_mem _ member))
        (done ++ [row])
      rw [List.append_assoc, List.singleton_append] at others
      exact @meets_andThen _ _ _ _ _ _ (fun result pass => result = .ok () ∧
          Mid input start name (finished (done ++ row :: rest)) nodes gone pass) _
        (fun _ => commitRetiredRows input rest)
        (commitRow_executes formed faultless locks done row rowIn may)
        (fun _ pass reached => others pass reached.2) fun error pass reached => by cases reached.1

theorem settleName_executes (profilesBefore : String → List String) (skipped : List String)
    (rows : List PresenceRow) (executable : Executable input start name rows)
    (notSkipped : name ∉ skipped) :
    Meets (Mid input start name .all nodes gone)
      (settleName input profilesBefore skipped name rows)
      (fun _ pass => ∃ gone', Mid input start name (finished rows) nodes gone' pass) := by
  intro pass mid
  have deleted := deleteModuleEmbeddings_mid (profilesBefore name ++ rows.map (·.profileName))
    pass mid
  have returned : Returns (retrying (deleteEmbeddings input.odooVersion name
      (profilesBefore name ++ rows.map (·.profileName))) retryAttempts
      (input.faults.embeddings name)) := by
    rw [faultless]
    exact deleteEmbeddings_returns _
  obtain ⟨out, isOk⟩ := returned pass.world
  unfold settleName
  rw [if_neg (by simpa using notSkipped)]
  unfold recover andThen
  cases ran : deleteModuleEmbeddings input name
      (profilesBefore name ++ rows.map (·.profileName)) pass with
  | mk result after =>
      rw [ran] at deleted
      have same : result = .ok out := by
        have first := congrArg Prod.fst ran
        exact first.symm.trans isOk
      subst same
      have open' : Mid input start name (finished []) nodes gone after :=
        ⟨deleted.1.ledger.mono (fun _ _ => List.not_mem_nil) fun _ _ => trivial,
          deleted.1.report, deleted.1.extra, deleted.1.plan⟩
      have committed := commitRetiredRows_executes formed faultless locks rows
        (fun row member => ⟨executable.known row member, executable.eligible row member⟩) []
        after open'
      rw [List.nil_append] at committed
      simp only
      cases ran' : commitRetiredRows input rows after with
      | mk result' last =>
          rw [ran'] at committed
          obtain ⟨isOk', closed⟩ := committed
          simp only at isOk'
          subst isOk'
          refine ⟨gone, closed.ledger, ⟨?_, closed.report.dropped⟩, closed.extra, closed.plan⟩
          intro other member
          rcases List.mem_append.mp member with old | new
          · exact closed.report.retired other old
          · rw [List.mem_singleton.mp new]
            exact executable.hasRow

end Settle

theorem dropOwner_returns {input : PassInput} {name : String} (rows owners : List PresenceRow) :
    Returns (dropOwner input name rows owners) := by
  unfold dropOwner
  apply returns_andThen
  · exact fun _ => ⟨(), rfl⟩
  · intro _
    split
    · exact fun _ => ⟨(), rfl⟩
    · exact returns_recover _ _ fun message => recordError_returns rows message

section Decide
variable {input : PassInput} {start : LedgerTable} {name : String} (formed : WellFormed start)

abbrev Handed (input : PassInput) (start : LedgerTable) (name : String) (pass : Pass) : Prop :=
  (name, eligibleRows input start name) ∈ pass.toRetire

theorem decideName_hands {extra : World → Prop} {permit : Permit}
    (approved : Approved input start name (eligibleRows input start name)) :
    Meets (Since input permit start extra (Decided input start fun _ => True))
      (decideName input name (rowsOf (consideredRows input start) name))
      (fun _ => Since input permit start extra
        (Decided input start fun handed => (name, eligibleRows input start name) ∈ handed)) := by
  have nonempty := approved.executable.nonempty
  have allowed : allowsName input name := by
    obtain ⟨row, rowIn⟩ := List.exists_mem_of_ne_nil _ nonempty
    exact ((mem_eligibleRows name row).mp rowIn).2.2.2
  have unowned : Unowned input.odooVersion name start := fun row rowIn owner =>
    approved.executable.eligible row (approved.owners row rowIn owner)
  have enabled := approved.enabled
  unfold decideName
  simp only
  apply @meets_andThen _ _ _ _ _ (fun result pass => (∃ out, result = .ok out) ∧
    Since input permit start extra (Decided input start fun _ => True) pass)
  · split
    · exact succeeds_of (keeps_done _) (returns_done _)
    · exact succeeds_of (keeps_note _ fun _ named => ⟨named.retired, named.dropped⟩)
        fun _ => ⟨(), rfl⟩
  · intro _
    split
    · rename_i none
      exact absurd (List.isEmpty_iff.mp none) nonempty
    · split
      · rename_i disabled
        rw [enabled] at disabled
        cases disabled
      · apply meets_reading
        intro pass reached
        have since := reached.2
        have noOwner : ownersOutside input pass.world.ledger name
            (retiringIds input start name) = [] :=
          ownersOutside_eq_nil pass.world.ledger since.ledger name allowed unowned
        have spec := blockersAmong_spec input name (retiringIds input start name ++
          (ownersOutside input pass.world.ledger name (retiringIds input start name)).filterMap
            (·.repoId)) (potentialOwnersUnsynced input.registry pass.world.ledger name
              input.odooVersion) pass.tracked since.plan.consistent
        have harmless : ∀ candidate ∈ potentialOwnersUnsynced input.registry pass.world.ledger
            name input.odooVersion, Harmless input name (retiringIds input start name ++
              (ownersOutside input pass.world.ledger name
                (retiringIds input start name)).filterMap (·.repoId)) candidate := by
          intro candidate member
          obtain ⟨repo, why⟩ := candidate
          obtain ⟨repoIn, isWhy⟩ := (mem_potentialOwnersUnsynced _ _ _ _ _ _).mp member
          rcases approved.unsynced repo repoIn why
            (potentialOwner_origin since.ledger name repo why isWhy) with retiring | never
          · exact Or.inl (List.mem_append_left _ ((mem_retiringIds name repo.id).mpr retiring))
          · exact Or.inr never
        have unblocked := spec.2.mpr harmless
        apply @meets_andThen _ _ _ _ _ (fun result current => result = .ok () ∧
          current = { pass with
            tracked := (blockers input pass.world.ledger name (retiringIds input start name ++
              (ownersOutside input pass.world.ledger name (retiringIds input start name)).filterMap
                (·.repoId)) pass.tracked).2 })
        · intro current same
          rw [same]
          exact ⟨rfl, rfl⟩
        · intro _
          split
          · rename_i dropped
            exact absurd noOwner (ne_nil_of_filled (Bool.and_eq_true_iff.mp dropped).1)
          · split
            · rename_i blocked
              exact absurd unblocked (ne_nil_of_filled blocked)
            · intro current updated
              rw [updated.2]
              have plan : Decided input start (fun _ => True) _ pass.toRetire :=
                ⟨spec.1, since.plan.rows, since.plan.approved, trivial⟩
              exact ⟨since.ledger, since.report, since.extra, plan.handOver approved
                (List.mem_append_right _ (List.mem_singleton.mpr rfl))⟩
        · intro error current updated
          cases updated.1
  · intro error pass reached
    obtain ⟨out, isOk⟩ := reached.1
    cases isOk

include formed

theorem holdUndecidable_succeeds (markable : Markable input name) (rows : List PresenceRow)
    (executable : Executable input start name rows)
    (blocking : List (Repo × PotentialOwnerWhy)) :
    Succeeds (Since input .all start (fun _ => True) (fun _ _ => True))
      (holdUndecidable input name rows blocking) := by
  have notes : ∀ change : Report → Report, (∀ report, Named input start report →
      Named input start (change report)) →
        Succeeds (Since input .all start (fun _ => True) (fun _ _ => True)) (note change) :=
    fun change named => succeeds_of (keeps_note change named) fun _ => ⟨(), rfl⟩
  unfold holdUndecidable
  apply succeeds_andThen
  · exact notes _ fun _ named => ⟨named.retired, named.dropped⟩
  · intro _
    apply succeeds_andThen
    · apply block_succeeds formed (fun _ _ _ => trivial) _ executable markable
      simp only [String.append_assoc]
      exact reconcileMayRetry_undecidable _
    · exact fun _ => notes _ fun _ named => ⟨named.retired, named.dropped⟩

theorem decideName_succeeds (markable : ∀ other, Markable input other) :
    Succeeds (Since input .all start (fun _ => True) (fun _ _ => True))
      (decideName input name (rowsOf (consideredRows input start) name)) := by
  have notes : ∀ change : Report → Report, (∀ report, Named input start report →
      Named input start (change report)) →
        Succeeds (Since input .all start (fun _ => True) (fun _ _ => True)) (note change) :=
    fun change named => succeeds_of (keeps_note change named) fun _ => ⟨(), rfl⟩
  unfold decideName
  simp only
  apply succeeds_andThen
  · split
    · exact succeeds_of (keeps_done _) (returns_done _)
    · exact notes _ fun _ named => ⟨named.retired, named.dropped⟩
  · intro _
    split
    · exact succeeds_of (keeps_done _) (returns_done _)
    · rename_i some
      have nonempty : eligibleRows input start name ≠ [] := by
        simpa [eligibleRows, List.isEmpty_iff] using some
      have executable := eligibleRows_executable name nonempty
      split
      · split
        · exact notes _ fun _ named => ⟨named.retired, named.dropped⟩
        · exact succeeds_of (keeps_done _) (returns_done _)
      · apply succeeds_reading
        intro pass _
        apply succeeds_andThen
        · exact fun _ since =>
            ⟨⟨(), rfl⟩, since.ledger, since.report, since.extra, since.plan⟩
        · intro _
          split
          · refine succeeds_of (dropOwner_keeps formed name ?_ _ _ executable
              fun _ _ => trivial) ?_
            · exact framed_true input name
            · exact dropOwner_returns _ _
          · split
            · exact holdUndecidable_succeeds formed (markable name) _ executable _
            · exact fun _ since =>
                ⟨⟨(), rfl⟩, since.ledger, since.report, since.extra, since.plan⟩

end Decide

section CleanPass
variable {input : PassInput} {world : World} {name : String}
  (formed : WellFormed world.ledger) (retirable : retirableName name = true)
  (clean : Clean name world input)
include formed clean

omit formed in
theorem Clean.unowned : Unowned input.odooVersion name world.ledger :=
  fun row rowIn owner => clean.approved.executable.eligible row
    (clean.approved.owners row rowIn owner)

theorem decideAll_hands :
    (∃ out, (decideAll input (consideredRows input world.ledger) (Pass.start world)).1 = .ok out) ∧
      Since input .all world.ledger
        (Trail input.odooVersion name
          (fun nodes => nodes = nodesOf input.odooVersion name world) [])
        (Decided input world.ledger
          fun handed => (name, eligibleRows input world.ledger name) ∈ handed)
        (decideAll input (consideredRows input world.ledger) (Pass.start world)).2 := by
  have decides : ∀ {more : List (String × List PresenceRow) → Prop} other,
      (∀ toRetire item, more toRetire → more (toRetire ++ [item])) →
      other ∈ sortedSet ((consideredRows input world.ledger).map (·.name)) →
      Keeps (Since input .all world.ledger (Trail input.odooVersion name
          (fun nodes => nodes = nodesOf input.odooVersion name world) [])
          (Decided input world.ledger more))
        (decideName input other (rowsOf (consideredRows input world.ledger) other)) := by
    intro more other grows member
    obtain ⟨row, rowIn, same⟩ := List.mem_map.mp ((mem_sortedSet _ _).mp member)
    apply decideName_keeps formed grows trail_ledger other
    · by_cases isName : other = name
      · exact Or.inl (isName ▸ clean.unowned)
      · exact Or.inr ⟨framed_other other fun _ => isName, fun _ _ => trivial⟩
    · exact same ▸ ((mem_consideredRows row).mp rowIn).2.2.2
  have returns : ∀ other, Succeeds (Since input .all world.ledger (fun _ => True) fun _ _ => True)
      (decideName input other (rowsOf (consideredRows input world.ledger) other)) :=
    fun other => decideName_succeeds formed clean.markable
  have startMid : Mid input world.ledger name .all
      (fun nodes => nodes = nodesOf input.odooVersion name world) [] (Pass.start world) :=
    since_start input world (fun _ _ => trivial) ⟨rfl, fun _ _ _ _ none => by cases none⟩
  have startPlain : Since input .all world.ledger (fun _ => True) (fun _ _ => True)
      (Pass.start world) :=
    ⟨startMid.ledger, startMid.report, trivial, trivial⟩
  refine ⟨(succeeds_forEach _ _ (fun other _ => returns other) _ startPlain).1, ?_⟩
  obtain ⟨row, rowIn⟩ := List.exists_mem_of_ne_nil _ clean.approved.executable.nonempty
  obtain ⟨inRows, named, may, allowed⟩ := (mem_eligibleRows name row).mp rowIn
  simp only [eligible, Bool.and_eq_true, beq_iff_eq] at may
  have considered : row ∈ consideredRows input world.ledger :=
    (mem_consideredRows row).mpr ⟨inRows, may.1.2, may.1.1, named ▸ allowed⟩
  have member : name ∈ sortedSet ((consideredRows input world.ledger).map (·.name)) :=
    (mem_sortedSet _ _).mpr (List.mem_map.mpr ⟨row, considered, named⟩)
  obtain ⟨earlier, later, split⟩ := List.append_of_mem member
  have whole := meets_forEach_at
    (fun other => decideName input other (rowsOf (consideredRows input world.ledger) other))
    earlier name later
    (fun other otherIn => (returns other).beside
      (decides other (fun _ _ _ => trivial) (by rw [split]; simp [otherIn])))
    (fun pass both => decideName_hands clean.approved pass both.2)
    (fun other otherIn => decides other (fun _ _ known => List.mem_append_left _ known)
      (by rw [split]; simp [otherIn]))
  rw [← split] at whole
  exact whole (Pass.start world) ⟨startPlain, startMid⟩

include retirable

theorem retire_executes (toRetire : List (String × List PresenceRow))
    (approved : ∀ item ∈ toRetire, Approved input world.ledger item.1 item.2)
    (member : (name, eligibleRows input world.ledger name) ∈ toRetire) :
    Meets (Mid input world.ledger name .all
        (fun nodes => nodes = nodesOf input.odooVersion name world) []) (retire input toRetire)
      (fun _ pass => ∃ gone, Mid input world.ledger name
        (finished (eligibleRows input world.ledger name)) (fun nodes => nodes = []) gone pass) := by
  have stale := clean.stale
  rw [recent_eq] at stale
  have named : name ∈ toRetire.map (·.1) := List.mem_map.mpr ⟨_, member, rfl⟩
  apply retire_outcome formed (fun _ => False)
    (fun skipped current => Trail input.odooVersion name (fun nodes => nodes = []) [] current ∧
      name ∉ skipped) toRetire clean.executes fun item itemIn => (approved item itemIn).executable
  · intro _ current trail
    have old : recent input.odooVersion name input.runStartedAt current = false := by
      rw [recent_eq, trail.nodes]
      exact stale
    have deleted := @retried_stale input.odooVersion (toRetire.map (·.1)) input.runStartedAt
      input.faults.retire retryAttempts name current old
    refine ⟨fun skipped isOk => ?_, fun error isError => ?_⟩
    · obtain ⟨notSkipped, nodes⟩ := deleted.2 skipped isOk
      refine ⟨⟨nodes named retirable, ?_⟩, notSkipped⟩
      rw [retried_graph_embeddings]
      exact trail.embeddings
    · obtain ⟨out, isOk⟩ := retrying_returns _ retireModules_returns input.faults.retire
        retryAttempts (by rw [clean.faultless]; rfl) current
      rw [isOk] at isError
      cases isError
  · intro unread
    rw [clean.faultless] at unread
    cases unread
  · exact fun _ _ never => never
  · exact fun _ since => since.extra.elim
  · intro current _ skipped pass since
    obtain ⟨earlier, later, split⟩ := List.append_of_mem member
    have mid : Mid input world.ledger name .all (fun nodes => nodes = []) [] pass :=
      ⟨since.ledger, since.report, since.extra.1, since.plan⟩
    have whole := @meets_forEach_at _ _ _
      (Mid input world.ledger name .all (fun nodes => nodes = []) [])
      (fun pass => ∃ gone, Mid input world.ledger name
        (finished (eligibleRows input world.ledger name)) (fun nodes => nodes = []) gone pass)
      (fun other : String × List PresenceRow =>
        settleName input (moduleProfiles current input.odooVersion) skipped other.1 other.2)
      earlier (name, eligibleRows input world.ledger name) later
      (fun other otherIn => settleName_succeeds formed _ skipped other
        (approved other (by rw [split]; simp [otherIn])).executable (fun _ => clean.markable _)
        fun _ _ => trivial)
      (settleName_executes formed clean.faultless clean.locks _ skipped _
        clean.approved.executable since.extra.2)
      (fun other otherIn pass reached => reached.imp fun gone closed =>
        settleOther_mid formed _ skipped other
          (approved other (by rw [split]; simp [otherIn])).executable (fun _ _ => trivial) pass
          closed)
    rw [← split] at whole
    exact whole pass mid

theorem clean_pass_retires (row : PresenceRow)
    (rowIn : row ∈ eligibleRows input world.ledger name) :
    ∃ after ∈ (reconcilePass world input).ledger.rows, after.id = row.id ∧
      after.state = .retired := by
  obtain ⟨⟨out, isOk⟩, decided⟩ := decideAll_hands formed clean
  have finishes : ∃ gone, Mid input world.ledger name
      (finished (eligibleRows input world.ledger name)) (fun nodes => nodes = []) gone
      (pending input (Pass.start world)).2 := by
    change ∃ gone, Mid input world.ledger name _ _ gone
      (andThen (decideAll input (consideredRows input world.ledger)) _ (Pass.start world)).2
    unfold andThen
    cases ran : decideAll input (consideredRows input world.ledger) (Pass.start world) with
    | mk result pass =>
        rw [ran] at isOk decided
        simp only at isOk
        subst isOk
        change ∃ gone, Mid input world.ledger name _ _ gone
          ((if pass.toRetire.isEmpty = true then done () else retire input pass.toRetire) pass).2
        have member : Handed input world.ledger name pass := decided.plan.more
        have some' : ¬ pass.toRetire.isEmpty = true := by
          rw [List.isEmpty_iff]
          exact List.ne_nil_of_mem member
        rw [if_neg some']
        exact retire_executes formed retirable clean pass.toRetire decided.plan.approved member pass
          ⟨decided.ledger, decided.report, decided.extra, decided.plan.consistent,
            decided.plan.rows, decided.plan.approved, trivial⟩
  obtain ⟨gone, mid⟩ := finishes
  obtain ⟨inRows, -⟩ := (mem_eligibleRows name row).mp rowIn
  obtain ⟨after, afterIn, same, ⟨-, notDone⟩ | ⟨executed, -⟩⟩ := mid.ledger.survives inRows
  · exact absurd rowIn notDone
  · exact ⟨after, afterIn, same.id, executed.retired⟩

end CleanPass

end OdooSemantic.Reconcile.Finishing
