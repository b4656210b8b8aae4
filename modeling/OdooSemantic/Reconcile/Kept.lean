import OdooSemantic.Reconcile.Pending

/-!
# What a reconcile pass does to the ledger

No row enters or leaves the ledger, and the only rows a pass retires are the
pending rows it may execute; every other row keeps its state and what holds it.
-/

set_option autoImplicit false

namespace OdooSemantic.Reconcile.Kept

open Lib Lib.Action Lib.Py
open Ledger.Rows Ledger.Store Ledger.Ownership
open Lifecycle.Gates Reconcile.Stores Reconcile.Pending

/-- A pending row of the version no gate and no `no_retire` holds. -/
def eligible (odooVersion : String) (row : PresenceRow) : Bool :=
  row.retirePending && row.odooVersion == odooVersion && reconcileMayRetry row.retireBlockedBy

/-- A pending row of the version a gate or `no_retire` holds. -/
def held (odooVersion : String) (row : PresenceRow) : Bool :=
  row.retirePending && row.odooVersion == odooVersion && !reconcileMayRetry row.retireBlockedBy

structure SameIdentity (old new : PresenceRow) : Prop where
  id : new.id = old.id
  repoId : new.repoId = old.repoId
  name : new.name = old.name
  odooVersion : new.odooVersion = old.odooVersion
  profileName : new.profileName = old.profileName

structure StillHeld (odooVersion : String) (old new : PresenceRow) : Prop where
  state : new.state = old.state
  pending : new.retirePending = old.retirePending
  retryable : eligible odooVersion old = true → reconcileMayRetry new.retireBlockedBy = true
  blocked : eligible odooVersion old = false → new.retireBlockedBy = old.retireBlockedBy

structure Executed (odooVersion : String) (old new : PresenceRow) : Prop where
  eligible : eligible odooVersion old = true
  retired : new.state = .retired
  settled : new.retirePending = false

structure Permit where
  held : PresenceRow → Prop
  executed : PresenceRow → Prop

def Permit.all : Permit := ⟨fun _ => True, fun _ => True⟩

def RowKept (odooVersion : String) (permit : Permit) (old new : PresenceRow) : Prop :=
  SameIdentity old new ∧
    ((StillHeld odooVersion old new ∧ permit.held old) ∨
      (Executed odooVersion old new ∧ permit.executed old))

def LedgerKept (odooVersion : String) (permit : Permit) (start current : LedgerTable) : Prop :=
  List.Forall₂ (RowKept odooVersion permit) start.rows current.rows

structure WellFormed (ledger : LedgerTable) : Prop where
  ids : (ledger.rows.map (·.id)).Nodup
  repoName : UniqueKey ledger
  settled : ∀ row ∈ ledger.rows, row.state = .retired → row.retirePending = false

theorem WellFormed.id {ledger : LedgerTable} (formed : WellFormed ledger) (first : PresenceRow)
    (firstIn : first ∈ ledger.rows) (second : PresenceRow) (secondIn : second ∈ ledger.rows)
    (same : first.id = second.id) : first = second :=
  List.inj_on_of_nodup_map formed.ids firstIn secondIn same

instance (ledger : LedgerTable) : Decidable (WellFormed ledger) :=
  decidable_of_iff ((ledger.rows.map (·.id)).Nodup ∧ UniqueKey ledger ∧
      ∀ row ∈ ledger.rows, row.state = .retired → row.retirePending = false)
    ⟨fun all => ⟨all.1, all.2.1, all.2.2⟩,
      fun formed => ⟨formed.ids, formed.repoName, formed.settled⟩⟩

section Rows
variable {odooVersion : String} {permit : Permit}

theorem StillHeld.refl (row : PresenceRow) : StillHeld odooVersion row row where
  state := rfl
  pending := rfl
  retryable := by
    intro may
    simp only [eligible, Bool.and_eq_true] at may
    exact may.2
  blocked := fun _ => rfl

theorem LedgerKept.refl (ledger : LedgerTable) (held : ∀ row ∈ ledger.rows, permit.held row) :
    LedgerKept odooVersion permit ledger ledger :=
  List.forall₂_same.mpr fun row rowIn =>
    ⟨⟨rfl, rfl, rfl, rfl, rfl⟩, Or.inl ⟨StillHeld.refl row, held row rowIn⟩⟩

theorem StillHeld.eligible_eq {old new : PresenceRow} (same : SameIdentity old new)
    (still : StillHeld odooVersion old new) :
    eligible odooVersion new = eligible odooVersion old := by
  cases may : eligible odooVersion old with
  | true =>
      have retry := still.retryable may
      simp only [eligible, Bool.and_eq_true] at may
      simp [eligible, still.pending, same.odooVersion, retry, may]
  | false =>
      have blocked := still.blocked may
      rw [← may]
      simp [eligible, still.pending, same.odooVersion, blocked]

variable {start current : LedgerTable} {old middle new : PresenceRow}

theorem SameIdentity.trans (first : SameIdentity old middle)
    (second : SameIdentity middle new) : SameIdentity old new where
  id := second.id.trans first.id
  repoId := second.repoId.trans first.repoId
  name := second.name.trans first.name
  odooVersion := second.odooVersion.trans first.odooVersion
  profileName := second.profileName.trans first.profileName

theorem RowKept.trans
    (stable : ∀ old middle, SameIdentity old middle → permit.executed middle →
      permit.executed old)
    (first : RowKept odooVersion permit old middle)
    (second : RowKept odooVersion permit middle new) : RowKept odooVersion permit old new := by
  obtain ⟨same, outcome⟩ := first
  obtain ⟨same', outcome'⟩ := second
  refine ⟨same.trans same', ?_⟩
  rcases outcome with ⟨still, held⟩ | ⟨executed, permitted⟩
  · have may := still.eligible_eq same
    rcases outcome' with ⟨still', -⟩ | ⟨executed', permitted'⟩
    · refine Or.inl ⟨⟨still'.state.trans still.state, still'.pending.trans still.pending,
        fun known => still'.retryable (may.trans known), fun known => ?_⟩, held⟩
      exact (still'.blocked (may.trans known)).trans (still.blocked known)
    · exact Or.inr ⟨⟨may.symm.trans executed'.eligible, executed'.retired, executed'.settled⟩,
        stable old middle same permitted'⟩
  · rcases outcome' with ⟨still', -⟩ | ⟨executed', -⟩
    · exact Or.inr ⟨⟨executed.eligible, still'.state.trans executed.retired,
        still'.pending.trans executed.settled⟩, permitted⟩
    · have pending := executed'.eligible
      simp [eligible, executed.settled] at pending

theorem LedgerKept.mono {permit' : Permit}
    (kept : LedgerKept odooVersion permit start current)
    (held : ∀ row, permit.held row → permit'.held row)
    (executed : ∀ row, permit.executed row → permit'.executed row) :
    LedgerKept odooVersion permit' start current :=
  List.Forall₂.imp (fun old _ related => ⟨related.1, related.2.imp
    (fun still => ⟨still.1, held old still.2⟩)
    fun done => ⟨done.1, executed old done.2⟩⟩) kept

theorem LedgerKept.narrow {permit' : Permit}
    (kept : LedgerKept odooVersion permit start current)
    (held : ∀ old ∈ start.rows, ∀ new ∈ current.rows, SameIdentity old new →
      StillHeld odooVersion old new → permit.held old → permit'.held old)
    (executed : ∀ row, permit.executed row → permit'.executed row) :
    LedgerKept odooVersion permit' start current := by
  have step : List.Forall₂ (RowKept odooVersion permit') start.rows (current.rows.map id) := by
    apply Table.forall₂_map_step id kept
    intro old oldIn new newIn related
    exact ⟨related.1, related.2.imp
      (fun still => ⟨still.1, held old oldIn new newIn related.1 still.1 still.2⟩)
      fun done => ⟨done.1, executed old done.2⟩⟩
  rw [List.map_id] at step
  exact step

theorem LedgerKept.survives
    (kept : LedgerKept odooVersion permit start current) {old : PresenceRow}
    (oldIn : old ∈ start.rows) : ∃ new ∈ current.rows, RowKept odooVersion permit old new :=
  Table.forall₂_left kept old oldIn

theorem LedgerKept.origin
    (kept : LedgerKept odooVersion permit start current) {new : PresenceRow}
    (newIn : new ∈ current.rows) : ∃ old ∈ start.rows, RowKept odooVersion permit old new :=
  Table.forall₂_right kept new newIn

theorem LedgerKept.updateWhere
    (kept : LedgerKept odooVersion permit start current) (guard : PresenceRow → Bool)
    (set : PresenceRow → PresenceRow)
    (step : ∀ old ∈ start.rows, ∀ row ∈ current.rows, RowKept odooVersion permit old row →
      guard row = true → RowKept odooVersion permit old (set row)) :
    LedgerKept odooVersion permit start (current.updateWhere guard set) := by
  refine Table.forall₂_map_step _ kept ?_
  intro old oldIn row rowIn related
  by_cases selected : guard row = true
  · rw [if_pos selected]
    exact step old oldIn row rowIn related selected
  · rw [if_neg selected]
    exact related

theorem LedgerKept.ids
    (kept : LedgerKept odooVersion permit start current) :
    current.rows.map (·.id) = start.rows.map (·.id) :=
  Table.forall₂_map_eq (fun _ _ related => related.1.id) kept

theorem LedgerKept.wellFormed
    (kept : LedgerKept odooVersion permit start current) (formed : WellFormed start) :
    WellFormed current := by
  have ids : (current.rows.map (·.id)).Nodup := by
    rw [kept.ids]
    exact formed.ids
  refine ⟨ids, ?_, ?_⟩
  · intro first firstIn second secondIn repo live name
    obtain ⟨oldFirst, oldFirstIn, same, -⟩ := kept.origin firstIn
    obtain ⟨oldSecond, oldSecondIn, same', -⟩ := kept.origin secondIn
    have one : oldFirst = oldSecond := formed.repoName oldFirst oldFirstIn oldSecond oldSecondIn
      ((same.repoId.symm.trans repo).trans same'.repoId)
      (by rw [← same.repoId]; exact live) ((same.name.symm.trans name).trans same'.name)
    have sameId : first.id = second.id := by rw [same.id, same'.id, one]
    exact List.inj_on_of_nodup_map ids firstIn secondIn sameId
  · intro row rowIn retired
    obtain ⟨old, oldIn, -, ⟨still, -⟩ | ⟨executed, -⟩⟩ := kept.origin rowIn
    · rw [still.pending]
      exact formed.settled old oldIn (still.state.symm.trans retired)
    · exact executed.settled

theorem RowKept.still_of_pending {old new : PresenceRow}
    (kept : RowKept odooVersion permit old new) (pending : new.retirePending = true) :
    StillHeld odooVersion old new ∧ permit.held old := by
  rcases kept.2 with still | ⟨executed, -⟩
  · exact still
  · rw [executed.settled] at pending
    cases pending

end Rows

section Writes
variable {odooVersion : String} {permit : Permit} {start current next : LedgerTable}

theorem markRetireBlocked_kept (formed : WellFormed start)
    (kept : LedgerKept odooVersion permit start current) (db : DbEnv) (rows : List PresenceRow)
    (known : ∀ row ∈ rows, row ∈ start.rows ∧ eligible odooVersion row = true)
    (reason : String) (retryable : reconcileMayRetry (some reason) = true)
    (run : markRetireBlocked db current (rows.map (·.id)) (some reason) = .ok next) :
    LedgerKept odooVersion permit start next := by
  unfold markRetireBlocked at run
  split at run
  · cases run
    exact kept
  · obtain ⟨_, -, run⟩ := (bind_eq_ok _ _ _).mp run
    cases run
    apply kept.updateWhere
    intro old oldIn row rowIn related selected
    simp only [Bool.and_eq_true, List.contains_iff_mem] at selected
    obtain ⟨target, targetIn, sameId⟩ := List.mem_map.mp selected.1
    have same : target = old :=
      formed.id target (known target targetIn).1 old oldIn (sameId.trans related.1.id)
    have may : eligible odooVersion old = true := same ▸ (known target targetIn).2
    obtain ⟨still, held⟩ := related.still_of_pending selected.2
    refine ⟨⟨related.1.id, related.1.repoId, related.1.name, related.1.odooVersion,
      related.1.profileName⟩, Or.inl ⟨⟨still.state, still.pending, fun _ => retryable, ?_⟩,
        held⟩⟩
    intro mayNot
    rw [may] at mayNot
    cases mayNot

theorem markNeedsRewrite_kept (kept : LedgerKept odooVersion permit start current) (db : DbEnv)
    (repoId : Nat) (name : String)
    (run : markNeedsRewrite db current repoId name = .ok next) :
    LedgerKept odooVersion permit start next := by
  unfold markNeedsRewrite at run
  obtain ⟨_, -, run⟩ := (bind_eq_ok _ _ _).mp run
  cases run
  apply kept.updateWhere
  intro old oldIn row rowIn related _
  obtain ⟨same, ⟨still, held⟩ | ⟨executed, permitted⟩⟩ := related
  · exact ⟨⟨same.id, same.repoId, same.name, same.odooVersion, same.profileName⟩,
      Or.inl ⟨⟨still.state, still.pending, still.retryable, still.blocked⟩, held⟩⟩
  · exact ⟨⟨same.id, same.repoId, same.name, same.odooVersion, same.profileName⟩,
      Or.inr ⟨⟨executed.eligible, executed.retired, executed.settled⟩, permitted⟩⟩

theorem storeEvidence_none (db : DbEnv) (guard : PresenceRow → Bool) (ledger : LedgerTable) :
    storeEvidence guard none (storableSuccessor db none) ledger = ledger := by
  have same : ∀ row : PresenceRow,
      (if guard row = true then writeEvidence none none row else row) = row := by
    intro row
    split <;> rfl
  cases ledger
  simp [storeEvidence, storableSuccessor, Table.updateWhere, same]

theorem commitRetired_plain (db : DbEnv) (repoId : Option Nat) (name : String)
    (headSha : Option String) (rowId : Option Nat) (changed : Bool)
    (run : commitRetired db current repoId name none none none headSha rowId =
      .ok (changed, next)) :
    next = current ∨ ∃ target, retireTarget current repoId name rowId = .ok (some target) ∧
      next = current.updateWhere (liveWithId target.id) (retireRow db.now none headSha) := by
  unfold commitRetired at run
  obtain ⟨known, knownRun, run⟩ := (bind_eq_ok _ _ _).mp run
  cases knownRun
  obtain ⟨found, targetRun, run⟩ := (bind_eq_ok _ _ _).mp run
  cases found with
  | none =>
      cases run
      exact Or.inl rfl
  | some target =>
      obtain ⟨_, -, run⟩ := (bind_eq_ok _ _ _).mp run
      split at run
      · rw [storeEvidence_none] at run
        cases run
        exact Or.inr ⟨target, targetRun, rfl⟩
      · cases run
        exact Or.inl rfl

theorem retireTarget_known (formed : WellFormed start) (kept : LedgerKept odooVersion permit start current)
    (row : PresenceRow) (rowIn : row ∈ start.rows) (target : PresenceRow)
    (run : retireTarget current row.repoId row.name
      (if row.repoId.isNone then some row.id else none) = .ok (some target)) :
    target ∈ current.rows ∧ RowKept odooVersion permit row target := by
  have found : target ∈ current.rows ∧ (target.repoId = row.repoId ∧ target.name = row.name ∧
      row.repoId.isSome = true ∨ target.id = row.id) := by
    cases owner : row.repoId with
    | some repoId =>
        rw [owner] at run
        have hit := Except.ok.inj run
        have key := List.find?_some hit
        simp only [hasKey, Bool.and_eq_true, beq_iff_eq] at key
        exact ⟨List.mem_of_find?_eq_some hit, Or.inl ⟨key.1, key.2, rfl⟩⟩
    | none =>
        rw [owner] at run
        have hit := Except.ok.inj run
        have key := List.find?_some hit
        simp only [Bool.and_eq_true, beq_iff_eq] at key
        exact ⟨List.mem_of_find?_eq_some hit, Or.inr key.1⟩
  obtain ⟨targetIn, key⟩ := found
  obtain ⟨old, oldIn, related⟩ := kept.origin targetIn
  have same : old = row := by
    rcases key with ⟨repo, name, live⟩ | id
    · exact formed.repoName old oldIn row rowIn (related.1.repoId.symm.trans repo)
        ((congrArg Option.isSome (related.1.repoId.symm.trans repo)).trans live)
        (related.1.name.symm.trans name)
    · exact formed.id old oldIn row rowIn (related.1.id.symm.trans id)
  exact ⟨targetIn, same ▸ related⟩

theorem commitRetired_kept (formed : WellFormed start)
    (kept : LedgerKept odooVersion permit start current) (db : DbEnv) (row : PresenceRow)
    (rowIn : row ∈ start.rows) (may : eligible odooVersion row = true)
    (permitted : permit.executed row) (headSha : Option String)
    (run : (commitRetired db current row.repoId row.name none none none headSha
      (if row.repoId.isNone then some row.id else none)).map (·.2) = .ok next) :
    LedgerKept odooVersion permit start next := by
  obtain ⟨⟨changed, after⟩, ran, rfl⟩ := (map_eq_ok _ _ _).mp run
  rcases commitRetired_plain db row.repoId row.name headSha _ changed ran with
    same | ⟨target, targetRun, same⟩
  · simp only [same]
    exact kept
  · obtain ⟨targetIn, targetKept⟩ := retireTarget_known formed kept row rowIn target targetRun
    simp only [same]
    apply kept.updateWhere
    intro old oldIn other otherIn related selected
    simp only [liveWithId, Bool.and_eq_true, beq_iff_eq] at selected
    have known : old = row := formed.id old oldIn row rowIn
      ((related.1.id.symm.trans selected.1).trans targetKept.1.id)
    exact ⟨⟨related.1.id, related.1.repoId, related.1.name, related.1.odooVersion,
      related.1.profileName⟩, Or.inr ⟨⟨known ▸ may, rfl, rfl⟩, known ▸ permitted⟩⟩

end Writes

section Frames
variable {inv : LedgerTable → Prop}

theorem batched_keeps {Node : Type} {worldInv : World → Prop} (failing : Option (Node → Bool))
    (apply : (Node → Bool) → World → World)
    (each : ∀ applied world, worldInv world → worldInv (apply applied world)) :
    Keeps worldInv (batched failing apply) := by
  intro world holds
  cases failing with
  | none => exact each _ world holds
  | some applied => exact each applied world holds

theorem retireModules_keeps {worldInv : World → Prop}
    (children : ∀ stale applied world, worldInv world →
      worldInv (deleteChildren stale applied world))
    (modules : ∀ stale applied world, worldInv world →
      worldInv (deleteModules stale applied world))
    (odooVersion : String) (names : List String) (runStartedAt : Timestamp)
    (point : Option RetirePoint) :
    Keeps worldInv (retireModules odooVersion names runStartedAt point) := by
  have cascade : ∀ targets,
      Keeps worldInv (retireCascade odooVersion targets runStartedAt point) := by
    intro targets
    unfold retireCascade
    apply keeps_andThen
    · apply keeps_forEach
      intro label _
      exact batched_keeps _ _ (children _)
    · intro _
      exact batched_keeps _ _ (modules _)
  unfold retireModules
  simp only
  split
  · exact keeps_done _
  · split
    · exact keeps_raise _
    · apply keeps_reading
      intro world _
      unfold retireTargets
      split
      · exact keeps_done _
      · apply keeps_andThen _ _ (cascade _)
        intro _
        split
        · exact keeps_raise _
        · exact keeps_reading _ fun _ _ => keeps_done _

theorem retireModules_ledger (odooVersion : String) (names : List String)
    (runStartedAt : Timestamp) (point : Option RetirePoint) :
    Keeps (fun world => inv world.ledger)
      (retireModules odooVersion names runStartedAt point) :=
  retireModules_keeps (fun _ _ _ holds => holds) (fun _ _ _ holds => holds) _ _ _ _

theorem dropModuleOwner_ledger (odooVersion name : String) (owners : List ModuleOwner)
    (point : Option DropPoint) :
    Keeps (fun world => inv world.ledger) (dropModuleOwner odooVersion name owners point) := by
  unfold dropModuleOwner
  simp only
  split
  · exact keeps_raise _
  · split
    · exact keeps_done _
    · split
      · exact keeps_raise _
      · apply keeps_andThen
        · exact fun _ holds => holds
        · intro _
          apply keeps_andThen
          · apply keeps_forEach
            intro label _
            exact batched_keeps _ _ fun _ _ holds => holds
          · intro _
            apply keeps_forEach
            intro label _
            exact batched_keeps _ _ fun _ _ holds => holds

theorem deleteEmbeddings_ledger (odooVersion module : String) (profileNames : List String)
    (point : Option EmbeddingPoint) :
    Keeps (fun world => inv world.ledger)
      (deleteEmbeddings odooVersion module profileNames point) := by
  intro world holds
  unfold deleteEmbeddings
  split
  · exact holds
  · cases point with
    | none => exact holds
    | some at' => cases at' <;> exact holds

end Frames

section Steps
variable (input : PassInput) (permit : Permit) (start : LedgerTable) (extra : World → Prop)
  (plan : TrackedCache → List (String × List PresenceRow) → Prop)

structure Executable (name : String) (rows : List PresenceRow) : Prop where
  nonempty : rows ≠ []
  known : ∀ row ∈ rows, row ∈ start.rows
  named : ∀ row ∈ rows, row.name = name
  eligible : ∀ row ∈ rows, eligible input.odooVersion row = true

structure Named (report : Report) : Prop where
  retired : ∀ name ∈ report.retired, ∃ row ∈ start.rows, row.name = name ∧
    eligible input.odooVersion row = true
  dropped : ∀ name ∈ report.ownerDropped, ∃ row ∈ start.rows, row.name = name ∧
    eligible input.odooVersion row = true

/-- The pass since its start; `extra` is a further property of the stores and `plan` one
of what it has read and decided. -/
structure Since (pass : Pass) : Prop where
  ledger : LedgerKept input.odooVersion permit start pass.world.ledger
  report : Named input start pass.report
  extra : extra pass.world
  plan : plan pass.tracked pass.toRetire

structure Framed (name : String) : Prop where
  ledger : ∀ world ledger, extra world → extra { world with ledger }
  drop : ∀ owners point, Keeps extra (dropModuleOwner input.odooVersion name owners point)
  embeddings : ∀ profiles point,
    Keeps extra (deleteEmbeddings input.odooVersion name profiles point)

variable {input} {permit} {start} {extra} {plan}

theorem Framed.and {first second : World → Prop} {name : String}
    (one : Framed input first name) (two : Framed input second name) :
    Framed input (fun world => first world ∧ second world) name where
  ledger := fun world ledger both => ⟨one.ledger world ledger both.1, two.ledger world ledger both.2⟩
  drop := fun owners point => keeps_and (one.drop owners point) (two.drop owners point)
  embeddings := fun profiles point =>
    keeps_and (one.embeddings profiles point) (two.embeddings profiles point)

theorem Executable.hasRow {name : String} {rows : List PresenceRow}
    (executable : Executable input start name rows) :
    ∃ row ∈ start.rows, row.name = name ∧ Kept.eligible input.odooVersion row = true := by
  obtain ⟨row, rowIn⟩ := List.exists_mem_of_ne_nil rows executable.nonempty
  exact ⟨row, executable.known row rowIn, executable.named row rowIn,
    executable.eligible row rowIn⟩

theorem meets_onWorld {Out : Type} {after : Except String Out → World → Prop}
    (action : Action World String Out)
    (ledger : Keeps (fun world => LedgerKept input.odooVersion permit start world.ledger) action)
    (meets : Meets extra action after) :
    Meets (Since input permit start extra plan) (onWorld action)
      (fun result pass => Since input permit start (after result) plan pass) :=
  fun pass since => ⟨ledger pass.world since.ledger, since.report, meets pass.world since.extra,
    since.plan⟩

theorem keeps_onWorld {Out : Type} (action : Action World String Out)
    (ledger : Keeps (fun world => LedgerKept input.odooVersion permit start world.ledger) action)
    (keeps : Keeps extra action) : Keeps (Since input permit start extra plan) (onWorld action) :=
  @meets_onWorld _ _ _ extra _ _ (fun _ => extra) action ledger keeps

theorem keeps_note (change : Report → Report)
    (named : ∀ report, Named input start report → Named input start (change report)) :
    Keeps (Since input permit start extra plan) (note change) :=
  fun pass since => ⟨since.ledger, named pass.report since.report, since.extra, since.plan⟩

theorem keeps_attend (rows : List PresenceRow) (text : String) :
    Keeps (Since input permit start extra plan) (attend rows text) :=
  keeps_note _ fun _ named => ⟨named.retired, named.dropped⟩

theorem writeLedger_keeps (frame : ∀ world ledger, extra world → extra { world with ledger })
    (call : LedgerWrite) (write : LedgerTable → Except StoreError LedgerTable)
    (writes : ∀ current next, LedgerKept input.odooVersion permit start current →
      write current = .ok next → LedgerKept input.odooVersion permit start next) :
    Keeps (Since input permit start extra plan) (writeLedger input call write) := by
  unfold writeLedger
  cases input.faults.ledger call with
  | some message => exact keeps_raise message
  | none =>
      apply keeps_onWorld
      · apply keeps_commit
        intro world next holds ran
        cases wrote : write world.ledger with
        | error error =>
            rw [wrote] at ran
            cases ran
        | ok ledger =>
            rw [wrote] at ran
            cases ran
            exact writes world.ledger ledger holds wrote
      · apply keeps_commit
        intro world next holds ran
        cases wrote : write world.ledger with
        | error error =>
            rw [wrote] at ran
            cases ran
        | ok ledger =>
            rw [wrote] at ran
            cases ran
            exact frame world ledger holds

variable (formed : WellFormed start)
include formed

theorem block_keeps (frame : ∀ world ledger, extra world → extra { world with ledger })
    (name : String) (rows : List PresenceRow) (executable : Executable input start name rows)
    (reason : String) (retryable : reconcileMayRetry (some reason) = true) :
    Keeps (Since input permit start extra plan) (block input name rows reason) := by
  unfold block
  split
  · apply writeLedger_keeps frame
    intro current next kept ran
    exact markRetireBlocked_kept formed kept input.db rows
      (fun row member => ⟨executable.known row member, executable.eligible row member⟩)
      reason retryable ran
  · exact keeps_done _

theorem recordError_keeps (frame : ∀ world ledger, extra world → extra { world with ledger })
    (name : String) (rows : List PresenceRow) (executable : Executable input start name rows)
    (message : String) :
    Keeps (Since input permit start extra plan) (recordError input name rows message) := by
  have retryable : reconcileMayRetry (some (blockedErrorPrefix ++ " " ++ name ++ "@" ++
      input.odooVersion ++ " not retired (" ++ message ++ ")")) = true := by
    simp only [String.append_assoc]
    exact reconcileMayRetry_error _
  unfold recordError
  apply keeps_andThen
  · exact keeps_note _ fun _ named => ⟨named.retired, named.dropped⟩
  · intro _
    apply keeps_andThen
    · exact keeps_recover _ _ (block_keeps formed frame name rows executable _ retryable)
        fun _ => keeps_done _
    · intro _
      exact keeps_attend _ _

theorem holdUndecidable_keeps
    (frame : ∀ world ledger, extra world → extra { world with ledger }) (name : String)
    (rows : List PresenceRow) (executable : Executable input start name rows)
    (blocking : List (Repo × PotentialOwnerWhy)) :
    Keeps (Since input permit start extra plan) (holdUndecidable input name rows blocking) := by
  unfold holdUndecidable
  apply keeps_andThen
  · exact keeps_note _ fun _ named => ⟨named.retired, named.dropped⟩
  · intro _
    apply keeps_andThen
    · apply block_keeps formed frame name rows executable
      simp only [String.append_assoc]
      exact reconcileMayRetry_undecidable _
    · intro _
      exact keeps_attend _ _

theorem commitRetiredRows_keeps
    (frame : ∀ world ledger, extra world → extra { world with ledger }) (name : String)
    (rows : List PresenceRow) (executable : Executable input start name rows)
    (permitted : ∀ row ∈ rows, permit.executed row) :
    Keeps (Since input permit start extra plan) (commitRetiredRows input rows) := by
  unfold commitRetiredRows
  apply keeps_forEach
  intro row rowIn
  apply writeLedger_keeps frame
  intro current next kept ran
  exact commitRetired_kept formed kept input.db row (executable.known row rowIn)
    (executable.eligible row rowIn) (permitted row rowIn) _ ran

omit formed in
theorem deleteModuleEmbeddings_keeps (name : String)
    (frame : ∀ profiles point,
      Keeps extra (deleteEmbeddings input.odooVersion name profiles point))
    (profiles : List String) :
    Keeps (Since input permit start extra plan) (deleteModuleEmbeddings input name profiles) := by
  unfold deleteModuleEmbeddings
  apply keeps_onWorld
  · exact keeps_retrying _ (fun point => deleteEmbeddings_ledger _ _ _ point) _ _
  · exact keeps_retrying _ (frame profiles) _ _

theorem dropOwner_keeps (name : String) (framed : Framed input extra name)
    (rows owners : List PresenceRow) (executable : Executable input start name rows)
    (permitted : ∀ row ∈ rows, permit.executed row) :
    Keeps (Since input permit start extra plan) (dropOwner input name rows owners) := by
  have dropped : Keeps (Since input permit start extra plan) (note fun report =>
      { report with ownerDropped := report.ownerDropped ++ [name] }) := by
    apply keeps_note
    intro report named
    refine ⟨named.retired, fun other member => ?_⟩
    rcases List.mem_append.mp member with old | new
    · exact named.dropped other old
    · rw [List.mem_singleton.mp new]
      exact executable.hasRow
  unfold dropOwner
  apply keeps_andThen
  · exact keeps_note _ fun _ named => ⟨named.retired, named.dropped⟩
  · intro _
    split
    · exact dropped
    · apply keeps_recover
      · apply keeps_andThen
        · apply keeps_onWorld
          · exact keeps_retrying _ (fun point => dropModuleOwner_ledger _ _ _ point) _ _
          · exact keeps_retrying _ (framed.drop _) _ _
        · intro _
          apply keeps_andThen _ _ (deleteModuleEmbeddings_keeps name framed.embeddings _)
          intro _
          apply keeps_andThen
          · apply keeps_forEach
            intro repoId _
            apply writeLedger_keeps framed.ledger
            intro current next kept ran
            exact markNeedsRewrite_kept kept input.db repoId name ran
          · intro _
            apply keeps_andThen _ _
              (commitRetiredRows_keeps formed framed.ledger name rows executable permitted)
            intro _
            exact dropped
      · intro message
        exact recordError_keeps formed framed.ledger name rows executable message

theorem settleName_keeps (profilesBefore : String → List String) (skipped : List String)
    (name : String) (frame : ∀ world ledger, extra world → extra { world with ledger })
    (embeddings : ∀ profiles point,
      Keeps extra (deleteEmbeddings input.odooVersion name profiles point))
    (rows : List PresenceRow) (executable : Executable input start name rows)
    (permitted : ∀ row ∈ rows, permit.executed row) :
    Keeps (Since input permit start extra plan) (settleName input profilesBefore skipped name rows) := by
  unfold settleName
  split
  · apply keeps_andThen
    · exact keeps_note _ fun _ named => ⟨named.retired, named.dropped⟩
    · intro _
      exact block_keeps formed frame name rows executable _ reconcileMayRetry_skippedRecent
  · apply keeps_recover
    · apply keeps_andThen _ _ (deleteModuleEmbeddings_keeps name embeddings _)
      intro _
      apply keeps_andThen _ _ (commitRetiredRows_keeps formed frame name rows executable permitted)
      intro _
      apply keeps_note
      intro report named
      refine ⟨fun other member => ?_, named.dropped⟩
      rcases List.mem_append.mp member with old | new
      · exact named.retired other old
      · rw [List.mem_singleton.mp new]
        exact executable.hasRow
    · intro message
      exact recordError_keeps formed frame name rows executable message

theorem retireGraph_keeps (toRetire : List (String × List PresenceRow))
    (frame : ∀ world ledger, extra world → extra { world with ledger })
    (graph : ∀ point, Keeps extra
      (retireModules input.odooVersion (toRetire.map (·.1)) input.runStartedAt point))
    (executable : ∀ item ∈ toRetire, Executable input start item.1 item.2) :
    Keeps (Since input permit start extra plan) (retireGraph input toRetire) := by
  unfold retireGraph
  apply keeps_recover
  · apply keeps_andThen
    · cases input.faults.reads with
      | some message => exact keeps_raise message
      | none =>
          apply keeps_onWorld
          · exact keeps_retrying _ (fun point => retireModules_ledger _ _ _ point) _ _
          · exact keeps_retrying _ graph _ _
    · intro _
      exact keeps_done _
  · intro message
    apply keeps_andThen
    · apply keeps_forEach
      intro item itemIn
      exact recordError_keeps formed frame item.1 item.2 (executable item itemIn) message
    · intro _
      exact keeps_done _

omit formed in
/-- Without execution the step only reports the names. -/
theorem retire_report_keeps (toRetire : List (String × List PresenceRow))
    (executable : ∀ item ∈ toRetire, Executable input start item.1 item.2)
    (idle : input.execute = false) :
    Keeps (Since input permit start extra plan) (retire input toRetire) := by
  unfold retire
  rw [if_pos (by simp [idle])]
  apply keeps_note
  intro report named
  refine ⟨fun other member => ?_, named.dropped⟩
  rcases List.mem_append.mp member with old | new
  · exact named.retired other old
  · obtain ⟨item, itemIn, rfl⟩ := List.mem_map.mp new
    exact (executable item itemIn).hasRow

theorem retire_keeps (toRetire : List (String × List PresenceRow))
    (frame : ∀ world ledger, extra world → extra { world with ledger })
    (graph : ∀ point, Keeps extra
      (retireModules input.odooVersion (toRetire.map (·.1)) input.runStartedAt point))
    (embeddings : ∀ item ∈ toRetire, ∀ profiles point,
      Keeps extra (deleteEmbeddings input.odooVersion item.1 profiles point))
    (executable : ∀ item ∈ toRetire, Executable input start item.1 item.2)
    (permitted : ∀ item ∈ toRetire, ∀ row ∈ item.2, permit.executed row) :
    Keeps (Since input permit start extra plan) (retire input toRetire) := by
  by_cases executes : input.execute = true
  · unfold retire
    rw [if_neg (by simp [executes])]
    apply keeps_reading
    intro pass _
    apply keeps_andThen _ _ (retireGraph_keeps formed toRetire frame graph executable)
    intro skipped
    cases skipped with
    | none => exact keeps_done _
    | some names =>
        apply keeps_forEach
        intro item itemIn
        exact settleName_keeps formed _ names item.1 frame (embeddings item itemIn) item.2
          (executable item itemIn) (permitted item itemIn)
  · exact retire_report_keeps toRetire executable (by simpa using executes)

end Steps

end OdooSemantic.Reconcile.Kept
