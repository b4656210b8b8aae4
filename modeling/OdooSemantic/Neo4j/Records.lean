import OdooSemantic.Neo4j.Cascade

/-!
# Views, templates and reports under the retirement cascade

A record keeps its xmlid while its `module` is the last module that wrote it.
The cascade selects by `module`.
-/

set_option autoImplicit false

namespace OdooSemantic.Neo4j

open Lib.Run

def Call.execute (call : Call) (xmlids : List String) (statements : List Statement)
    (graph : Graph) : Graph :=
  statements.foldl (fun graph statement =>
    statement.delete graph (call.select graph xmlids statement)) graph

def Retire.guarded (retire : Retire) (graph : Graph) : Call :=
  .retire { retire with names := retire.targets graph }

def retireModules (graph : Graph) (retire : Retire) : Graph :=
  if retire.targets graph = [] then graph
  else
    (retire.guarded graph).execute
      (moduleViewXmlids graph retire.odooVersion (retire.targets graph))
      (retire.guarded graph).statements graph

def Graph.freshId (graph : Graph) : Nat := (graph.nodes.map (·.id)).foldr max 0 + 1

/-- `MERGE` by a key: the node that has it, or a new one. -/
def Graph.mergeBy (graph : Graph) (key : Node → Bool) (new : Node) (run : Option String)
    (now : Nat) : Graph :=
  graph.mergeNode { new with id := ((graph.nodes.find? key).map (·.id)).getD graph.freshId } run now

def Node.isRecord (label : Label) (xmlid odooVersion : String) (node : Node) : Bool :=
  node.label == .child label && node.xmlid == some xmlid && node.odooVersion == odooVersion

/-- A write of a module's index run at the server's time `now`: a record under any xmlid, a
placeholder of a record that some other record names, a child of another label, or the Module
node. -/
inductive Write where
  | record (label : Label) (module xmlid odooVersion : String) (run : Option String) (now : Nat)
  | placeholder (label : Label) (xmlid odooVersion : String)
  | child (label : Label) (plain : xmlidKeyed label = false) (name module odooVersion : String)
      (run : Option String) (now : Nat)
  | module (name odooVersion : String) (now : Nat)

def bareNode (label : NodeLabel) (name odooVersion : String) : Node :=
  { id := 0, label, name, module := none, odooVersion, xmlid := none, viewXmlid := none
    filePath := none, lastSeenAt := none, writtenRun := none, writtenAt := none
    helper_unstamped := fun _ => rfl }

def Write.apply (graph : Graph) : Write → Graph
  | .record label owner xmlid odooVersion run now =>
      graph.mergeBy (Node.isRecord label xmlid odooVersion)
        { bareNode (.child label) xmlid odooVersion with
          module := some owner, xmlid := some xmlid, helper_unstamped := fun _ => rfl } run now
  | .placeholder label xmlid odooVersion =>
      if graph.nodes.any (Node.isRecord label xmlid odooVersion) then graph
      else
        graph.mergeBy (fun _ => false)
          { bareNode (.child label) xmlid odooVersion with
            module := some "__unresolved__", xmlid := some xmlid
            helper_unstamped := fun _ => rfl } none 0
  | .child label _ name owner odooVersion run now =>
      graph.mergeBy (fun node => node.label == .child label && node.name == name &&
          node.module == some owner && node.odooVersion == odooVersion)
        { bareNode (.child label) name odooVersion with
          module := some owner, helper_unstamped := fun _ => rfl } run now
  | .module name odooVersion now =>
      graph.mergeBy (fun node => node.label == .module && node.name == name &&
          node.odooVersion == odooVersion)
        { bareNode .module name odooVersion with
          lastSeenAt := some now, helper_unstamped := fun _ => rfl } none now

def build (writes : List Write) : Graph := writes.foldl Write.apply .empty

def Write.writer (label : Label) (xmlid odooVersion : String) : Write → Option String
  | .record written owner id version _ _ =>
      if written = label ∧ id = xmlid ∧ version = odooVersion then some owner else none
  | _ => none

def lastWriter (writes : List Write) (label : Label) (xmlid odooVersion : String) : Option String :=
  writes.foldl (fun last write => (write.writer label xmlid odooVersion).or last) none

def Write.now : Write → Nat
  | .record _ _ _ _ _ now => now
  | .placeholder _ _ _ => 0
  | .child _ _ _ _ _ _ now => now
  | .module _ _ now => now

section Cascade
variable {graph : Graph} {args : Retire} {xmlids : List String} {node : Node} {label : Label}

/-- The cascade's selection of a child by its `module` and stamp. -/
def Retire.owns (retire : Retire) (node : Node) : Bool :=
  node.odooVersion == retire.odooVersion && node.module.any (retire.names.contains ·) &&
    before retire.runAt node.writtenAt

theorem mem_delete_iff (isLabel : node.label = .child label) (plain : label ≠ .lintViolation)
    (statement : Statement) :
    node ∈ (statement.delete graph (args.select graph xmlids statement)).nodes ↔
      node ∈ graph.nodes ∧ ¬ (statement = .nodes (.child label) ∧ args.owns node = true) := by
  cases statement with
  | rels start => simp [Statement.delete, Graph.deleteRels]
  | nodes other =>
      have selected : node ∈ graph.nodes → (node.id ∈ args.select graph xmlids (.nodes other) ↔
          other = .child label ∧ args.owns node = true) := by
        intro nodeIn
        have chosen : node.id ∈ args.select graph xmlids (.nodes other) ↔
            args.selects graph xmlids other node = true := by
          refine ⟨fun selected => mem_selected_nodes nodeIn selected, fun selected => ?_⟩
          exact List.mem_map.mpr ⟨node, List.mem_filter.mpr ⟨nodeIn, selected⟩, rfl⟩
        rw [chosen]
        by_cases same : other = .child label
        · subst same
          have owned : args.selects graph xmlids (.child label) node = args.owns node := by
            cases label <;> simp_all [Retire.selects, Retire.owns, Bool.and_assoc]
          simp [owned]
        · have different : ¬ node.label = other := fun isOther => same (isOther.symm.trans isLabel)
          simp [Retire.selects, different, same]
      simp only [Statement.delete, Graph.detachDelete, List.mem_filter, Bool.not_eq_true',
        List.contains_eq_mem, decide_eq_false_iff_not, Statement.nodes.injEq]
      constructor
      · intro kept
        exact ⟨kept.1, fun gone => kept.2 ((selected kept.1).mpr gone)⟩
      · intro kept
        exact ⟨kept.1, fun gone => kept.2 ((selected kept.1).mp gone)⟩

theorem mem_execute_iff (isLabel : node.label = .child label) (plain : label ≠ .lintViolation)
    (statements : List Statement) :
    node ∈ ((Call.retire args).execute xmlids statements graph).nodes ↔
      node ∈ graph.nodes ∧ ¬ (.nodes (.child label) ∈ statements ∧ args.owns node = true) := by
  induction statements generalizing graph with
  | nil => simp [Call.execute]
  | cons statement rest ih =>
      have deleted := @ih (statement.delete graph (args.select graph xmlids statement))
      have first := @mem_delete_iff graph args xmlids node label isLabel plain statement
      simp only [Call.execute, List.foldl_cons] at deleted ⊢
      refine deleted.trans ?_
      rw [first, List.mem_cons]
      constructor
      · rintro ⟨⟨nodeIn, notFirst⟩, notRest⟩
        refine ⟨nodeIn, ?_⟩
        rintro ⟨isFirst | inRest, owned⟩
        · exact notFirst ⟨isFirst.symm, owned⟩
        · exact notRest ⟨inRest, owned⟩
      · rintro ⟨nodeIn, kept⟩
        exact ⟨⟨nodeIn, fun gone => kept ⟨Or.inl gone.1.symm, gone.2⟩⟩,
          fun gone => kept ⟨Or.inr gone.1, gone.2⟩⟩

/-- `retire_modules` deletes a child exactly when its `module` passes the first guard and its
stamp is older than the run. -/
theorem mem_retireModules_iff (isLabel : node.label = .child label)
    (plain : label ≠ .lintViolation) :
    node ∈ (retireModules graph args).nodes ↔
      node ∈ graph.nodes ∧
        ¬ Retire.owns { args with names := args.targets graph } node = true := by
  unfold retireModules
  split
  · rename_i nothing
    simp [Retire.owns, nothing]
  · have everyLabel : (Statement.nodes (.child label)) ∈ (args.guarded graph).statements :=
      List.mem_map_of_mem (List.mem_append_left _ (List.mem_map_of_mem (mem_moduleChildLabels label)))
    have executed := @mem_execute_iff graph { args with names := args.targets graph }
      (moduleViewXmlids graph args.odooVersion (args.targets graph)) node label isLabel plain
      (args.guarded graph).statements
    refine executed.trans ?_
    simp [everyLabel]

end Cascade

theorem freshId_unused (graph : Graph) {node : Node} (nodeIn : node ∈ graph.nodes) :
    node.id ≠ graph.freshId := by
  have bounded : ∀ ids : List Nat, ∀ id ∈ ids, id ≤ ids.foldr max 0 := by
    intro ids
    induction ids with
    | nil => simp
    | cons first rest ih =>
        intro id member
        rcases List.mem_cons.mp member with rfl | later
        · exact Nat.le_max_left _ _
        · have below := ih id later
          simp only [List.foldr_cons]
          omega
  have below := bounded (graph.nodes.map (·.id)) node.id (List.mem_map_of_mem nodeIn)
  unfold Graph.freshId
  omega

section Writes
variable {graph : Graph} {key : Node → Bool} {new : Node} {run : Option String} {now : Nat}

/-- A `MERGE` replaces the node that has the key by the written one, or adds it. -/
theorem mergeBy_nodes (labels : ∀ node, key node = true → node.label = new.label) :
    ∃ written : Node, written.label = new.label ∧ written.xmlid = new.xmlid ∧
      written.odooVersion = new.odooVersion ∧ written.module = new.module ∧
      written.lastSeenAt = new.lastSeenAt ∧
      (∀ instant, (run.isSome = true → now < instant) →
        (∀ node ∈ graph.nodes, before instant node.writtenAt = true) →
          before instant written.writtenAt = true) ∧
      ∀ node, node ∈ (graph.mergeBy key new run now).nodes ↔
        node = written ∨ node ∈ graph.nodes ∧ graph.nodes.find? key ≠ some node := by
  have chosen : ∃ id : Nat, ∃ old : Option Node,
      ((graph.nodes.find? key).map (·.id)).getD graph.freshId = id ∧
      graph.nodes.find? (·.id == id) = old ∧
      (old.map (·.label)).getD new.label = new.label ∧
      (∀ node ∈ graph.nodes, node.id = id ↔ graph.nodes.find? key = some node) := by
    cases found : graph.nodes.find? key with
    | none =>
        refine ⟨graph.freshId, none, rfl, ?_, rfl, fun node nodeIn => ?_⟩
        · refine List.find?_eq_none.mpr fun node nodeIn => ?_
          simpa using freshId_unused graph nodeIn
        · simpa using freshId_unused graph nodeIn
    | some old =>
        have oldIn := List.mem_of_find?_eq_some found
        have oldKey := List.find?_some found
        refine ⟨old.id, some old, rfl, ?_, labels old oldKey, fun node nodeIn => ?_⟩
        · cases same : graph.nodes.find? (·.id == old.id) with
          | none =>
              have missing := List.find?_eq_none.mp same old oldIn
              simp at missing
          | some other =>
              have sameId := List.find?_some same
              rw [graph.node_eq_of_id (List.mem_of_find?_eq_some same) oldIn (by simpa using sameId)]
        · constructor
          · intro sameId
            rw [graph.node_eq_of_id nodeIn oldIn sameId]
          · intro isOld
            rw [Option.some.inj isOld]
  obtain ⟨id, old, isId, isOld, oldLabel, replaced⟩ := chosen
  refine ⟨Node.stamped { new with id } old run now, ?_, rfl, rfl, rfl, rfl, ?_, ?_⟩
  · exact oldLabel
  · intro instant early known
    refine stamped_before _ early fun previous isPrevious => ?_
    rw [isPrevious] at isOld
    exact known previous (List.mem_of_find?_eq_some isOld)
  · intro node
    unfold Graph.mergeBy Graph.mergeNode
    simp only [isId, isOld, List.mem_cons, List.mem_filter, bne_iff_ne, ne_eq]
    constructor
    · rintro (isNew | ⟨nodeIn, otherId⟩)
      · exact Or.inl isNew
      · exact Or.inr ⟨nodeIn, fun found => otherId ((replaced node nodeIn).mpr found)⟩
    · rintro (isNew | ⟨nodeIn, notFound⟩)
      · exact Or.inl isNew
      · exact Or.inr ⟨nodeIn, fun sameId => notFound ((replaced node nodeIn).mp sameId)⟩

end Writes

structure Tracks (runAt : Nat) (label : Label) (xmlid odooVersion : String) (last : Option String)
    (graph : Graph) : Prop where
  early : ∀ node ∈ graph.nodes,
    before runAt node.writtenAt = true ∧ before runAt node.lastSeenAt = true
  single : ∀ first ∈ graph.nodes, ∀ second ∈ graph.nodes,
    first.isRecord label xmlid odooVersion = true →
      second.isRecord label xmlid odooVersion = true → first = second
  owner : ∀ module, last = some module → ∃ node ∈ graph.nodes,
    node.isRecord label xmlid odooVersion = true ∧ node.module = some module

section Tracking
variable {runAt : Nat} {label : Label} {xmlid odooVersion : String} {last : Option String}
  {graph : Graph} {key : Node → Bool} {new : Node} {run : Option String} {now : Nat}

theorem isRecord_iff {node : Node} :
    node.isRecord label xmlid odooVersion = true ↔
      node.label = .child label ∧ node.xmlid = some xmlid ∧ node.odooVersion = odooVersion := by
  simp [Node.isRecord, and_assoc]

theorem isRecord_apart {node : Node} {written : Label} {id version : String}
    (isRecord : node.isRecord written id version = true)
    (differs : ¬ (written = label ∧ id = xmlid ∧ version = odooVersion)) :
    node.isRecord label xmlid odooVersion = false := by
  obtain ⟨isLabel, isXmlid, isVersion⟩ := isRecord_iff.mp isRecord
  by_contra also
  obtain ⟨label', xmlid', version'⟩ := isRecord_iff.mp (Bool.not_eq_false _ ▸ also)
  rw [isLabel] at label'
  rw [isXmlid] at xmlid'
  exact differs ⟨NodeLabel.child.inj label', Option.some.inj xmlid', isVersion.symm.trans version'⟩

theorem isRecord_congr {first second : Node} (sameLabel : first.label = second.label)
    (sameXmlid : first.xmlid = second.xmlid) (sameVersion : first.odooVersion = second.odooVersion) :
    first.isRecord label xmlid odooVersion = second.isRecord label xmlid odooVersion := by
  simp [Node.isRecord, sameLabel, sameXmlid, sameVersion]

theorem Tracks.early_mergeBy (tracks : Tracks runAt label xmlid odooVersion last graph)
    (labels : ∀ node, key node = true → node.label = new.label)
    (earlyRun : run.isSome = true → now < runAt) (earlySeen : before runAt new.lastSeenAt = true) :
    ∀ node ∈ (graph.mergeBy key new run now).nodes,
      before runAt node.writtenAt = true ∧ before runAt node.lastSeenAt = true := by
  obtain ⟨written, -, -, -, -, seen, stamped, nodes⟩ :=
    @mergeBy_nodes graph key new run now labels
  intro node nodeIn
  rcases (nodes node).mp nodeIn with rfl | ⟨old, -⟩
  · refine ⟨stamped runAt earlyRun fun known knownIn => (tracks.early known knownIn).1, ?_⟩
    rw [seen]
    exact earlySeen
  · exact tracks.early node old

/-- A write of anything else leaves the record. -/
theorem Tracks.other (tracks : Tracks runAt label xmlid odooVersion last graph)
    (labels : ∀ node, key node = true → node.label = new.label)
    (earlyRun : run.isSome = true → now < runAt) (earlySeen : before runAt new.lastSeenAt = true)
    (apart : ∀ node, key node = true → node.isRecord label xmlid odooVersion = false)
    (notRecord : new.isRecord label xmlid odooVersion = false) :
    Tracks runAt label xmlid odooVersion last (graph.mergeBy key new run now) := by
  obtain ⟨written, sameLabel, sameXmlid, sameVersion, -, -, -, nodes⟩ :=
    @mergeBy_nodes graph key new run now labels
  have writtenApart : written.isRecord label xmlid odooVersion = false := by
    rw [isRecord_congr sameLabel sameXmlid sameVersion]
    exact notRecord
  have oldOnly : ∀ node ∈ (graph.mergeBy key new run now).nodes,
      node.isRecord label xmlid odooVersion = true → node ∈ graph.nodes := by
    intro node nodeIn isRecord
    rcases (nodes node).mp nodeIn with rfl | ⟨old, -⟩
    · rw [writtenApart] at isRecord
      cases isRecord
    · exact old
  refine ⟨tracks.early_mergeBy labels earlyRun earlySeen, ?_, ?_⟩
  · intro first firstIn second secondIn firstRecord secondRecord
    exact tracks.single first (oldOnly first firstIn firstRecord) second
      (oldOnly second secondIn secondRecord) firstRecord secondRecord
  · intro module isLast
    obtain ⟨node, nodeIn, isRecord, isOwner⟩ := tracks.owner module isLast
    refine ⟨node, (nodes node).mpr (Or.inr ⟨nodeIn, fun found => ?_⟩), isRecord, isOwner⟩
    rw [apart node (List.find?_some found)] at isRecord
    cases isRecord

theorem Tracks.same {module : String} (tracks : Tracks runAt label xmlid odooVersion last graph)
    (earlyRun : run.isSome = true → now < runAt) (earlySeen : before runAt new.lastSeenAt = true)
    (isRecord : new.isRecord label xmlid odooVersion = true) (writes : new.module = some module) :
    Tracks runAt label xmlid odooVersion (some module)
      (graph.mergeBy (Node.isRecord label xmlid odooVersion) new run now) := by
  have labels : ∀ node, Node.isRecord label xmlid odooVersion node = true →
      node.label = new.label := by
    intro node nodeRecord
    rw [(isRecord_iff.mp nodeRecord).1, (isRecord_iff.mp isRecord).1]
  obtain ⟨written, sameLabel, sameXmlid, sameVersion, sameModule, -, -, nodes⟩ :=
    @mergeBy_nodes graph (Node.isRecord label xmlid odooVersion) new run now labels
  have writtenRecord : written.isRecord label xmlid odooVersion = true := by
    rw [isRecord_congr sameLabel sameXmlid sameVersion]
    exact isRecord
  have onlyWritten : ∀ node ∈ (graph.mergeBy (Node.isRecord label xmlid odooVersion) new run now).nodes,
      node.isRecord label xmlid odooVersion = true → node = written := by
    intro node nodeIn nodeRecord
    rcases (nodes node).mp nodeIn with isWritten | ⟨old, notFound⟩
    · exact isWritten
    · cases found : graph.nodes.find? (Node.isRecord label xmlid odooVersion) with
      | none =>
          have missing := List.find?_eq_none.mp found node old
          exact absurd nodeRecord missing
      | some other =>
          have same := tracks.single node old other (List.mem_of_find?_eq_some found) nodeRecord
            (List.find?_some found)
          rw [found, same] at notFound
          exact absurd rfl notFound
  refine ⟨tracks.early_mergeBy labels earlyRun earlySeen, ?_, ?_⟩
  · intro first firstIn second secondIn firstRecord secondRecord
    rw [onlyWritten first firstIn firstRecord, onlyWritten second secondIn secondRecord]
  · intro other isOther
    cases isOther
    exact ⟨written, (nodes written).mpr (Or.inl rfl), writtenRecord, sameModule.trans writes⟩

theorem Tracks.placed (tracks : Tracks runAt label xmlid odooVersion last graph)
    (absent : ∀ node ∈ graph.nodes, node.isRecord label xmlid odooVersion = false)
    (labels : ∀ node, key node = true → node.label = new.label)
    (earlyRun : run.isSome = true → now < runAt) (earlySeen : before runAt new.lastSeenAt = true) :
    Tracks runAt label xmlid odooVersion last (graph.mergeBy key new run now) := by
  obtain ⟨written, -, -, -, -, -, -, nodes⟩ := @mergeBy_nodes graph key new run now labels
  have onlyWritten : ∀ node ∈ (graph.mergeBy key new run now).nodes,
      node.isRecord label xmlid odooVersion = true → node = written := by
    intro node nodeIn nodeRecord
    rcases (nodes node).mp nodeIn with isWritten | ⟨old, -⟩
    · exact isWritten
    · rw [absent node old] at nodeRecord
      cases nodeRecord
  refine ⟨tracks.early_mergeBy labels earlyRun earlySeen, ?_, ?_⟩
  · intro first firstIn second secondIn firstRecord secondRecord
    rw [onlyWritten first firstIn firstRecord, onlyWritten second secondIn secondRecord]
  · intro module isLast
    obtain ⟨node, nodeIn, isRecord, -⟩ := tracks.owner module isLast
    rw [absent node nodeIn] at isRecord
    cases isRecord

theorem Tracks.write (keyed : xmlidKeyed label = true) (write : Write) (early : write.now < runAt)
    (tracks : Tracks runAt label xmlid odooVersion last graph) :
    Tracks runAt label xmlid odooVersion ((write.writer label xmlid odooVersion).or last)
      (write.apply graph) := by
  cases write with
  | record written owner id version run now =>
      have isRecord : Node.isRecord written id version
          { bareNode (.child written) id version with
            module := some owner, xmlid := some id, helper_unstamped := fun _ => rfl } = true :=
        isRecord_iff.mpr ⟨rfl, rfl, rfl⟩
      by_cases same : written = label ∧ id = xmlid ∧ version = odooVersion
      · obtain ⟨rfl, rfl, rfl⟩ := same
        simp only [Write.writer, and_self, if_true]
        exact tracks.same (fun _ => early) rfl isRecord rfl
      · simp only [Write.writer, if_neg same, Option.none_or]
        exact tracks.other (fun node isKey => (isRecord_iff.mp isKey).1) (fun _ => early) rfl
          (fun node isKey => isRecord_apart isKey same) (isRecord_apart isRecord same)
  | placeholder written id version =>
      simp only [Write.writer, Option.none_or, Write.apply]
      split
      · exact tracks
      · rename_i absent
        by_cases same : written = label ∧ id = xmlid ∧ version = odooVersion
        · obtain ⟨rfl, rfl, rfl⟩ := same
          exact tracks.placed (by simpa using absent) (fun _ isKey => absurd isKey (by simp))
            (fun isRun => absurd isRun (by simp)) rfl
        · exact tracks.other (fun _ isKey => absurd isKey (by simp))
            (fun isRun => absurd isRun (by simp)) rfl (fun _ isKey => absurd isKey (by simp))
            (isRecord_apart (isRecord_iff.mpr ⟨rfl, rfl, rfl⟩) same)
  | child written plain name owner version run now =>
      have differs : written ≠ label := by
        rintro rfl
        rw [plain] at keyed
        cases keyed
      refine tracks.other ?_ (fun _ => early) rfl ?_ ?_
      · intro node isKey
        simp only [Bool.and_eq_true, beq_iff_eq] at isKey
        exact isKey.1.1.1
      · intro node isKey
        simp only [Bool.and_eq_true, beq_iff_eq] at isKey
        simp [Node.isRecord, isKey.1.1.1, differs]
      · simp [Node.isRecord, bareNode]
  | module name version now =>
      refine tracks.other ?_ (fun isRun => absurd isRun (by simp)) ?_ ?_ ?_
      · intro node isKey
        simp only [Bool.and_eq_true, beq_iff_eq] at isKey
        exact isKey.1.1
      · exact decide_eq_true early
      · intro node isKey
        simp only [Bool.and_eq_true, beq_iff_eq] at isKey
        simp [Node.isRecord, isKey.1.1]
      · simp [Node.isRecord, bareNode]

theorem tracks_build (keyed : xmlidKeyed label = true) (writes : List Write)
    (early : ∀ write ∈ writes, write.now < runAt) :
    Tracks runAt label xmlid odooVersion (lastWriter writes label xmlid odooVersion)
      (build writes) := by
  have folded : ∀ (writes : List Write) (last : Option String) (graph : Graph),
      (∀ write ∈ writes, write.now < runAt) → Tracks runAt label xmlid odooVersion last graph →
      Tracks runAt label xmlid odooVersion
        (writes.foldl (fun last write => (write.writer label xmlid odooVersion).or last) last)
        (writes.foldl Write.apply graph) := by
    intro writes
    induction writes with
    | nil => exact fun _ _ _ tracks => tracks
    | cons write rest ih =>
        intro last graph early tracks
        have first := tracks.write keyed write (early write List.mem_cons_self)
        exact ih _ _ (fun later laterIn => early later (List.mem_cons_of_mem _ laterIn)) first
  exact folded writes none .empty early
    ⟨fun _ member => absurd member List.not_mem_nil, fun _ member => absurd member List.not_mem_nil,
      fun _ isLast => by cases isLast⟩

end Tracking

def Write.isBy (label : Label) (module xmlid odooVersion : String) (write : Write) : Bool :=
  write.writer label xmlid odooVersion == some module

theorem lastWriter_some {writes : List Write} {label : Label} {xmlid odooVersion : String}
    {write : Write} {module : String} (writeIn : write ∈ writes)
    (isBy : write.isBy label module xmlid odooVersion = true) :
    ∃ last, lastWriter writes label xmlid odooVersion = some last := by
  induction writes using List.reverseRecOn with
  | nil => cases writeIn
  | append_singleton earlier newest ih =>
      unfold lastWriter at ih ⊢
      rw [List.foldl_append, List.foldl_cons, List.foldl_nil]
      cases isWriter : newest.writer label xmlid odooVersion with
      | some last => exact ⟨last, rfl⟩
      | none =>
          rcases List.mem_append.mp writeIn with old | isNewest
          · exact ih old
          · rw [List.mem_singleton.mp isNewest, Write.isBy, isWriter] at isBy
            cases isBy

/-- After any writes and with no concurrent writer, a View, template or report that a module has
written survives a retirement if and only if its last writer is not retired, whatever module
its xmlid belongs to. -/
theorem retirement_spares_record_iff (writes : List Write) (retire : Retire) (label : Label)
    (owner xmlid : String) (keyed : xmlidKeyed label = true)
    (quiet : ∀ write ∈ writes, write.now < retire.runAt)
    (wrote : ∃ write ∈ writes, write.isBy label owner xmlid retire.odooVersion = true) :
    (∃ node ∈ (retireModules (build writes) retire).nodes,
        node.isRecord label xmlid retire.odooVersion = true) ↔
      ∀ last, lastWriter writes label xmlid retire.odooVersion = some last →
        last ∉ retirable retire.names := by
  have tracks := @tracks_build retire.runAt label xmlid retire.odooVersion keyed writes quiet
  obtain ⟨write, writeIn, isBy⟩ := wrote
  obtain ⟨last, isLast⟩ := lastWriter_some writeIn isBy
  obtain ⟨record, recordIn, isRecord, isOwner⟩ := tracks.owner last isLast
  have targets : retire.targets (build writes) = retirable retire.names := by
    refine List.filter_eq_self.mpr fun name _ => ?_
    simp only [Bool.not_eq_true', List.any_eq_false]
    intro node nodeIn late
    have early := (tracks.early node nodeIn).2
    cases seen : node.lastSeenAt with
    | none => simp [seen] at late
    | some stamp =>
        simp only [seen, before, Option.all_some, decide_eq_true_eq, Option.any_some,
          Bool.and_eq_true] at early late
        omega
  have plain : label ≠ .lintViolation := by
    rintro rfl
    cases keyed
  obtain ⟨isLabel, -, isVersion⟩ := isRecord_iff.mp isRecord
  have owns : Retire.owns { retire with names := retire.targets (build writes) } record = true ↔
      last ∈ retirable retire.names := by
    rw [targets]
    simp [Retire.owns, isVersion, isOwner, (tracks.early record recordIn).1]
  have deleted := @mem_retireModules_iff (build writes) retire record label isLabel plain
  constructor
  · rintro ⟨node, nodeIn, nodeRecord⟩ other isOther
    rw [isLast] at isOther
    cases isOther
    have survived := (mem_retireModules_iff (isRecord_iff.mp nodeRecord).1 plain).mp nodeIn
    have same := tracks.single node survived.1 record recordIn nodeRecord isRecord
    rw [same] at survived
    exact fun retired => survived.2 (owns.mpr retired)
  · intro kept
    exact ⟨record, deleted.mpr ⟨recordIn, fun gone => kept last isLast (owns.mp gone)⟩, isRecord⟩

/-- `base` writes its view, `sale` overrides it. -/
def overridden : List Write :=
  [.module "base" "17" 10, .record .view "base" "base.v" "17" (some "r1") 10,
    .module "sale" "17" 20, .record .view "sale" "base.v" "17" (some "r1") 20]

def retireSale : Retire := { odooVersion := "17", names := ["sale"], runAt := 100 }

/-- `base` was written again after the override. -/
theorem rewritten_view_survives :
    ∃ node ∈ (retireModules (build (overridden ++
        [.record .view "base" "base.v" "17" (some "r2") 30])) retireSale).nodes,
      node.isRecord .view "base.v" "17" = true := by
  refine (retirement_spares_record_iff _ retireSale .view "base" "base.v" rfl (by decide +kernel)
    ⟨.record .view "base" "base.v" "17" (some "r2") 30, by simp, by decide +kernel⟩).mpr ?_
  intro last isLast
  have isBase : some last = some "base" := isLast.symm.trans (by decide +kernel)
  rw [Option.some.inj isBase]
  decide +kernel

/-- The view of `base` goes with the module that overrode it last. -/
theorem overridden_view_deleted :
    inNamespace "base" (some "base.v") = true ∧ "base" ∉ retirable retireSale.names ∧
      (overridden.any (Write.isBy .view "base" "base.v" "17")) = true ∧
      ((build overridden).nodes.any (Node.isRecord .view "base.v" "17")) = true ∧
      ((retireModules (build overridden) retireSale).nodes.any
        (Node.isRecord .view "base.v" "17")) = false := by
  decide +kernel

end OdooSemantic.Neo4j
