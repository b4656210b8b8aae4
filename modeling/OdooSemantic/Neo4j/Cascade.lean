import OdooSemantic.Neo4j.Nodes
import OdooSemantic.Lib.Run

/-!
# The entity prune and the retirement cascade, statement by statement

A `CALL … IN TRANSACTIONS` evaluates its selection once and commits the deletes
in later batches.  Other runs commit transactions between any two of these
steps.
-/

set_option autoImplicit false

namespace OdooSemantic.Neo4j

open Lib.Run

/-! ## Calls and their statements -/

/-- The arguments of `prune_module_children`; none for the ids is the whole selection. -/
structure Prune where
  odooVersion : String
  name : String
  mode : PruneMode
  filePrefixes : List String
  skipLabels : List NodeLabel
  onlyIds : Option (List Nat)
  onlyRelIds : Option (List Nat)
  deriving DecidableEq

/-- The arguments of `retire_modules`. -/
structure Retire where
  odooVersion : String
  names : List String
  runAt : Nat
  deriving DecidableEq

inductive Call where
  | prune (args : Prune)
  | retire (args : Retire)
  deriving DecidableEq

inductive Statement where
  | nodes (label : NodeLabel)
  | rels (start : NodeLabel)
  deriving DecidableEq

section Selections
variable (graph : Graph) (xmlids : List String)

def startsWith (text initial : String) : Bool := initial.toList.isPrefixOf text.toList

def containsText (text part : String) : Bool := text.toList.tails.any part.toList.isPrefixOf

/-- `_prune_selector`: the selection of a label. -/
def Prune.selects (prune : Prune) (label : Label) (node : Node) : Bool :=
  node.label == .child label && node.odooVersion == prune.odooVersion &&
    match label with
    | .lintViolation =>
        (node.filePath.any fun path =>
          prune.filePrefixes.any (startsWith path) ||
            (node.viewXmlid.any (xmlids.contains ·) &&
              (startsWith path (prune.name ++ "/") || containsText path ("/" ++ prune.name ++ "/")))) &&
          isModuleLintViolation graph prune.odooVersion [prune.name] xmlids node
    | .testHelper => node.module == some prune.name
    | label => node.module == some prune.name &&
        (!xmlidKeyed label || inNamespace prune.name node.xmlid)

/-- `_prune_selector`: the stale predicate of a label. -/
def Prune.isStale (prune : Prune) (label : Label) (node : Node) : Bool :=
  match label with
  | .testHelper =>
      !graph.nodes.any fun testClass => testClass.label == .child .testClass &&
        testClass.name == node.name && testClass.module == some prune.name &&
        testClass.odooVersion == prune.odooVersion &&
        (testClass.writtenRun == some prune.mode.run ||
          prune.mode.runStarted.any fun started =>
            testClass.writtenAt.any fun stamp => decide (started ≤ stamp))
  | _ => stale prune.mode.run prune.mode.runStarted node.writtenRun node.writtenAt

/-- `_STALE_REL`. -/
def Prune.isStaleRel (prune : Prune) (node : Node) (rel : Rel) : Bool :=
  stale prune.mode.run prune.mode.runStarted rel.writtenRun rel.writtenAt &&
    !(prune.mode.keepSameNameInherits && rel.type == .inherits &&
      graph.nodes.any fun finish => finish.id == rel.finish && finish.name == node.name)

/-- `_rel_selector`: the surviving children of a label, or the Module node. -/
def Prune.starts (prune : Prune) (start : NodeLabel) (node : Node) : Bool :=
  match start with
  | .module => node.label == .module && node.name == prune.name &&
      node.odooVersion == prune.odooVersion
  | .child label => prune.selects graph xmlids label node && !prune.isStale graph label node
  | .shared => false

def Prune.select (prune : Prune) : Statement → List Nat
  | .nodes (.child label) =>
      (graph.nodes.filter fun node => prune.selects graph xmlids label node &&
        prune.isStale graph label node && prune.onlyIds.all (·.contains node.id)).map (·.id)
  | .nodes _ => []
  | .rels start =>
      (graph.rels.filter fun rel => (moduleChildRelTypes start).contains rel.type &&
        (graph.nodes.any fun node => node.id == rel.start && prune.starts graph xmlids start node &&
          prune.isStaleRel graph node rel) &&
        prune.onlyRelIds.all (·.contains rel.id)).map (·.id)

/-- The nodes a statement of the cascade selects: `_written_before_run` guards every child. -/
def Retire.selects (retire : Retire) (label : NodeLabel) (node : Node) : Bool :=
  node.label == label && node.odooVersion == retire.odooVersion &&
    match label with
    | .child .lintViolation =>
        isModuleLintViolation graph retire.odooVersion retire.names xmlids node &&
          before retire.runAt node.writtenAt
    | .child _ => node.module.any (retire.names.contains ·) && before retire.runAt node.writtenAt
    | .module => retire.names.contains node.name && before retire.runAt node.lastSeenAt
    | .shared => false

def Retire.select (retire : Retire) : Statement → List Nat
  | .nodes label => (graph.nodes.filter (retire.selects graph xmlids label)).map (·.id)
  | .rels _ => []

def Call.select : Call → Statement → List Nat
  | .prune args => args.select graph xmlids
  | .retire args => args.select graph xmlids

end Selections

def Statement.delete (graph : Graph) (ids : List Nat) : Statement → Graph
  | .nodes _ => graph.detachDelete ids
  | .rels _ => graph.deleteRels ids

def Call.statements : Call → List Statement
  | .prune args =>
      if args.name = "" ∨ args.name ∈ nonRetirableModuleNames then []
      else
        (if args.onlyIds = some [] then []
         else (moduleChildLabels.map NodeLabel.child).filter (!args.skipLabels.contains ·)).map
            Statement.nodes ++
        (if args.onlyRelIds = some [] then []
         else (NodeLabel.module :: moduleChildLabels.map NodeLabel.child).filter fun start =>
            !args.skipLabels.contains start && !(moduleChildRelTypes start).isEmpty).map
            Statement.rels
  | .retire _ => (moduleChildLabels.map NodeLabel.child ++ [NodeLabel.module]).map Statement.nodes

def Call.names : Call → List String
  | .prune args => [args.name]
  | .retire args => args.names

def Call.odooVersion : Call → String
  | .prune args => args.odooVersion
  | .retire args => args.odooVersion

/-- The guard instant: the run start or the cutoff of a prune, `run_started_at` of a
retirement. -/
def Call.guard : Call → Option Nat
  | .prune args => args.mode.runStarted
  | .retire args => some args.runAt

/-- The names `retire_modules` considers. -/
def retirable (names : List String) : List String :=
  names.filter fun name => name != "" && !nonRetirableModuleNames.contains name

/-- The first guard of `retire_modules`: the names not written since the caller started. -/
def Retire.targets (graph : Graph) (retire : Retire) : List String :=
  (retirable retire.names).filter fun name =>
    !graph.nodes.any fun node => node.label == .module && node.name == name &&
      node.odooVersion == retire.odooVersion &&
      node.lastSeenAt.any fun seen => decide (retire.runAt ≤ seen)

/-- Where a call stands between two of its statements. -/
inductive Phase where
  | idle
  | checking (retire : Retire)
  | reading (call : Call)
  | running (call : Call) (xmlids : List String) (statement : Statement)
      (rest : List Statement) (pending : Option (List Nat))
  deriving DecidableEq

inductive Progress where
  | proceed
  | commit (batch : List Nat)
  | transientError
  | error

def Call.next (call : Call) (xmlids : List String) : List Statement → Phase
  | [] => .idle
  | statement :: rest => .running call xmlids statement rest none

def Call.begin : Call → Phase
  | .prune args => .reading (.prune args)
  | .retire args => .checking args

/-- One step of a call: a read, the selection of a statement, or one of its batches.  A
transient error selects again, any other ends the call. -/
def advance (graph : Graph) : Phase → Progress → Graph × Phase
  | .checking retire, .proceed =>
      let targets := retire.targets graph
      (graph, if targets = [] then .idle else .reading (.retire { retire with names := targets }))
  | .reading call, .proceed =>
      (graph, call.next (moduleViewXmlids graph call.odooVersion call.names) call.statements)
  | .running call xmlids statement rest none, .proceed =>
      (graph, .running call xmlids statement rest (some (call.select graph xmlids statement)))
  | .running call xmlids statement rest (some pending), .commit batch =>
      (statement.delete graph (pending.filter batch.contains),
        if pending.filter (!batch.contains ·) = [] then call.next xmlids rest
        else .running call xmlids statement rest (some (pending.filter (!batch.contains ·))))
  | .running call xmlids statement rest (some _), .transientError =>
      (graph, .running call xmlids statement rest none)
  | _, .error => (graph, .idle)
  | phase, _ => (graph, phase)

/-- A statement of a writer's transaction, at the server's time `now`. -/
inductive Merge where
  | node (new : Node) (run : Option String) (now : Nat)
  | rel (new : Rel) (run : Option String) (now : Nat)

def Merge.apply (graph : Graph) : Merge → Graph
  | .node new run now => graph.mergeNode new run now
  | .rel new run now => graph.mergeRel new run now

structure State where
  graph : Graph
  calls : List Phase

inductive Event where
  | start (call : Call)
  | act (index : Nat) (progress : Progress)
  | transaction (merges : List Merge)

def step (state : State) : Event → State
  | .start call => { state with calls := state.calls ++ [call.begin] }
  | .act index progress =>
      match state.calls[index]? with
      | none => state
      | some phase =>
          { graph := (advance state.graph phase progress).1
            calls := state.calls.set index (advance state.graph phase progress).2 }
  | .transaction merges => { state with graph := merges.foldl Merge.apply state.graph }

def Phase.guard : Phase → Option Nat
  | .running call _ _ _ _ => call.guard
  | _ => none

def Phase.pendingNodes : Phase → List Nat
  | .running _ _ (.nodes _) _ (some pending) => pending
  | _ => []

def Phase.pendingRels : Phase → List Nat
  | .running _ _ (.rels _) _ (some pending) => pending
  | _ => []

def Phase.relationshipStep : Phase → Bool
  | .running _ _ (.rels _) _ _ => true
  | _ => false

def Node.isChild (node : Node) : Bool :=
  match node.label with
  | .child _ => true
  | _ => false

/-- No child whose stamp is at or after the guard instant is deleted by the step, and no such
relationship by a relationship step. -/
def SparesRecent (state : State) : Event → Prop
  | .act index progress =>
      ∀ phase, state.calls[index]? = some phase → ∀ instant, phase.guard = some instant →
        (∀ node ∈ state.graph.nodes, node ∉ (step state (.act index progress)).graph.nodes →
          node.isChild = true → before instant node.writtenAt = true) ∧
        (phase.relationshipStep = true → ∀ rel ∈ state.graph.rels,
          rel ∉ (step state (.act index progress)).graph.rels →
            before instant rel.writtenAt = true)
  | _ => True

def Merge.touches (phase : Phase) : Merge → Bool
  | .node new _ _ => phase.pendingNodes.contains new.id
  | .rel new _ _ => phase.pendingRels.contains new.id

def Merge.restamps (instant : Nat) : Merge → Bool
  | .node _ run now => run.isSome && decide (instant ≤ now)
  | .rel _ run now => run.isSome && decide (instant ≤ now)

/-- No transaction stamps, at or after the guard instant, what a running statement has
already selected. -/
def Undisturbed (state : State) : Event → Prop
  | .transaction merges =>
      ∀ phase ∈ state.calls, ∀ merge ∈ merges, merge.touches phase = true →
        (phase.guard.all fun instant => !merge.restamps instant) = true
  | _ => True

instance (state : State) (event : Event) : Decidable (Undisturbed state event) := by
  cases event <;> unfold Undisturbed <;> infer_instance

/-- What a call has selected is still guarded. -/
structure Protected (graph : Graph) (phase : Phase) : Prop where
  nodes : ∀ instant, phase.guard = some instant → ∀ node ∈ graph.nodes,
    node.id ∈ phase.pendingNodes → node.isChild = true → before instant node.writtenAt = true
  rels : ∀ instant, phase.guard = some instant → ∀ rel ∈ graph.rels,
    rel.id ∈ phase.pendingRels → before instant rel.writtenAt = true

def Safe (state : State) : Prop := ∀ phase ∈ state.calls, Protected state.graph phase

section Protection
variable {graph other : Graph} {phase : Phase}

theorem Protected.of_nothing (nodes : phase.pendingNodes = []) (rels : phase.pendingRels = []) :
    Protected graph phase :=
  ⟨by simp [nodes], by simp [rels]⟩

theorem Protected.shrink (known : Protected graph phase) (nodes : other.nodes ⊆ graph.nodes)
    (rels : other.rels ⊆ graph.rels) : Protected other phase :=
  ⟨fun instant guard node nodeIn => known.nodes instant guard node (nodes nodeIn),
    fun instant guard rel relIn => known.rels instant guard rel (rels relIn)⟩

theorem unselected_protected (call : Call) (xmlids : List String) (statement : Statement)
    (rest : List Statement) : Protected graph (.running call xmlids statement rest none) := by
  cases statement <;> exact .of_nothing rfl rfl

theorem next_protected (call : Call) (xmlids : List String) (rest : List Statement) :
    Protected graph (call.next xmlids rest) := by
  cases rest with
  | nil => exact .of_nothing rfl rfl
  | cons statement rest => exact unselected_protected call xmlids statement rest

theorem begin_protected (call : Call) : Protected graph call.begin := by
  cases call <;> exact .of_nothing rfl rfl

theorem mem_selected_nodes {keep : Node → Bool} {node : Node} (nodeIn : node ∈ graph.nodes)
    (selected : node.id ∈ (graph.nodes.filter keep).map (·.id)) : keep node = true := by
  obtain ⟨chosen, chosenIn, same⟩ := List.mem_map.mp selected
  obtain ⟨chosenNode, kept⟩ := List.mem_filter.mp chosenIn
  rw [← graph.node_eq_of_id chosenNode nodeIn same]
  exact kept

theorem mem_selected_rels {keep : Rel → Bool} {rel : Rel} (relIn : rel ∈ graph.rels)
    (selected : rel.id ∈ (graph.rels.filter keep).map (·.id)) : keep rel = true := by
  obtain ⟨chosen, chosenIn, same⟩ := List.mem_map.mp selected
  obtain ⟨chosenRel, kept⟩ := List.mem_filter.mp chosenIn
  rw [← graph.rel_eq_of_id chosenRel relIn same]
  exact kept

theorem Prune.isStale_before (prune : Prune) (label : Label) (node : Node) (instant : Nat)
    (guard : prune.mode.runStarted = some instant) (isLabel : node.label = .child label)
    (isStale : prune.isStale graph label node = true) : before instant node.writtenAt = true := by
  by_cases helper : label = .testHelper
  · rw [node.helper_unstamped (by rw [isLabel, helper])]
    rfl
  · have token : stale prune.mode.run prune.mode.runStarted node.writtenRun node.writtenAt = true := by
      cases label <;> first | exact isStale | exact absurd rfl helper
    rw [guard] at token
    exact stale_before token

theorem Prune.select_nodes_before (prune : Prune) (xmlids : List String) (label : NodeLabel)
    (instant : Nat) (guard : prune.mode.runStarted = some instant) {node : Node}
    (nodeIn : node ∈ graph.nodes)
    (selected : node.id ∈ prune.select graph xmlids (.nodes label)) :
    before instant node.writtenAt = true := by
  cases label with
  | child label =>
      have kept := mem_selected_nodes nodeIn selected
      simp only [Bool.and_eq_true] at kept
      have isLabel : node.label = .child label := by
        have selects := kept.1.1
        simp only [Prune.selects, Bool.and_eq_true, beq_iff_eq] at selects
        exact selects.1.1
      exact prune.isStale_before label node instant guard isLabel kept.1.2
  | _ => cases selected

theorem Prune.select_rels_before (prune : Prune) (xmlids : List String) (start : NodeLabel)
    (instant : Nat) (guard : prune.mode.runStarted = some instant) {rel : Rel}
    (relIn : rel ∈ graph.rels) (selected : rel.id ∈ prune.select graph xmlids (.rels start)) :
    before instant rel.writtenAt = true := by
  have kept := mem_selected_rels relIn selected
  simp only [Bool.and_eq_true, List.any_eq_true] at kept
  obtain ⟨⟨-, node, -, -, isStale⟩, -⟩ := kept
  simp only [Prune.isStaleRel, guard, Bool.and_eq_true] at isStale
  exact stale_before isStale.1

/-- The cascade guards every child; only Module nodes are judged by `last_seen_at`. -/
theorem Retire.select_nodes_before (retire : Retire) (xmlids : List String) (label : NodeLabel)
    {node : Node} (nodeIn : node ∈ graph.nodes) (isChild : node.isChild = true)
    (selected : node.id ∈ retire.select graph xmlids (.nodes label)) :
    before retire.runAt node.writtenAt = true := by
  have kept := mem_selected_nodes nodeIn selected
  simp only [Retire.selects, Bool.and_eq_true, beq_iff_eq] at kept
  obtain ⟨⟨isLabel, -⟩, guarded⟩ := kept
  cases label with
  | child label => cases label <;> exact (Bool.and_eq_true _ _ ▸ guarded).2
  | module => simp [Node.isChild, isLabel] at isChild
  | shared => cases guarded

theorem selected_protected (call : Call) (xmlids : List String) (statement : Statement)
    (rest : List Statement) :
    Protected graph
      (.running call xmlids statement rest (some (call.select graph xmlids statement))) := by
  cases statement with
  | nodes label =>
      refine ⟨fun instant guard node nodeIn selected isChild => ?_, by simp [Phase.pendingRels]⟩
      cases call with
      | prune args => exact args.select_nodes_before xmlids label instant guard nodeIn selected
      | retire args =>
          cases guard
          exact args.select_nodes_before xmlids label nodeIn isChild selected
  | rels start =>
      refine ⟨by simp [Phase.pendingNodes], fun instant guard rel relIn selected => ?_⟩
      cases call with
      | prune args => exact args.select_rels_before xmlids start instant guard relIn selected
      | retire args => cases selected

theorem Protected.remaining {call : Call} {xmlids : List String} {statement : Statement}
    {rest : List Statement} {pending left : List Nat}
    (known : Protected graph (.running call xmlids statement rest (some pending)))
    (fewer : left ⊆ pending) :
    Protected graph (.running call xmlids statement rest (some left)) := by
  cases statement with
  | nodes label =>
      exact ⟨fun instant guard node nodeIn selected =>
        known.nodes instant guard node nodeIn (fewer selected), by simp [Phase.pendingRels]⟩
  | rels start =>
      exact ⟨by simp [Phase.pendingNodes], fun instant guard rel relIn selected =>
        known.rels instant guard rel relIn (fewer selected)⟩

theorem delete_nodes_subset (statement : Statement) (ids : List Nat) :
    (statement.delete graph ids).nodes ⊆ graph.nodes := by
  cases statement with
  | nodes label => exact List.filter_subset_self _
  | rels start => exact fun _ member => member

theorem delete_rels_subset (statement : Statement) (ids : List Nat) :
    (statement.delete graph ids).rels ⊆ graph.rels := by
  cases statement <;> exact List.filter_subset_self _

theorem advance_graph (phase : Phase) (progress : Progress) :
    (advance graph phase progress).1 = graph ∨
      ∃ call xmlids statement rest pending, ∃ batch : List Nat,
        phase = .running call xmlids statement rest (some pending) ∧
          (advance graph phase progress).1 =
            statement.delete graph (pending.filter (batch.contains ·)) := by
  cases phase with
  | running call xmlids statement rest pending =>
      cases pending with
      | none => cases progress <;> exact Or.inl rfl
      | some pending =>
          cases progress with
          | commit batch => exact Or.inr ⟨call, xmlids, statement, rest, pending, batch, rfl, rfl⟩
          | _ => exact Or.inl rfl
  | _ => cases progress <;> exact Or.inl rfl

theorem advance_nodes_subset (phase : Phase) (progress : Progress) :
    (advance graph phase progress).1.nodes ⊆ graph.nodes := by
  rcases advance_graph phase progress with same | ⟨_, _, statement, _, _, _, -, deleted⟩
  · rw [same]
    exact fun _ member => member
  · rw [deleted]
    exact delete_nodes_subset statement _

theorem advance_rels_subset (phase : Phase) (progress : Progress) :
    (advance graph phase progress).1.rels ⊆ graph.rels := by
  rcases advance_graph phase progress with same | ⟨_, _, statement, _, _, _, -, deleted⟩
  · rw [same]
    exact fun _ member => member
  · rw [deleted]
    exact delete_rels_subset statement _

theorem advance_protected (progress : Progress) (known : Protected graph phase) :
    Protected (advance graph phase progress).1 (advance graph phase progress).2 := by
  cases phase with
  | idle => cases progress <;> exact known
  | checking retire =>
      cases progress with
      | proceed =>
          simp only [advance]
          split <;> exact .of_nothing rfl rfl
      | error => exact .of_nothing rfl rfl
      | _ => exact known
  | reading call =>
      cases progress with
      | proceed => exact next_protected call _ _
      | error => exact .of_nothing rfl rfl
      | _ => exact known
  | running call xmlids statement rest pending =>
      cases pending with
      | none =>
          cases progress with
          | proceed => exact selected_protected call xmlids statement rest
          | error => exact .of_nothing rfl rfl
          | _ => exact known
      | some pending =>
          cases progress with
          | proceed => exact known
          | error => exact .of_nothing rfl rfl
          | transientError => exact unselected_protected call xmlids statement rest
          | commit batch =>
              have kept : Protected (statement.delete graph (pending.filter batch.contains))
                  (.running call xmlids statement rest (some pending)) :=
                known.shrink (delete_nodes_subset statement _) (delete_rels_subset statement _)
              simp only [advance]
              split
              · exact next_protected call xmlids rest
              · exact kept.remaining (List.filter_subset_self _)

theorem advance_spares (progress : Progress) (known : Protected graph phase) {instant : Nat}
    (guard : phase.guard = some instant) :
    (∀ node ∈ graph.nodes, node ∉ (advance graph phase progress).1.nodes →
      node.isChild = true → before instant node.writtenAt = true) ∧
    (phase.relationshipStep = true → ∀ rel ∈ graph.rels,
      rel ∉ (advance graph phase progress).1.rels → before instant rel.writtenAt = true) := by
  rcases @advance_graph graph phase progress with
    same | ⟨call, xmlids, statement, rest, pending, batch, running, deleted⟩
  · rw [same]
    exact ⟨fun _ nodeIn gone => absurd nodeIn gone, fun _ _ relIn gone => absurd relIn gone⟩
  · rw [deleted]
    subst running
    constructor
    · intro node nodeIn gone isChild
      cases statement with
      | rels start => exact absurd nodeIn gone
      | nodes label =>
          have selected : node.id ∈ pending := by
            by_contra unselected
            refine gone (List.mem_filter.mpr ⟨nodeIn, ?_⟩)
            simp [unselected]
          exact known.nodes instant guard node nodeIn selected isChild
    · intro isRelStep rel relIn gone
      cases statement with
      | nodes label => cases isRelStep
      | rels start =>
          have selected : rel.id ∈ pending := by
            by_contra unselected
            refine gone (List.mem_filter.mpr ⟨relIn, ?_⟩)
            simp [unselected]
          exact known.rels instant guard rel relIn selected

theorem stamped_label (node : Node) (old : Option Node) (run : Option String) (now : Nat) :
    (node.stamped old run now).label = (old.map (·.label)).getD node.label := rfl

theorem stamped_before {instant : Nat} (node : Node) {old : Option Node} {run : Option String}
    {now : Nat} (early : run.isSome = true → now < instant)
    (known : ∀ known ∈ old, before instant known.writtenAt = true) :
    before instant (node.stamped old run now).writtenAt = true := by
  unfold Node.stamped
  dsimp only
  split
  · rfl
  · cases run with
    | none =>
        cases old with
        | none => rfl
        | some old => exact known old rfl
    | some run => simpa [before] using early rfl

theorem stampedRel_before {instant : Nat} (rel : Rel) {old : Option Rel} {run : Option String}
    {now : Nat} (early : run.isSome = true → now < instant)
    (known : ∀ known ∈ old, before instant known.writtenAt = true) :
    before instant (rel.stamped old run now).writtenAt = true := by
  unfold Rel.stamped
  dsimp only
  cases run with
  | none =>
      cases old with
      | none => rfl
      | some old => exact known old rfl
  | some run => simpa [before] using early rfl

theorem isChild_of_label {first second : Node} (same : first.label = second.label) :
    first.isChild = second.isChild := by
  simp [Node.isChild, same]

theorem early_of_undisturbed {instant now : Nat} {run : Option String}
    (undisturbed : (!(run.isSome && decide (instant ≤ now))) = true) :
    run.isSome = true → now < instant := by
  intro isRun
  simp only [isRun, Bool.true_and, Bool.not_eq_true', decide_eq_false_iff_not] at undisturbed
  omega

theorem Protected.merge (known : Protected graph phase) (merge : Merge)
    (undisturbed : merge.touches phase = true →
      (phase.guard.all fun instant => !merge.restamps instant) = true) :
    Protected (merge.apply graph) phase := by
  cases merge with
  | node new run now =>
      refine ⟨?_, known.rels⟩
      intro instant guard node nodeIn selected isChild
      rcases List.mem_cons.mp nodeIn with rfl | old
      · have touched : Merge.touches phase (.node new run now) = true :=
          List.contains_iff_mem.mpr selected
        have quiet := undisturbed touched
        rw [guard] at quiet
        refine stamped_before new (early_of_undisturbed quiet) fun previous found => ?_
        have same := List.find?_some found
        have previousIn := List.mem_of_find?_eq_some found
        have sameId : previous.id = new.id := by simpa using same
        have previousChild : previous.isChild = true := by
          rw [← isChild, isChild_of_label]
          rw [stamped_label, found, Option.map_some, Option.getD_some]
        refine known.nodes instant guard previous previousIn ?_ previousChild
        rw [sameId]
        exact selected
      · exact known.nodes instant guard node (List.mem_of_mem_filter old) selected isChild
  | rel new run now =>
      refine ⟨known.nodes, ?_⟩
      intro instant guard rel relIn selected
      rcases List.mem_cons.mp relIn with rfl | old
      · have touched : Merge.touches phase (.rel new run now) = true :=
          List.contains_iff_mem.mpr selected
        have quiet := undisturbed touched
        rw [guard] at quiet
        refine stampedRel_before new (early_of_undisturbed quiet) fun previous found => ?_
        have same := List.find?_some found
        have previousIn := List.mem_of_find?_eq_some found
        have sameId : previous.id = new.id := by simpa using same
        refine known.rels instant guard previous previousIn ?_
        rw [sameId]
        exact selected
      · exact known.rels instant guard rel (List.mem_of_mem_filter old) selected

theorem Protected.transaction (merges : List Merge) (known : Protected graph phase)
    (undisturbed : ∀ merge ∈ merges, merge.touches phase = true →
      (phase.guard.all fun instant => !merge.restamps instant) = true) :
    Protected (merges.foldl Merge.apply graph) phase := by
  induction merges generalizing graph with
  | nil => exact known
  | cons merge rest ih =>
      have first := known.merge merge (undisturbed merge List.mem_cons_self)
      exact ih first fun later laterIn => undisturbed later (List.mem_cons_of_mem _ laterIn)

end Protection

theorem Safe.step {state : State} (safe : Safe state) (event : Event)
    (undisturbed : Undisturbed state event) : Safe (step state event) := by
  cases event with
  | start call =>
      intro phase phaseIn
      rcases List.mem_append.mp phaseIn with old | new
      · exact safe phase old
      · rw [List.mem_singleton.mp new]
        exact begin_protected call
  | act index progress =>
      cases found : state.calls[index]? with
      | none =>
          simp only [Neo4j.step, found]
          exact safe
      | some acting =>
          simp only [Neo4j.step, found]
          have actingSafe := safe acting (List.mem_of_getElem? found)
          intro phase phaseIn
          rcases List.mem_or_eq_of_mem_set phaseIn with old | rfl
          · exact (safe phase old).shrink (advance_nodes_subset acting progress)
              (advance_rels_subset acting progress)
          · exact advance_protected progress actingSafe
  | transaction merges =>
      intro phase phaseIn
      exact (safe phase phaseIn).transaction merges (undisturbed phase phaseIn)

theorem Safe.spares {state : State} (safe : Safe state) (event : Event) :
    SparesRecent state event := by
  cases event with
  | act index progress =>
      intro phase found instant guard
      have spared := advance_spares progress (safe phase (List.mem_of_getElem? found)) guard
      have stepped : (Neo4j.step state (.act index progress)).graph =
          (advance state.graph phase progress).1 := by
        simp only [Neo4j.step, found]
      rw [stepped]
      exact spared
  | _ => trivial

/-- In every interleaving of prunes and retirements with transactions of other runs in which
no transaction stamps what a running statement has selected, no delete removes a child, and no
relationship step a relationship, that is stamped at or after the guard instant. -/
theorem guarded_deletion (graph : Graph) (events : List Event)
    (undisturbed : AllSteps step Undisturbed ⟨graph, []⟩ events) :
    AllSteps step SparesRecent ⟨graph, []⟩ events :=
  allSteps_of_guarded step Undisturbed SparesRecent Safe
    (fun _ event undisturbed safe => safe.step event undisturbed)
    (fun _ event _ safe => safe.spares event) events ⟨graph, []⟩ undisturbed
    (fun _ phaseIn => absurd phaseIn List.not_mem_nil)

def childNode (id : Nat) (label : Label) (name : String) (module : String) (run : String)
    (writtenAt : Nat) (stampable : label ≠ .testHelper) : Node :=
  { id, label := .child label, name, module := some module, odooVersion := "17", xmlid := none
    viewXmlid := none, filePath := none, lastSeenAt := none, writtenRun := some run
    writtenAt := some writtenAt
    helper_unstamped := fun helper => absurd (NodeLabel.child.inj helper) stampable }

def saleOrder : Node := childNode 1 .model "sale.order" "sale" "r1" 50 (by decide)
def saleReport : Node := childNode 2 .model "sale.report" "sale" "r1" 50 (by decide)
def saleLine : Node := childNode 3 .field "order_line" "sale" "r1" 50 (by decide)

/-- Two models and a field of `sale`, written by the run `r1`, and an `_inherit`. -/
def saleGraph : Graph :=
  { nodes := [saleOrder, saleReport, saleLine]
    rels := [{ id := 9, type := .inherits, start := 1, finish := 2, writtenRun := some "r1"
               writtenAt := some 50 }]
    nodes_distinct := by decide, rels_distinct := by decide }

/-- The prune of `sale` after the run `r2`, which started at 100 and kept `sale.order`. -/
def pruneSale : Call :=
  .prune { odooVersion := "17", name := "sale"
           mode := { run := "r2", runStarted := some 100, keepSameNameInherits := false }
           filePrefixes := [], skipLabels := [], onlyIds := none, onlyRelIds := none }

def untilModels : List Event :=
  [.transaction [.node saleOrder (some "r2") 110], .start pruneSale, .act 0 .proceed] ++
    (List.replicate 3 [.act 0 .proceed, .act 0 (.commit [1, 2, 3])]).flatten

/-- A run `r3` of another profile writes `sale.report` again before it is selected. -/
def earlyRewrite : List Event :=
  untilModels ++ [.transaction [.node saleReport (some "r3") 150], .act 0 .proceed,
    .act 0 (.commit [1, 2, 3])]

/-- The same, once it is selected; the batch is still to come. -/
def lateRewrite : List Event :=
  untilModels ++ [.act 0 .proceed, .transaction [.node saleReport (some "r3") 150]]

def rewrittenReport : Node := saleReport.stamped (some saleReport) (some "r3") 150

theorem early_rewrite_spared : AllSteps step SparesRecent ⟨saleGraph, []⟩ earlyRewrite := by
  have undisturbed : AllSteps step Undisturbed ⟨saleGraph, []⟩ earlyRewrite := by
    decide +kernel
  exact guarded_deletion saleGraph earlyRewrite undisturbed

/-- What was selected before it was written again is deleted all the same. -/
theorem late_rewrite_deleted :
    (run step ⟨saleGraph, []⟩ (lateRewrite ++ [.act 0 (.commit [1, 2, 3])])).graph.nodes.map
        (·.id) = [1] ∧
      rewrittenReport.writtenAt = some 150 ∧
      ¬ AllSteps step SparesRecent ⟨saleGraph, []⟩ (lateRewrite ++ [.act 0 (.commit [1, 2, 3])]) := by
  refine ⟨by decide +kernel, rfl, fun spares => ?_⟩
  have last := ((allSteps_append step SparesRecent _ lateRewrite _).mp spares).2.1
  have selecting : (run step ⟨saleGraph, []⟩ lateRewrite).calls[0]? = some (.running pruneSale []
      (.nodes (.child .model)) (pruneSale.statements.drop 4) (some [2])) := by
    decide +kernel
  have present : rewrittenReport ∈ (run step ⟨saleGraph, []⟩ lateRewrite).graph.nodes := by
    decide +kernel
  have gone : rewrittenReport ∉
      (step (run step ⟨saleGraph, []⟩ lateRewrite) (.act 0 (.commit [1, 2, 3]))).graph.nodes := by
    decide +kernel
  have early := (last _ selecting 100 rfl).1 rewrittenReport present gone rfl
  cases early

end OdooSemantic.Neo4j
