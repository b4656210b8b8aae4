import Mathlib.Data.List.Nodup

/-!
# The version graph and what selects a module's children

Nodes and relationships carry the run token and the server stamp of their last
writer.  The predicates here are the Cypher fragments the entity prune and the
retirement cascade share.
-/

set_option autoImplicit false

namespace OdooSemantic.Neo4j

inductive Label where
  | lintViolation | method | field | model | view | qwebTmpl | report | jsPatch | owlComp
  | stylesheet | jsTestSuite | testMethod | testClass | testHelper
  deriving DecidableEq

/-- `MODULE_CHILD_LABELS`, in the order of the cascade. -/
def moduleChildLabels : List Label :=
  [.lintViolation, .method, .field, .model, .view, .qwebTmpl, .report, .jsPatch, .owlComp,
    .stylesheet, .jsTestSuite, .testMethod, .testClass, .testHelper]

theorem mem_moduleChildLabels (label : Label) : label ∈ moduleChildLabels := by
  cases label <;> decide

inductive NodeLabel where
  | module
  | child (label : Label)
  | shared
  deriving DecidableEq

inductive RelType where
  | dependsOn | contributesTo | definedIn | inherits | delegatesTo | belongsTo | usesCoreSymbol
  | usesField | dependsOnField | targetsModel | inheritsView | hasViolation | extendsTmpl
  | extendsAssetBundle | reportsOn | usesTemplate | patches | imports | belongsToTest | derived
  deriving DecidableEq

/-- `MODULE_CHILD_REL_TYPES`; no entry is the empty list. -/
def moduleChildRelTypes : NodeLabel → List RelType
  | .module => [.dependsOn, .contributesTo]
  | .child .model => [.definedIn, .inherits, .delegatesTo]
  | .child .field => [.belongsTo]
  | .child .method => [.belongsTo, .usesCoreSymbol, .usesField, .dependsOnField]
  | .child .view => [.definedIn, .targetsModel, .inheritsView, .hasViolation]
  | .child .qwebTmpl => [.definedIn, .extendsTmpl, .extendsAssetBundle]
  | .child .report => [.definedIn, .reportsOn, .usesTemplate]
  | .child .jsPatch => [.definedIn, .patches]
  | .child .owlComp => [.definedIn]
  | .child .stylesheet => [.definedIn, .imports]
  | .child .jsTestSuite => [.definedIn]
  | .child .testMethod => [.belongsToTest]
  | .child .testClass => [.definedIn]
  | .child .lintViolation => []
  | .child .testHelper => []
  | .shared => []

/-- `_XMLID_KEYED_CHILD_LABELS`. -/
def xmlidKeyed : Label → Bool
  | .view => true
  | .qwebTmpl => true
  | .report => true
  | _ => false

def nonRetirableModuleNames : List String := ["@framework", "__unresolved__"]

/-- A node by its `elementId`; stamps are epoch milliseconds of the server clock.  No writer
stamps a TestHelper, which is a projection of TestClass nodes. -/
structure Node where
  id : Nat
  label : NodeLabel
  name : String
  module : Option String
  odooVersion : String
  xmlid : Option String
  viewXmlid : Option String
  filePath : Option String
  lastSeenAt : Option Nat
  writtenRun : Option String
  writtenAt : Option Nat
  helper_unstamped : label = .child .testHelper → writtenAt = none
  deriving DecidableEq

structure Rel where
  id : Nat
  type : RelType
  start : Nat
  finish : Nat
  writtenRun : Option String
  writtenAt : Option Nat

structure Graph where
  nodes : List Node
  rels : List Rel
  nodes_distinct : (nodes.map Node.id).Nodup
  rels_distinct : (rels.map Rel.id).Nodup

namespace Graph

def empty : Graph := ⟨[], [], List.nodup_nil, List.nodup_nil⟩

theorem node_eq_of_id (graph : Graph) {first second : Node} (firstIn : first ∈ graph.nodes)
    (secondIn : second ∈ graph.nodes) (same : first.id = second.id) : first = second :=
  List.inj_on_of_nodup_map graph.nodes_distinct firstIn secondIn same

theorem rel_eq_of_id (graph : Graph) {first second : Rel} (firstIn : first ∈ graph.rels)
    (secondIn : second ∈ graph.rels) (same : first.id = second.id) : first = second :=
  List.inj_on_of_nodup_map graph.rels_distinct firstIn secondIn same

end Graph

theorem nodup_filter {Row : Type} (id : Row → Nat) (keep : Row → Bool) {rows : List Row}
    (distinct : (rows.map id).Nodup) : ((rows.filter keep).map id).Nodup :=
  distinct.sublist (List.filter_sublist.map id)

theorem nodup_replace {Row : Type} (id : Row → Nat) (row : Row) {rows : List Row}
    (distinct : (rows.map id).Nodup) :
    ((row :: rows.filter fun other => id other != id row).map id).Nodup := by
  rw [List.map_cons, List.nodup_cons]
  refine ⟨?_, nodup_filter id _ distinct⟩
  intro member
  obtain ⟨other, otherIn, same⟩ := List.mem_map.mp member
  have different := (List.mem_filter.mp otherIn).2
  simp [same] at different

namespace Graph

/-- `DETACH DELETE`: the nodes go with the relationships they end. -/
def detachDelete (graph : Graph) (ids : List Nat) : Graph :=
  { nodes := graph.nodes.filter fun node => !ids.contains node.id
    rels := graph.rels.filter fun rel => !(ids.contains rel.start || ids.contains rel.finish)
    nodes_distinct := nodup_filter Node.id _ graph.nodes_distinct
    rels_distinct := nodup_filter Rel.id _ graph.rels_distinct }

/-- `DELETE r`. -/
def deleteRels (graph : Graph) (ids : List Nat) : Graph :=
  { graph with
    rels := graph.rels.filter fun rel => !ids.contains rel.id
    rels_distinct := nodup_filter Rel.id _ graph.rels_distinct }

end Graph

/-- `_written_run_set` on a node: without a token the stamps stay as they are. -/
def Node.stamped (node : Node) (old : Option Node) (run : Option String) (now : Nat) : Node :=
  { node with
    label := (old.map (·.label)).getD node.label
    writtenRun := run.or (old.bind (·.writtenRun))
    writtenAt :=
      if (old.map (·.label)).getD node.label = .child .testHelper then none
      else if run.isNone then old.bind (·.writtenAt) else some now
    helper_unstamped := fun helper => if_pos helper }

/-- `_written_run_set` on a relationship. -/
def Rel.stamped (rel : Rel) (old : Option Rel) (run : Option String) (now : Nat) : Rel :=
  { rel with
    writtenRun := run.or (old.bind (·.writtenRun))
    writtenAt := if run.isNone then old.bind (·.writtenAt) else some now }

namespace Graph

/-- A writer's `MERGE … SET`: the node with this id is updated, or the node is created. -/
def mergeNode (graph : Graph) (node : Node) (run : Option String) (now : Nat) : Graph :=
  { graph with
    nodes := node.stamped (graph.nodes.find? (·.id == node.id)) run now ::
      graph.nodes.filter fun other => other.id != node.id
    nodes_distinct := nodup_replace Node.id (node.stamped _ run now) graph.nodes_distinct }

def mergeRel (graph : Graph) (rel : Rel) (run : Option String) (now : Nat) : Graph :=
  { graph with
    rels := rel.stamped (graph.rels.find? (·.id == rel.id)) run now ::
      graph.rels.filter fun other => other.id != rel.id
    rels_distinct := nodup_replace Rel.id (rel.stamped _ run now) graph.rels_distinct }

end Graph

def before (instant : Nat) (writtenAt : Option Nat) : Bool :=
  writtenAt.all fun stamp => decide (stamp < instant)

def stale (run : String) (runStarted : Option Nat) (writtenRun : Option String)
    (writtenAt : Option Nat) : Bool :=
  writtenRun.getD "" != run && runStarted.all fun started => before started writtenAt

theorem stale_before {run : String} {started : Nat} {writtenRun : Option String}
    {writtenAt : Option Nat} (isStale : stale run (some started) writtenRun writtenAt = true) :
    before started writtenAt = true := by
  simp only [stale, Bool.and_eq_true, Option.all_some] at isStale
  exact isStale.2

structure PruneMode where
  run : String
  runStarted : Option Nat
  keepSameNameInherits : Bool
  deriving DecidableEq

def cutoffRun : String := "__written_before__"

/-- `_prune_mode`: none is the `ValueError` of both or neither, or of an empty token. -/
def pruneMode (runId : Option String) (writtenBefore : Option Nat)
    (startedAtFor : String → Option Nat) : Option PruneMode :=
  match runId, writtenBefore with
  | none, some cutoff =>
      some { run := cutoffRun, runStarted := some cutoff, keepSameNameInherits := true }
  | some run, none =>
      if run = "" then none
      else some { run, runStarted := startedAtFor run, keepSameNameInherits := false }
  | _, _ => none

/-- `split(coalesce(xmlid, ''), '.')[0] = name`. -/
def inNamespace (name : String) (xmlid : Option String) : Bool :=
  (xmlid.getD "").toList.takeWhile (· != '.') == name.toList

/-- `_MODULE_LINT_VIOLATION_PREDICATE`. -/
def isModuleLintViolation (graph : Graph) (odooVersion : String) (names xmlids : List String)
    (violation : Node) : Bool :=
  violation.viewXmlid.any (xmlids.contains ·) ||
    graph.rels.any (fun rel => rel.type == .hasViolation && rel.finish == violation.id &&
      graph.nodes.any fun view => view.id == rel.start && view.label == .child .view &&
        view.module.any (names.contains ·)) ||
    (names.any (fun name => inNamespace name violation.viewXmlid) &&
      !graph.nodes.any fun view => view.label == .child .view && view.xmlid.isSome &&
        view.xmlid == violation.viewXmlid && view.odooVersion == odooVersion)

def moduleViewXmlids (graph : Graph) (odooVersion : String) (names : List String) : List String :=
  (graph.nodes.filter fun view => view.label == .child .view &&
    view.module.any (names.contains ·) && view.odooVersion == odooVersion).filterMap (·.xmlid)

end OdooSemantic.Neo4j
