import Mathlib.Data.List.Basic
import Mathlib.Data.List.Induction

/-!
# Relations through placeholders

A writer that does not find the target of a relation points it at a placeholder.
The relink moves some of these edges to nodes written since, and the GC deletes
the placeholders with the edges that are left.
-/

set_option autoImplicit false

namespace OdooSemantic.Neo4j.Placeholders

/-- A node by its `MERGE` key; the module of a Model or OWLComp placeholder
(`__unresolved__`) is none. -/
inductive NodeKey where
  | model (name : String) (module : Option String)
  | view (xmlid : String)
  | qwebTmpl (xmlid : String)
  | owlComp (name : String) (module : Option String)
  | jsPatch (target patchName module : String)
  | assetBundle (name : String)
  deriving DecidableEq

/-- `unresolved` is set on a placeholder and cleared by the write of the real node, together
with its `module`. -/
structure Node where
  unresolved : Bool
  isDefinition : Bool
  recordXmlid : Option String

inductive EdgeKind where
  | inherits
  | delegatesTo (viaField : String)
  | inheritsView
  | extendsTmpl
  | extendsAssetBundle
  | patches
  deriving DecidableEq

structure Edge where
  kind : EdgeKind
  start : NodeKey
  finish : NodeKey
  deriving DecidableEq

structure Graph where
  keys : List NodeKey
  node : NodeKey → Option Node
  edges : List Edge

/-- A relation a record declares; `extends` is an `_inherit` of the model's own name. -/
inductive Relation where
  | inherits (model module parent : String)
  | extends (model module : String)
  | delegatesTo (model module delegated viaField : String)
  | inheritsView (xmlid inheritXmlid : String)
  | extendsTmpl (xmlid inheritXmlid : String)
  | patches (target patchName module : String)
  deriving DecidableEq

def Relation.kind : Relation → EdgeKind
  | .inherits _ _ _ => .inherits
  | .extends _ _ => .inherits
  | .delegatesTo _ _ _ viaField => .delegatesTo viaField
  | .inheritsView _ _ => .inheritsView
  | .extendsTmpl _ _ => .extendsTmpl
  | .patches _ _ _ => .patches

def Relation.start : Relation → NodeKey
  | .inherits model module _ => .model model (some module)
  | .extends model module => .model model (some module)
  | .delegatesTo model module _ _ => .model model (some module)
  | .inheritsView xmlid _ => .view xmlid
  | .extendsTmpl xmlid _ => .qwebTmpl xmlid
  | .patches target patchName module => .jsPatch target patchName module

def Relation.placeholder : Relation → Option NodeKey
  | .inherits _ _ parent => some (.model parent none)
  | .extends _ _ => none
  | .delegatesTo _ _ delegated _ => some (.model delegated none)
  | .inheritsView _ inheritXmlid => some (.view inheritXmlid)
  | .extendsTmpl _ inheritXmlid => some (.qwebTmpl inheritXmlid)
  | .patches target _ _ => some (.owlComp target none)

/-! ## Statements -/

section Statements
variable (graph : Graph)

def Graph.empty : Graph := ⟨[], fun _ => none, []⟩

def isReal (key : NodeKey) : Bool := (graph.node key).any fun node => !node.unresolved

def isUnresolved (key : NodeKey) : Bool := (graph.node key).any (·.unresolved)

/-- `MERGE` of a node its own module writes. -/
def mergeNode (key : NodeKey) (isDefinition : Bool) (recordXmlid : Option String) : Graph :=
  { graph with
    keys := graph.keys.insert key
    node := Function.update graph.node key (some
      { unresolved := false
        isDefinition := (graph.node key).any (·.isDefinition) || isDefinition
        recordXmlid := recordXmlid.or ((graph.node key).bind (·.recordXmlid)) }) }

/-- `MERGE (placeholder …) ON CREATE SET`. -/
def mergePlaceholder (key : NodeKey) : Graph :=
  if (graph.node key).isSome then graph
  else
    { graph with
      keys := graph.keys.insert key
      node := Function.update graph.node key
        (some { unresolved := true, isDefinition := false, recordXmlid := none }) }

def mergeEdge (edge : Edge) : Graph := { graph with edges := graph.edges.insert edge }

def NodeKey.sortKey : NodeKey → String
  | .model _ module => module.getD ""
  | .owlComp _ module => module.getD ""
  | .qwebTmpl xmlid => xmlid
  | _ => ""

def isDefined (key : NodeKey) : Bool := (graph.node key).any (·.isDefinition)

/-- `ORDER BY is_definition DESC, module ASC` (`xmlid ASC` for templates; `field_count` is not
stored). -/
def prefers (first second : NodeKey) : Bool :=
  (isDefined graph first && !isDefined graph second) ||
    (isDefined graph first == isDefined graph second &&
      decide (first.sortKey ≤ second.sortKey))

/-- `LIMIT 1` of the ordered rows. -/
def pick : List NodeKey → Option NodeKey
  | [] => none
  | key :: rest =>
      match pick rest with
      | none => some key
      | some other => if prefers graph other key then some other else some key

/-- The `WHERE` of the writer's lookup for the relation. -/
def accepts : Relation → NodeKey → Bool
  | .inherits _ _ parent, .model name module =>
      name == parent && isReal graph (.model name module)
  | .extends model module, .model name other =>
      name == model && other != some module &&
        (graph.node (.model name other)).any (·.isDefinition)
  | .delegatesTo _ _ delegated _, .model name module =>
      name == delegated && isReal graph (.model name module)
  | .inheritsView _ inheritXmlid, .view xmlid => xmlid == inheritXmlid && isReal graph (.view xmlid)
  | .extendsTmpl _ inheritXmlid, .view xmlid => xmlid == inheritXmlid && isReal graph (.view xmlid)
  | .extendsTmpl xmlid inheritXmlid, .qwebTmpl other =>
      isReal graph (.qwebTmpl other) && (other == inheritXmlid ||
        (other != xmlid && (graph.node (.qwebTmpl other)).any (·.recordXmlid == some inheritXmlid)))
  | .patches target _ _, .owlComp name module =>
      name == target && isReal graph (.owlComp name module)
  | _, _ => false

def candidates (relation : Relation) : List NodeKey := graph.keys.filter (accepts graph relation)

/-- `xmlid` matches of a template go before `record_xmlid` matches. -/
def isXmlidMatch (inheritXmlid : String) (key : NodeKey) : Bool :=
  key == .qwebTmpl inheritXmlid || key == .view inheritXmlid

/-- The nodes the writer merges an edge to. -/
def targets (relation : Relation) : List NodeKey :=
  match relation with
  | .extends _ _ => candidates graph relation
  | .inheritsView _ _ => candidates graph relation
  | .extendsTmpl _ inheritXmlid =>
      let matches' := (candidates graph relation).filter (isXmlidMatch inheritXmlid)
      if matches' = [] then (pick graph (candidates graph relation)).toList else matches'
  | _ => (pick graph (candidates graph relation)).toList

/-- The AssetBundle a template without a base extends. -/
def bundleFallback : Relation → Option NodeKey
  | .extendsTmpl _ inheritXmlid =>
      if (graph.node (.assetBundle inheritXmlid)).isSome then some (.assetBundle inheritXmlid)
      else none
  | _ => none

def relate (relation : Relation) : Graph :=
  if (graph.node relation.start).isNone then graph
  else if targets graph relation = [] then
    match bundleFallback graph relation with
    | some bundle => mergeEdge graph ⟨.extendsAssetBundle, relation.start, bundle⟩
    | none =>
        match relation.placeholder with
        | none => graph
        | some key =>
            mergeEdge (mergePlaceholder graph key) ⟨relation.kind, relation.start, key⟩
  else
    { graph with
      edges := (targets graph relation).foldl
        (fun edges key => edges.insert ⟨relation.kind, relation.start, key⟩) graph.edges }

def relinkTargets (edge : Edge) : List NodeKey :=
  if !isUnresolved graph edge.finish || !isReal graph edge.start then []
  else
    match edge.kind, edge.finish with
    | .inherits, .model name none => graph.keys.filter fun
        | .model other (some module) => other == name && isReal graph (.model other (some module)) &&
            NodeKey.model other (some module) != edge.start
        | _ => false
    | .delegatesTo _, .model name none => graph.keys.filter fun
        | .model other (some module) => other == name && isReal graph (.model other (some module)) &&
            NodeKey.model other (some module) != edge.start
        | _ => false
    | .extendsTmpl, .qwebTmpl xmlid => graph.keys.filter fun
        | .qwebTmpl other => isReal graph (.qwebTmpl other) && NodeKey.qwebTmpl other != edge.start &&
            (graph.node (.qwebTmpl other)).any (·.recordXmlid == some xmlid)
        | _ => false
    | _, _ => []

def relinkEdge (edge : Edge) : Edge :=
  { edge with finish := (pick graph (relinkTargets graph edge)).getD edge.finish }

def relinkUnresolvedPlaceholders : Graph := { graph with edges := graph.edges.map (relinkEdge graph) }

def gcUnresolvedPlaceholders : Graph :=
  { keys := graph.keys.filter fun key => !isUnresolved graph key
    node := fun key => (graph.node key).filter fun node => !node.unresolved
    edges := graph.edges.filter fun edge =>
      !isUnresolved graph edge.start && !isUnresolved graph edge.finish }

def relinkThenGc : Graph := gcUnresolvedPlaceholders (relinkUnresolvedPlaceholders graph)

end Statements

inductive Step where
  | node (key : NodeKey) (isDefinition : Bool) (recordXmlid : Option String)
  | relate (relation : Relation)
  deriving DecidableEq

def Step.apply (graph : Graph) : Step → Graph
  | .node key isDefinition recordXmlid => mergeNode graph key isDefinition recordXmlid
  | .relate relation => Placeholders.relate graph relation

def build (steps : List Step) : Graph := steps.foldl Step.apply .empty

structure ModelInfo where
  name : String
  module : String
  hadExplicitName : Bool
  inherit' : List String
  inherits : List (String × String)

def ModelInfo.nodeStep (model : ModelInfo) : Step :=
  .node (.model model.name (some model.module))
    (model.hadExplicitName && !model.inherit'.contains model.name) none

def ModelInfo.relationSteps (model : ModelInfo) : List Step :=
  model.inherit'.map (fun parent =>
      .relate (if parent = model.name then .extends model.name model.module
        else .inherits model.name model.module parent)) ++
    model.inherits.map fun (delegated, viaField) =>
      .relate (.delegatesTo model.name model.module delegated viaField)

inductive XmlRecord where
  | view (xmlid : String) (inheritXmlid : Option String)
  | qweb (xmlid : String) (recordXmlid inheritXmlid : Option String)

def XmlRecord.steps : XmlRecord → List Step
  | .view xmlid inheritXmlid =>
      .node (.view xmlid) false none ::
        inheritXmlid.toList.map fun base => .relate (.inheritsView xmlid base)
  | .qweb xmlid recordXmlid inheritXmlid =>
      .node (.qwebTmpl xmlid) false recordXmlid ::
        inheritXmlid.toList.map fun base => .relate (.extendsTmpl xmlid base)

structure PatchInfo where
  target : String
  patchName : String
  module : String

def PatchInfo.steps (patch : PatchInfo) : List Step :=
  [.node (.jsPatch patch.target patch.patchName patch.module) false none,
    .relate (.patches patch.target patch.patchName patch.module)]

/-- One write of a module by the ORM, view or JS writer, or of an asset bundle. -/
inductive Result where
  | orm (models : List ModelInfo)
  | xml (records : List XmlRecord)
  | js (comps : List (String × String)) (patches : List PatchInfo)
  | bundle (name : String)

def Result.steps : Result → List Step
  | .orm models => models.map (·.nodeStep) ++ models.flatMap (·.relationSteps)
  | .xml records => records.flatMap (·.steps)
  | .js comps patches =>
      comps.map (fun (name, module) => .node (.owlComp name (some module)) false none) ++
        patches.flatMap (·.steps)
  | .bundle name => [.node (.assetBundle name) false none]

/-! ## What a step keeps -/

/-- Writes remove no node and no edge, make no real node a placeholder and take no definition
back. -/
structure Grows (before after : Graph) : Prop where
  present : ∀ key, (before.node key).isSome = true → (after.node key).isSome = true
  real : ∀ key, isReal before key = true → isReal after key = true
  defined : ∀ key, (before.node key).any (·.isDefinition) = true →
    (after.node key).any (·.isDefinition) = true
  edges : before.edges ⊆ after.edges

structure Sound (graph : Graph) : Prop where
  keyed : ∀ key, (graph.node key).isSome = true → key ∈ graph.keys
  definitions : ∀ key, (graph.node key).any (·.isDefinition) = true → isReal graph key = true

section Growth
variable {graph before middle after : Graph}

theorem Grows.refl (graph : Graph) : Grows graph graph :=
  ⟨fun _ present => present, fun _ real => real, fun _ defined => defined, fun _ edge => edge⟩

theorem Grows.trans (first : Grows before middle) (second : Grows middle after) :
    Grows before after :=
  ⟨fun key present => second.present key (first.present key present),
    fun key real => second.real key (first.real key real),
    fun key defined => second.defined key (first.defined key defined),
    fun _ edge => second.edges (first.edges edge)⟩

theorem isReal_iff {key : NodeKey} :
    isReal graph key = true ↔ ∃ node, graph.node key = some node ∧ node.unresolved = false := by
  unfold isReal
  cases graph.node key <;> simp

theorem present_of_real {key : NodeKey} (real : isReal graph key = true) :
    (graph.node key).isSome = true := by
  obtain ⟨node, found, -⟩ := isReal_iff.mp real
  simp [found]

theorem isUnresolved_of_real {key : NodeKey} (real : isReal graph key = true) :
    isUnresolved graph key = false := by
  obtain ⟨node, found, resolved⟩ := isReal_iff.mp real
  simp [isUnresolved, found, resolved]

theorem real_or_unresolved {key : NodeKey} (present : (graph.node key).isSome = true) :
    isReal graph key = true ∨ isUnresolved graph key = true := by
  obtain ⟨node, found⟩ := Option.isSome_iff_exists.mp present
  cases flag : node.unresolved with
  | true => exact Or.inr (by simp [isUnresolved, found, flag])
  | false => exact Or.inl (isReal_iff.mpr ⟨node, found, flag⟩)

theorem isReal_mergeNode (key : NodeKey) (isDefinition : Bool) (recordXmlid : Option String) :
    isReal (mergeNode graph key isDefinition recordXmlid) key = true := by
  simp [isReal, mergeNode]

theorem grows_mergeNode (key : NodeKey) (isDefinition : Bool) (recordXmlid : Option String) :
    Grows graph (mergeNode graph key isDefinition recordXmlid) := by
  refine ⟨?_, ?_, ?_, fun _ edge => edge⟩
  · intro other present
    by_cases same : other = key
    · rw [same]
      exact present_of_real (isReal_mergeNode key isDefinition recordXmlid)
    · simpa [mergeNode, Function.update_of_ne same] using present
  · intro other real
    by_cases same : other = key
    · rw [same]
      exact isReal_mergeNode key isDefinition recordXmlid
    · simpa [isReal, mergeNode, Function.update_of_ne same] using real
  · intro other defined
    by_cases same : other = key
    · subst same
      simp [mergeNode, defined]
    · simpa [mergeNode, Function.update_of_ne same] using defined

theorem Sound.mergeNode (sound : Sound graph) (key : NodeKey) (isDefinition : Bool)
    (recordXmlid : Option String) : Sound (mergeNode graph key isDefinition recordXmlid) := by
  refine ⟨?_, ?_⟩
  · intro other present
    by_cases same : other = key
    · rw [same]
      exact List.mem_insert_self
    · refine List.mem_insert_of_mem (sound.keyed other ?_)
      simpa [Placeholders.mergeNode, Function.update_of_ne same] using present
  · intro other defined
    by_cases same : other = key
    · rw [same]
      exact isReal_mergeNode key isDefinition recordXmlid
    · have before : (graph.node other).any (·.isDefinition) = true := by
        simpa [Placeholders.mergeNode, Function.update_of_ne same] using defined
      exact (grows_mergeNode key isDefinition recordXmlid).real other (sound.definitions other before)

theorem node_mergePlaceholder {key other : NodeKey} (present : (graph.node other).isSome = true) :
    (mergePlaceholder graph key).node other = graph.node other := by
  unfold mergePlaceholder
  split
  · rfl
  · rename_i absent
    have apart : other ≠ key := by
      rintro rfl
      exact absent present
    simp [Function.update_of_ne apart]

theorem grows_mergePlaceholder (key : NodeKey) : Grows graph (mergePlaceholder graph key) := by
  refine ⟨?_, ?_, ?_, ?_⟩
  · intro other present
    rw [node_mergePlaceholder present]
    exact present
  · intro other real
    obtain ⟨node, found, resolved⟩ := isReal_iff.mp real
    exact isReal_iff.mpr ⟨node, (node_mergePlaceholder (by simp [found])).trans found, resolved⟩
  · intro other defined
    have present : (graph.node other).isSome = true := by
      cases found : graph.node other with
      | none => simp [found] at defined
      | some node => rfl
    rw [node_mergePlaceholder present]
    exact defined
  · unfold mergePlaceholder
    split <;> exact fun _ edge => edge

theorem real_of_mergePlaceholder {key other : NodeKey}
    (real : isReal (mergePlaceholder graph key) other = true) : isReal graph other = true := by
  unfold mergePlaceholder at real
  split at real
  · exact real
  · by_cases same : other = key
    · subst same
      simp [isReal] at real
    · simpa [isReal, Function.update_of_ne same] using real

theorem Sound.mergePlaceholder (sound : Sound graph) (key : NodeKey) :
    Sound (mergePlaceholder graph key) := by
  by_cases present : (graph.node key).isSome = true
  · have same : Placeholders.mergePlaceholder graph key = graph := if_pos present
    rw [same]
    exact sound
  · refine ⟨?_, ?_⟩
    · intro other present'
      rw [Placeholders.mergePlaceholder, if_neg present] at present' ⊢
      by_cases same : other = key
      · rw [same]
        exact List.mem_insert_self
      · refine List.mem_insert_of_mem (sound.keyed other ?_)
        simpa [Function.update_of_ne same] using present'
    · intro other defined
      by_cases same : other = key
      · subst same
        simp [Placeholders.mergePlaceholder, present] at defined
      · have before : (graph.node other).any (·.isDefinition) = true := by
          simpa [Placeholders.mergePlaceholder, present, Function.update_of_ne same] using defined
        exact (grows_mergePlaceholder key).real other (sound.definitions other before)

theorem present_mergePlaceholder (key : NodeKey) :
    ((mergePlaceholder graph key).node key).isSome = true := by
  unfold mergePlaceholder
  split
  · assumption
  · simp

theorem relate_cases (relation : Relation) :
    (relate graph relation).edges = graph.edges ∧ (relate graph relation).node = graph.node ∧
        (relate graph relation).keys = graph.keys ∧
        ((graph.node relation.start).isNone = true ∨
          targets graph relation = [] ∧ relation.placeholder = none) ∨
      (∃ bundle, targets graph relation = [] ∧ bundleFallback graph relation = some bundle ∧
        relate graph relation = mergeEdge graph ⟨.extendsAssetBundle, relation.start, bundle⟩) ∨
      (∃ key, targets graph relation = [] ∧ bundleFallback graph relation = none ∧
        relation.placeholder = some key ∧
        relate graph relation =
          mergeEdge (mergePlaceholder graph key) ⟨relation.kind, relation.start, key⟩) ∨
      targets graph relation ≠ [] ∧ (relate graph relation).node = graph.node ∧
        (relate graph relation).keys = graph.keys ∧
        ∀ edge, edge ∈ (relate graph relation).edges ↔
          edge ∈ graph.edges ∨ ∃ key ∈ targets graph relation,
            edge = ⟨relation.kind, relation.start, key⟩ := by
  unfold relate
  split
  · rename_i absent
    exact Or.inl ⟨rfl, rfl, rfl, Or.inl absent⟩
  · split
    · rename_i nothing
      cases fallback : bundleFallback graph relation with
      | some bundle => exact Or.inr (Or.inl ⟨bundle, nothing, rfl, rfl⟩)
      | none =>
          cases placeholder : relation.placeholder with
          | none => exact Or.inl ⟨rfl, rfl, rfl, Or.inr ⟨nothing, rfl⟩⟩
          | some key => exact Or.inr (Or.inr (Or.inl ⟨key, nothing, rfl, rfl, rfl⟩))
    · rename_i found
      refine Or.inr (Or.inr (Or.inr ⟨found, rfl, rfl, fun edge => ?_⟩))
      have inserted : ∀ (keys : List NodeKey) (edges : List Edge),
          edge ∈ keys.foldl (fun edges key => edges.insert ⟨relation.kind, relation.start, key⟩) edges ↔
            edge ∈ edges ∨ ∃ key ∈ keys, edge = ⟨relation.kind, relation.start, key⟩ := by
        intro keys
        induction keys with
        | nil => simp
        | cons key rest ih =>
            intro edges
            rw [List.foldl_cons, ih, List.mem_insert_iff]
            simp only [List.mem_cons, exists_eq_or_imp]
            tauto
      exact inserted _ _

theorem grows_of_nodes (nodes : after.node = before.node) (edges : before.edges ⊆ after.edges) :
    Grows before after := by
  refine ⟨fun key present => ?_, fun key real => ?_, fun key defined => ?_, edges⟩
  · simpa [nodes] using present
  · simpa [isReal, nodes] using real
  · simpa [nodes] using defined

theorem Sound.of_nodes (sound : Sound before) (nodes : after.node = before.node)
    (keys : after.keys = before.keys) : Sound after := by
  refine ⟨fun key present => ?_, fun key defined => ?_⟩
  · rw [keys]
    exact sound.keyed key (by simpa [nodes] using present)
  · rw [nodes] at defined
    simpa [isReal, nodes] using sound.definitions key defined

theorem grows_relate (relation : Relation) : Grows graph (relate graph relation) := by
  rcases @relate_cases graph relation with ⟨edges, nodes, -, -⟩ | ⟨bundle, -, -, related⟩ |
    ⟨key, -, -, -, related⟩ | ⟨-, nodes, -, edges⟩
  · exact grows_of_nodes nodes (edges ▸ fun _ edge => edge)
  · rw [related]
    exact grows_of_nodes rfl fun _ edge => List.mem_insert_of_mem edge
  · rw [related]
    exact (grows_mergePlaceholder key).trans
      (grows_of_nodes rfl fun _ edge => List.mem_insert_of_mem edge)
  · exact grows_of_nodes nodes fun edge edgeIn => (edges edge).mpr (Or.inl edgeIn)

theorem Sound.relate (sound : Sound graph) (relation : Relation) :
    Sound (Placeholders.relate graph relation) := by
  rcases @relate_cases graph relation with ⟨-, nodes, keys, -⟩ | ⟨bundle, -, -, related⟩ |
    ⟨key, -, -, -, related⟩ | ⟨-, nodes, keys, -⟩
  · exact sound.of_nodes nodes keys
  · rw [related]
    exact sound.of_nodes rfl rfl
  · rw [related]
    exact (sound.mergePlaceholder key).of_nodes rfl rfl
  · exact sound.of_nodes nodes keys

theorem grows_apply (step : Step) : Grows graph (step.apply graph) := by
  cases step with
  | node key isDefinition recordXmlid => exact grows_mergeNode key isDefinition recordXmlid
  | relate relation => exact grows_relate relation

theorem Sound.apply (sound : Sound graph) (step : Step) : Sound (step.apply graph) := by
  cases step with
  | node key isDefinition recordXmlid => exact sound.mergeNode key isDefinition recordXmlid
  | relate relation => exact sound.relate relation

end Growth

theorem build_snoc (steps : List Step) (step : Step) :
    build (steps ++ [step]) = step.apply (build steps) := by
  simp [build]

theorem sound_build (steps : List Step) : Sound (build steps) := by
  induction steps using List.reverseRecOn with
  | nil => exact ⟨fun _ present => absurd present nofun, fun _ defined => absurd defined nofun⟩
  | append_singleton steps step ih =>
      rw [build_snoc]
      exact ih.apply step

theorem grows_build (earlier later : List Step) :
    Grows (build earlier) (build (earlier ++ later)) := by
  induction later using List.reverseRecOn with
  | nil =>
      rw [List.append_nil]
      exact Grows.refl _
  | append_singleton later step ih =>
      rw [← List.append_assoc, build_snoc]
      exact ih.trans (grows_apply step)

section Lookups
variable {graph later : Graph}

theorem pick_mem {keys : List NodeKey} {key : NodeKey} (picked : pick graph keys = some key) :
    key ∈ keys := by
  induction keys with
  | nil => cases picked
  | cons first rest ih =>
      unfold pick at picked
      cases found : pick graph rest with
      | none =>
          rw [found] at picked
          cases picked
          exact List.mem_cons_self
      | some other =>
          rw [found] at picked ih
          dsimp only at picked
          split at picked
          · exact List.mem_cons_of_mem _ (ih picked)
          · cases picked
            exact List.mem_cons_self

theorem pick_some {keys : List NodeKey} {key : NodeKey} (keyIn : key ∈ keys) :
    ∃ picked, pick graph keys = some picked := by
  cases keys with
  | nil => cases keyIn
  | cons first rest =>
      unfold pick
      cases pick graph rest with
      | none => exact ⟨first, rfl⟩
      | some other =>
          dsimp only
          split
          · exact ⟨other, rfl⟩
          · exact ⟨first, rfl⟩

theorem prefers_iff {first second : NodeKey} : prefers graph first second = true ↔
    isDefined graph first = true ∧ isDefined graph second = false ∨
      isDefined graph first = isDefined graph second ∧ first.sortKey ≤ second.sortKey := by
  simp [prefers]

theorem prefers_refl (key : NodeKey) : prefers graph key key = true :=
  prefers_iff.mpr (Or.inr ⟨rfl, String.le_refl _⟩)

theorem prefers_total {first second : NodeKey} (refused : ¬ prefers graph first second = true) :
    prefers graph second first = true := by
  rw [prefers_iff] at refused ⊢
  rcases String.le_total first.sortKey second.sortKey with before | after
  · cases defined : isDefined graph first <;> cases defined' : isDefined graph second <;>
      simp [defined, defined', before] at refused ⊢
  · cases defined : isDefined graph first <;> cases defined' : isDefined graph second <;>
      simp [defined, defined', after] at refused ⊢

theorem prefers_trans {first second third : NodeKey} (before : prefers graph first second = true)
    (after : prefers graph second third = true) : prefers graph first third = true := by
  rw [prefers_iff] at *
  rcases before with ⟨defined, undefined⟩ | ⟨same, before⟩
  · rcases after with ⟨defined', -⟩ | ⟨same', -⟩
    · rw [undefined] at defined'
      cases defined'
    · exact Or.inl ⟨defined, same' ▸ undefined⟩
  · rcases after with ⟨defined', undefined'⟩ | ⟨same', after⟩
    · exact Or.inl ⟨same ▸ defined', undefined'⟩
    · exact Or.inr ⟨same.trans same', String.le_trans before after⟩

/-- The picked row comes first in the order. -/
theorem pick_prefers {keys : List NodeKey} {best : NodeKey} (picked : pick graph keys = some best) :
    ∀ key ∈ keys, prefers graph best key = true := by
  induction keys generalizing best with
  | nil => nofun
  | cons first rest ih =>
      intro key keyIn
      unfold pick at picked
      cases found : pick graph rest with
      | none =>
          rw [found] at picked
          cases picked
          rcases List.mem_cons.mp keyIn with rfl | inRest
          · exact prefers_refl key
          · obtain ⟨other, some⟩ := @pick_some graph _ key inRest
            rw [found] at some
            cases some
      | some other =>
          rw [found] at picked
          dsimp only at picked
          split at picked
          · rename_i otherFirst
            cases picked
            rcases List.mem_cons.mp keyIn with rfl | inRest
            · exact otherFirst
            · exact ih found key inRest
          · rename_i refused
            cases picked
            rcases List.mem_cons.mp keyIn with rfl | inRest
            · exact prefers_refl key
            · exact prefers_trans (prefers_total refused) (ih found key inRest)

theorem accepts_real (sound : Sound graph) {relation : Relation} {key : NodeKey}
    (accepted : accepts graph relation key = true) : isReal graph key = true := by
  cases relation <;> cases key <;>
    simp only [accepts, Bool.and_eq_true, Bool.false_eq_true] at accepted
  case extends.model => exact sound.definitions _ accepted.2
  case extendsTmpl.qwebTmpl => exact accepted.1
  all_goals exact accepted.2

theorem mem_candidates (sound : Sound graph) {relation : Relation} {key : NodeKey}
    (accepted : accepts graph relation key = true) : key ∈ candidates graph relation :=
  List.mem_filter.mpr ⟨sound.keyed key (present_of_real (accepts_real sound accepted)), accepted⟩

theorem accepts_of_target {relation : Relation} {key : NodeKey}
    (target : key ∈ targets graph relation) : accepts graph relation key = true := by
  have picked : key ∈ (pick graph (candidates graph relation)).toList →
      accepts graph relation key = true := fun inPick =>
    (List.mem_filter.mp (pick_mem (Option.mem_toList.mp inPick))).2
  cases relation with
  | «extends» model module => exact (List.mem_filter.mp target).2
  | inheritsView xmlid base => exact (List.mem_filter.mp target).2
  | extendsTmpl xmlid base =>
      simp only [targets] at target
      split at target
      · exact picked target
      · exact (List.mem_filter.mp (List.mem_of_mem_filter target)).2
  | inherits model module parent => exact picked target
  | delegatesTo model module delegated viaField => exact picked target
  | patches target' patchName module => exact picked target

theorem targets_ne_nil (sound : Sound graph) {relation : Relation} {key : NodeKey}
    (accepted : accepts graph relation key = true) : targets graph relation ≠ [] := by
  have candidate := mem_candidates sound accepted
  have picked : (pick graph (candidates graph relation)).toList ≠ [] := by
    obtain ⟨best, found⟩ := @pick_some graph _ key candidate
    simp [found]
  cases relation with
  | «extends» model module => exact List.ne_nil_of_mem candidate
  | inheritsView xmlid base => exact List.ne_nil_of_mem candidate
  | extendsTmpl xmlid base =>
      simp only [targets]
      split
      · exact picked
      · assumption
  | inherits model module parent => exact picked
  | delegatesTo model module delegated viaField => exact picked
  | patches target' patchName module => exact picked

/-- Only a template's `record_xmlid` can be overwritten: every other lookup keeps accepting. -/
theorem accepts_grows (grows : Grows graph later) {relation : Relation} {key : NodeKey}
    (other : relation.kind ≠ .extendsTmpl) (accepted : accepts graph relation key = true) :
    accepts later relation key = true := by
  cases relation with
  | extendsTmpl xmlid base => exact absurd rfl other
  | _ =>
      cases key <;> simp only [accepts, Bool.and_eq_true, Bool.false_eq_true] at accepted ⊢
      all_goals first
        | exact ⟨accepted.1, grows.real _ accepted.2⟩
        | exact ⟨accepted.1, grows.defined _ accepted.2⟩

end Lookups

end OdooSemantic.Neo4j.Placeholders
