import OdooSemantic.Neo4j.Records
import OdooSemantic.Lib.Provenance
import OdooSemantic.Mcp.Boundary
import OdooSemantic.Reconcile.Stores

/-!
# Whose content a scoped caller reads

A writer adds its run's profile to a node and sets the node's properties.  An owner
drop resets the profile array to the surviving owners and leaves the properties,
which the read predicate then shows to their tenants.
-/

set_option autoImplicit false

namespace OdooSemantic.Neo4j.Confidentiality

open Lib.Run
open Lib.Provenance
open Lib.Py
open Mcp.Boundary (Scope scopePred)
open Reconcile.Stores (ModuleOwner ownerList)

/-- How a statement sets a property: in the `MERGE` pattern, `$x`, `coalesce($x, n.x)`, or
`coalesce(n.x, false) OR $x`. -/
inductive Mode where
  | key | set | coalesce | either
  deriving DecidableEq

/-- A value and the profiles whose runs supplied it last. -/
structure Slot where
  value : String
  sources : List String
  deriving DecidableEq

structure Content where
  profile : Option (List String)
  properties : String → Option Slot

def Content.empty : Content := ⟨none, fun _ => none⟩

def Mode.each (mode : Mode) (names : List String) : List (String × Mode) := names.map (·, mode)

def assignments : NodeLabel → List (String × Mode)
  | .module => Mode.key.each ["name", "odoo_version"] ++
      Mode.set.each ["auto_install", "auto_install_triggers", "application", "category",
        "external_python", "external_bin", "countries", "repo", "path", "version_raw",
        "version_mismatch", "edition", "viindoo_equivalent_qname", "last_commit_sha", "license",
        "copyright_owner", "license_notice"] ++
      Mode.coalesce.each ["summary", "shortdesc", "author", "description", "website",
        "live_test_url", "demo_video_url", "support", "sequence", "old_technical_name", "price",
        "currency", "repo_url", "repo_id"]
  | .child .model => Mode.key.each ["name", "module", "odoo_version"] ++
      Mode.set.each ["is_transient", "is_abstract"] ++
      Mode.either.each ["had_explicit_name", "is_definition"]
  | .child .field => Mode.key.each ["name", "model", "module", "odoo_version"] ++
      Mode.set.each ["ttype", "related", "compute", "stored", "required", "comodel_name", "string",
        "help", "readonly", "inverse", "effective_readonly"]
  | .child .method => Mode.key.each ["name", "model", "module", "odoo_version"] ++
      Mode.set.each ["has_super_call", "decorators", "convention_kind", "super_safety",
        "return_required", "signature", "depends", "docstring"]
  | .child .view => Mode.key.each ["xmlid", "odoo_version"] ++
      Mode.set.each ["name", "model", "module", "type", "mode", "xpaths_exprs", "xpaths_positions",
        "arch_snippet", "conditions", "unresolved"]
  | .child .qwebTmpl => Mode.key.each ["xmlid", "odoo_version"] ++
      Mode.set.each ["module", "unresolved"] ++
      Mode.coalesce.each ["key", "mode", "record_xmlid"]
  | .child .report => Mode.key.each ["xmlid", "odoo_version"] ++
      Mode.set.each ["name", "model", "module", "report_type", "report_name", "report_file",
        "paperformat", "unresolved"]
  | .child .jsPatch => Mode.key.each ["target", "patch_name", "module", "odoo_version"] ++
      Mode.set.each ["era", "file_path"]
  | .child .owlComp => Mode.key.each ["name", "module", "odoo_version"] ++
      Mode.set.each ["template", "extends", "extends_module", "bound_model", "file_path"]
  | .child .stylesheet => Mode.key.each ["file_path", "module", "odoo_version"] ++
      Mode.set.each ["language", "selector_count", "variable_count", "import_count",
        "mixin_count"] ++
      Mode.coalesce.each ["repo_id"]
  | .child .jsTestSuite => Mode.key.each ["file_path", "module", "odoo_version"] ++
      Mode.set.each ["framework", "describe_blocks", "test_names", "tags", "mounts", "mock_models",
        "line"]
  | .child .testClass => Mode.key.each ["name", "module", "file_path", "repo", "odoo_version"] ++
      Mode.set.each ["test_type", "base_classes_ordered", "base_sources_ordered", "tagged",
        "commit_allowed", "defines_no_test_methods", "is_helper", "docstring", "line"]
  | .child .testMethod =>
      Mode.key.each ["name", "test_class", "module", "file_path", "repo", "odoo_version"] ++
      Mode.set.each ["tagged", "docstring", "field_refs", "model_refs", "method_refs",
        "asserts_count", "via", "line"]
  | .child .testHelper => Mode.key.each ["name", "module", "odoo_version"] ++
      Mode.set.each ["origin", "test_type", "setup_summary", "commit_allowed"] ++
      Mode.coalesce.each ["file_path", "line"]
  | .child .lintViolation => Mode.key.each ["file_path", "line", "rule", "odoo_version"] ++
      Mode.set.each ["message", "severity", "view_xmlid", "view_type"]
  | .shared => []

/-- The properties of the `MERGE` pattern. -/
def keys (label : NodeLabel) : List (String × Mode) :=
  (assignments label).filter fun entry => entry.2 == .key

/-- The constants of a placeholder, which `ON CREATE` sets. -/
def placeholderConstants : NodeLabel → List (String × String)
  | .child .model => [("unresolved", "true"), ("is_definition", "false")]
  | .child .view => [("unresolved", "true"), ("module", "__unresolved__")]
  | .child .qwebTmpl => [("unresolved", "true"), ("module", "__unresolved__")]
  | .child .owlComp => [("unresolved", "true")]
  | _ => []

abbrev Values := String → Option String

def Mode.assign (mode : Mode) (profile : String) (value : Option String) (old : Option Slot) :
    Option Slot :=
  let new := value.map fun text => Slot.mk text [profile]
  match mode with
  | .key => new
  | .set => new
  | .coalesce => new.or old
  | .either =>
      if value = some "true" then new
      else if old.any (·.value == "true") then old
      else some ⟨"false", [profile]⟩

/-- `_profile_union_set`. -/
def profileUnion (old : Option (List String)) (profiles : List String) : List String :=
  (old.getD []).filter (!profiles.contains ·) ++ profiles

def Content.written (table : List (String × Mode)) (values : Values) (profile : String)
    (old : Content) : Content :=
  { profile := some (profileUnion old.profile [profile])
    properties := fun property =>
      match table.lookup property with
      | none => old.properties property
      | some mode => mode.assign profile (values property) (old.properties property) }

def Content.referenced (label : NodeLabel) (values : Values) (profile : String) : Content :=
  { profile := none
    properties := fun property =>
      if (keys label).lookup property = some .key then
        (values property).map fun text => ⟨text, [profile]⟩
      else ((placeholderConstants label).lookup property).map fun text => ⟨text, []⟩ }

/-! ## Statements -/

/-- The version graph with the properties and profile array of each node. -/
structure Store where
  graph : Graph
  content : Nat → Content

def Store.empty : Store := ⟨.empty, fun _ => .empty⟩

section Statements
variable (store : Store)

def Store.value (id : Nat) (property : String) : Option String :=
  ((store.content id).properties property).map (·.value)

/-- The pattern of a `MERGE`. -/
def Store.matchesKey (label : NodeLabel) (values : Values) (node : Node) : Bool :=
  node.label == label && (keys label).all fun entry =>
    store.value node.id entry.1 == values entry.1

def Store.found (label : NodeLabel) (values : Values) : Option Node :=
  store.graph.nodes.find? (store.matchesKey label values)

theorem none_unstamped {label : NodeLabel} (_ : label = .child .testHelper) :
    (none : Option Nat) = none :=
  rfl

def nodeOf (label : NodeLabel) (values : Values) (lastSeenAt : Option Nat) : Node :=
  { id := 0
    label
    name := (values "name").getD ""
    module := values "module"
    odooVersion := (values "odoo_version").getD ""
    xmlid := values "xmlid"
    viewXmlid := values "view_xmlid"
    filePath := values "file_path"
    lastSeenAt
    writtenRun := none
    writtenAt := none
    helper_unstamped := none_unstamped }

def Node.withId (node : Node) (id : Nat) : Node := { node with id, helper_unstamped := node.helper_unstamped }

/-- `MERGE … SET` of a node: `old` is the node it matched. -/
def Store.merge (old : Option Node) (node : Node) (content : Content → Content)
    (run : Option String) (now : Nat) : Store :=
  let id := (old.map (·.id)).getD store.graph.freshId
  { graph := store.graph.mergeNode (Node.withId node id) run now
    content := Function.update store.content id
      (content (if old.isSome then store.content id else .empty)) }

def Store.write (label : NodeLabel) (values : Values) (profile : String) (run : Option String)
    (now : Nat) : Store :=
  store.merge (store.found label values)
    (nodeOf label values (if label = .module then some now else none))
    (.written (assignments label) values profile) run now

def moduleKey (name odooVersion : String) : Values := fun property =>
  if property = "name" then some name
  else if property = "odoo_version" then some odooVersion
  else none

/-- The `MERGE (mod:Module …)` of the child writers. -/
def Store.touchModule (name odooVersion profile : String) : Store :=
  let old := store.found .module (moduleKey name odooVersion)
  store.merge old (old.getD (nodeOf .module (moduleKey name odooVersion) none))
    (.written (keys .module) (moduleKey name odooVersion) profile) none 0

/-- A `depends` target or a placeholder. -/
def Store.reference (label : NodeLabel) (values : Values) (profile : String) : Store :=
  if (store.found label values).isSome then store
  else
    store.merge none
      (nodeOf label (fun property =>
        (values property).or ((placeholderConstants label).lookup property)) none)
      (fun _ => .referenced label values profile) none 0

def Store.relate (rel : Rel) (run : Option String) (now : Nat) : Store :=
  { store with graph := store.graph.mergeRel rel run now }

/-- `SET` on the nodes a statement selects. -/
def Store.setContent (selects : Node → Bool) (change : Content → Content) : Store :=
  { store with
    content := fun id =>
      if store.graph.nodes.any (fun node => node.id == id && selects node) then
        change (store.content id)
      else store.content id }

def Store.detachDelete (selects : Node → Bool) : Store :=
  { store with graph := store.graph.detachDelete ((store.graph.nodes.filter selects).map (·.id)) }

/-- The values `drop_module_owner` puts on the Module node. -/
def ownerValues (primary : ModuleOwner) (owners : List ModuleOwner) (old : Content) : Content :=
  let profiles := sortedSet (owners.map (·.profileName))
  let new := fun text => Slot.mk text [primary.profileName]
  { profile := some profiles
    properties := fun property =>
      match property with
      | "repos" => some ⟨",".intercalate (sortedSet (owners.map (·.repoBasename))), profiles⟩
      | "repo" => some (new primary.repoBasename)
      | "path" => some (new primary.path)
      | "repo_id" => (primary.repoId.map fun id => new (toString id)).or (old.properties "repo_id")
      | "repo_url" => some (new primary.repoUrl)
      | _ => old.properties property }

/-- The selection of `drop_module_owner` for a label. -/
def Store.ownedChild (odooVersion name : String) (label : Label) (node : Node) : Bool :=
  node.label == .child label && node.odooVersion == odooVersion &&
    match label with
    | .lintViolation => isModuleLintViolation store.graph odooVersion [name]
        (moduleViewXmlids store.graph odooVersion [name]) node
    | _ => node.module == some name

def Store.reown (odooVersion name : String) (primary : ModuleOwner) (owners : List ModuleOwner) :
    Store :=
  store.setContent
    (fun node => node.label == .module && node.name == name && node.odooVersion == odooVersion)
    (ownerValues primary owners)

def Store.dropTests (odooVersion name : String) (repos : List String) (label : Label) : Store :=
  store.detachDelete fun node => store.ownedChild odooVersion name label node &&
    !repos.contains ((store.value node.id "repo").getD "")

def Store.resetChildren (odooVersion name : String) (profiles : List String) (label : Label) :
    Store :=
  store.setContent (store.ownedChild odooVersion name label)
    fun content => { content with profile := some profiles }

/-- `drop_module_owner`; no owners is the `ValueError`. -/
def Store.dropModuleOwner (odooVersion name : String) (owners : List ModuleOwner) : Store :=
  match ownerList owners with
  | [] => store
  | primary :: rest =>
      if nonRetirableModuleNames.contains name then store
      else
        let profiles := sortedSet ((primary :: rest).map (·.profileName))
        let repos := (primary :: rest).map (·.repoBasename)
        let tested := [Label.testMethod, .testClass].foldl
          (fun store label => Store.dropTests store odooVersion name repos label)
          (store.reown odooVersion name primary (primary :: rest))
        moduleChildLabels.foldl
          (fun store label => Store.resetChildren store odooVersion name profiles label) tested

def Store.retire (args : Retire) : Store := { store with graph := retireModules store.graph args }

/-- `prune_module_children`. -/
def Store.prune (args : Prune) : Store :=
  { store with
    graph := (Call.prune args).execute (moduleViewXmlids store.graph args.odooVersion [args.name])
      (Call.prune args).statements store.graph }

end Statements

inductive Operation where
  | writeModule (values : Values) (profile : String) (now : Nat)
  | writeChild (label : Label) (values : Values) (profile : String) (run : Option String) (now : Nat)
  | touchModule (name odooVersion profile : String)
  | reference (label : NodeLabel) (values : Values) (profile : String)
  | relate (rel : Rel) (run : Option String) (now : Nat)
  | dropModuleOwner (odooVersion name : String) (owners : List ModuleOwner)
  | retire (args : Retire)
  | prune (args : Prune)

def step (store : Store) : Operation → Store
  | .writeModule values profile now => store.write .module values profile none now
  | .writeChild label values profile run now => store.write (.child label) values profile run now
  | .touchModule name odooVersion profile => store.touchModule name odooVersion profile
  | .reference label values profile => store.reference label values profile
  | .relate rel run now => store.relate rel run now
  | .dropModuleOwner odooVersion name owners => store.dropModuleOwner odooVersion name owners
  | .retire args => store.retire args
  | .prune args => store.prune args

structure Item where
  id : Nat
  property : String
  slot : Slot

def Present (store : Store) (id : Nat) : Prop := ∃ node ∈ store.graph.nodes, node.id = id

def Holds (store : Store) (item : Item) : Prop :=
  Present store item.id ∧ (store.content item.id).properties item.property = some item.slot

/-- The profile is in the node's array, or no scoped caller is granted the node. -/
def Owns (store : Store) (item : Item) (profile : String) : Prop :=
  ∀ profiles, (store.content item.id).profile = some profiles → profile ∈ profiles

def KeyOnly (store : Store) : Prop :=
  ∀ node ∈ store.graph.nodes, (store.content node.id).profile = none →
    ∀ property slot, (store.content node.id).properties property = some slot →
      slot.sources ≠ [] → (keys node.label).lookup property = some .key

theorem mem_profileUnion {old : Option (List String)} {profile name : String} :
    name ∈ profileUnion old [profile] ↔ name = profile ∨ ∃ profiles, old = some profiles ∧
      name ∈ profiles := by
  by_cases same : name = profile
  · simp [profileUnion, same]
  · cases old <;> simp [profileUnion, same]

section Merges
variable {store : Store} {label : NodeLabel} {values : Values} {profile : String} {item : Item}

variable {node : Node} {old : Option Node} {run : Option String} {now : Nat}
variable {table : List (String × Mode)}

/-- The node a `MERGE` writes, and the content it starts from. -/
def Store.target (store : Store) (old : Option Node) : Nat :=
  (old.map (·.id)).getD store.graph.freshId

def Store.base (store : Store) (old : Option Node) : Content :=
  if old.isSome then store.content (store.target old) else .empty

theorem content_merge (old : Option Node) (node : Node) (change : Content → Content)
    (run : Option String) (now : Nat) :
    (store.merge old node change run now).content =
      Function.update store.content (store.target old) (change (store.base old)) := rfl

theorem KeyOnly.written
    (keyOnly : KeyOnly store) :
    KeyOnly (store.merge old node (.written table values profile) run now) := by
  intro other otherIn array property slot isSlot
  rw [content_merge] at array isSlot
  by_cases same : other.id = store.target old
  · rw [same, Function.update_self] at array
    cases array
  · rw [Function.update_of_ne same] at array isSlot
    rcases List.mem_cons.mp otherIn with rfl | kept
    · exact absurd rfl same
    · exact keyOnly other (List.mem_of_mem_filter kept) array property slot isSlot

theorem KeyOnly.referenced (keyOnly : KeyOnly store) (isLabel : node.label = label)
    :
    KeyOnly (store.merge none node (fun _ => .referenced label values profile) run now) := by
  intro other otherIn array property slot isSlot sourced
  rw [content_merge] at array isSlot
  rcases List.mem_cons.mp otherIn with rfl | kept
  · have absent : store.graph.nodes.find? (·.id == store.graph.freshId) = none := by
      refine List.find?_eq_none.mpr fun present presentIn => ?_
      rw [beq_iff_eq]
      exact freshId_unused store.graph presentIn
    have isFresh : (Node.withId node store.graph.freshId).id = store.graph.freshId := rfl
    simp only [Node.stamped, Store.target, Option.map_none, Option.getD_none, isFresh, absent,
      Function.update_self] at isSlot ⊢
    simp only [Content.referenced] at isSlot
    split at isSlot
    · rename_i isKey
      simpa [Node.withId, isLabel] using isKey
    · obtain ⟨text, -, rfl⟩ := Option.map_eq_some_iff.mp isSlot
      exact absurd rfl sourced
  · have apart : other.id ≠ store.target none := by
      have different := (List.mem_filter.mp kept).2
      simpa [Node.withId, Store.target] using different
    rw [Function.update_of_ne apart] at array isSlot
    exact keyOnly other (List.mem_of_mem_filter kept) array property slot isSlot sourced

end Merges

/-- Statements that delete nodes and set arrays to `profiles`, and nothing else. -/
structure Resets (profiles : List String) (before after : Store) : Prop where
  nodes : after.graph.nodes ⊆ before.graph.nodes
  properties : ∀ id, (after.content id).properties = (before.content id).properties
  profile : ∀ id, (after.content id).profile = (before.content id).profile ∨
    (after.content id).profile = some profiles

section Resetting
variable {profiles : List String} {before middle after store : Store} {item : Item}

theorem Resets.refl (store : Store) : Resets profiles store store :=
  ⟨fun _ member => member, fun _ => rfl, fun _ => Or.inl rfl⟩

theorem Resets.trans (first : Resets profiles before middle)
    (second : Resets profiles middle after) : Resets profiles before after := by
  refine ⟨fun _ member => first.nodes (second.nodes member),
    fun id => (second.properties id).trans (first.properties id), fun id => ?_⟩
  rcases second.profile id with same | reset
  · rw [same]
    exact first.profile id
  · exact Or.inr reset

theorem Resets.foldl {α : Type} (statement : Store → α → Store)
    (resets : ∀ store item, Resets profiles store (statement store item)) (items : List α) :
    ∀ store, Resets profiles store (items.foldl statement store) := by
  induction items with
  | nil => exact fun store => .refl store
  | cons item rest ih =>
      intro store
      rw [List.foldl_cons]
      exact (resets store item).trans (ih (statement store item))

theorem Resets.detachDelete (store : Store) (selects : Node → Bool) :
    Resets profiles store (store.detachDelete selects) :=
  ⟨List.filter_subset_self _, fun _ => rfl, fun _ => Or.inl rfl⟩

theorem content_setContent (selects : Node → Bool) (change : Content → Content) (id : Nat) :
    (store.setContent selects change).content id = store.content id ∨
      (store.setContent selects change).content id = change (store.content id) := by
  simp only [Store.setContent]
  split
  · exact Or.inr rfl
  · exact Or.inl rfl

theorem Resets.setProfile (store : Store) (selects : Node → Bool) :
    Resets profiles store
      (store.setContent selects fun content => { content with profile := some profiles }) := by
  refine ⟨fun _ member => member, fun id => ?_, fun id => ?_⟩
  · rcases @content_setContent store selects
      (fun content => { content with profile := some profiles }) id with same | set <;>
      simp [*]
  · rcases @content_setContent store selects
      (fun content => { content with profile := some profiles }) id with same | set
    · exact Or.inl (by rw [same])
    · exact Or.inr (by rw [set])

theorem Resets.holds (resets : Resets profiles before after) (held : Holds after item) :
    Holds before item := by
  obtain ⟨⟨node, nodeIn, same⟩, isSlot⟩ := held
  rw [resets.properties] at isSlot
  exact ⟨⟨node, resets.nodes nodeIn, same⟩, isSlot⟩

theorem KeyOnly.resets (keyOnly : KeyOnly before) (resets : Resets profiles before after) :
    KeyOnly after := by
  intro node nodeIn array property slot isSlot
  rw [resets.properties] at isSlot
  rcases resets.profile node.id with same | reset
  · rw [same] at array
    exact keyOnly node (resets.nodes nodeIn) array property slot isSlot
  · rw [array] at reset
    cases reset

theorem content_reown (store : Store) (odooVersion name : String) (primary : ModuleOwner)
    (owners : List ModuleOwner) (id : Nat) :
    (store.reown odooVersion name primary owners).content id = store.content id ∨
      (store.reown odooVersion name primary owners).content id =
        ownerValues primary owners (store.content id) :=
  content_setContent _ _ id

/-- What `drop_module_owner` leaves: the Module's values of the surviving owners, and arrays of
exactly their profiles. -/
theorem dropModuleOwner_cases (store : Store) (odooVersion name : String)
    (owners : List ModuleOwner) :
    store.dropModuleOwner odooVersion name owners = store ∨
      ∃ primary rest, ownerList owners = primary :: rest ∧
        Resets (sortedSet ((ownerList owners).map (·.profileName)))
          (store.reown odooVersion name primary (primary :: rest))
          (store.dropModuleOwner odooVersion name owners) := by
  unfold Store.dropModuleOwner
  split
  · exact Or.inl rfl
  · rename_i primary rest isList
    split
    · exact Or.inl rfl
    · refine Or.inr ⟨primary, rest, isList, ?_⟩
      rw [isList]
      have tested := Resets.foldl
        (fun store label => Store.dropTests store odooVersion name
          ((primary :: rest).map (·.repoBasename)) label)
        (fun store label => @Resets.detachDelete
          (sortedSet ((primary :: rest).map (·.profileName))) store _)
        [Label.testMethod, .testClass] (store.reown odooVersion name primary (primary :: rest))
      have children := Resets.foldl
        (fun store label => Store.resetChildren store odooVersion name
          (sortedSet ((primary :: rest).map (·.profileName))) label)
        (fun store label => Resets.setProfile store _) moduleChildLabels
      exact tested.trans (children _)

variable {owners : List ModuleOwner} {source : String}

theorem drop_array (store : Store) (odooVersion name : String) (owners : List ModuleOwner)
    (id : Nat) :
    ((store.dropModuleOwner odooVersion name owners).content id).profile =
        (store.content id).profile ∨
      ownerList owners ≠ [] ∧ ((store.dropModuleOwner odooVersion name owners).content id).profile =
        some (sortedSet ((ownerList owners).map (·.profileName))) := by
  rcases dropModuleOwner_cases store odooVersion name owners with
    same | ⟨primary, rest, isList, resets⟩
  · rw [same]
    exact Or.inl rfl
  · have some : ownerList owners ≠ [] := by simp [isList]
    rcases resets.profile id with same | reset
    · rcases content_reown store odooVersion name primary (primary :: rest) id with
        unowned | reowned
      · rw [same, unowned]
        exact Or.inl rfl
      · rw [same, reowned, isList]
        exact Or.inr ⟨nofun, rfl⟩
    · exact Or.inr ⟨some, reset⟩

end Resetting

/-! ## Runs -/

section Runs
variable {store : Store} {item : Item}

theorem KeyOnly.of_graph {after : Graph} (keyOnly : KeyOnly store)
    (nodes : after.nodes ⊆ store.graph.nodes) : KeyOnly { store with graph := after } :=
  fun node nodeIn => keyOnly node (nodes nodeIn)

theorem KeyOnly.reown (keyOnly : KeyOnly store) (odooVersion name : String) (primary : ModuleOwner)
    (owners : List ModuleOwner) : KeyOnly (store.reown odooVersion name primary owners) := by
  intro node nodeIn array
  rcases content_reown store odooVersion name primary owners node.id with same | owned
  · rw [same] at array ⊢
    exact keyOnly node nodeIn array
  · rw [owned] at array
    cases array

theorem execute_nodes_subset (call : Call) (xmlids : List String) (statements : List Statement)
    (graph : Graph) : (call.execute xmlids statements graph).nodes ⊆ graph.nodes := by
  induction statements generalizing graph with
  | nil => exact fun _ member => member
  | cons statement rest ih =>
      exact fun _ member => delete_nodes_subset statement _ (ih _ member)

theorem retireModules_nodes_subset (graph : Graph) (args : Retire) :
    (retireModules graph args).nodes ⊆ graph.nodes := by
  unfold retireModules
  split
  · exact fun _ member => member
  · exact execute_nodes_subset _ _ _ graph

theorem KeyOnly.step (keyOnly : KeyOnly store) (operation : Operation) :
    KeyOnly (Confidentiality.step store operation) := by
  cases operation with
  | writeModule values profile now | writeChild label values profile run now
  | touchModule name odooVersion profile => exact keyOnly.written
  | reference label values profile =>
      simp only [Confidentiality.step, Store.reference]
      split
      · exact keyOnly
      · exact keyOnly.referenced rfl
  | relate rel run now => exact keyOnly
  | dropModuleOwner odooVersion name owners =>
      simp only [Confidentiality.step]
      rcases dropModuleOwner_cases store odooVersion name owners with
        same | ⟨primary, rest, -, resets⟩
      · rw [same]
        exact keyOnly
      · exact (keyOnly.reown odooVersion name primary (primary :: rest)).resets resets
  | retire args => exact keyOnly.of_graph (retireModules_nodes_subset store.graph args)
  | prune args => exact keyOnly.of_graph (execute_nodes_subset _ _ _ store.graph)

def NonemptyArrays (store : Store) : Prop := ∀ id, (store.content id).profile ≠ some []

theorem NonemptyArrays.merge (nonempty : NonemptyArrays store) {old : Option Node} {node : Node}
    {change : Content → Content} {run : Option String} {now : Nat}
    (changed : ∀ content, (change content).profile ≠ some []) :
    NonemptyArrays (store.merge old node change run now) := by
  intro id
  rw [content_merge]
  by_cases same : id = store.target old
  · rw [same, Function.update_self]
    exact changed _
  · rw [Function.update_of_ne same]
    exact nonempty id

variable {profile : String}

theorem written_nonempty {table : List (String × Mode)} {values : Values}
    (content : Content) : (Content.written table values profile content).profile ≠ some [] := by
  intro empty
  have member : profile ∈ profileUnion content.profile [profile] :=
    mem_profileUnion.mpr (Or.inl rfl)
  rw [Option.some.inj empty] at member
  cases member

theorem NonemptyArrays.step (nonempty : NonemptyArrays store) (operation : Operation) :
    NonemptyArrays (Confidentiality.step store operation) := by
  cases operation with
  | writeModule values profile now | writeChild label values profile run now
  | touchModule name odooVersion profile => exact nonempty.merge written_nonempty
  | reference label values profile =>
      simp only [Confidentiality.step, Store.reference]
      split
      · exact nonempty
      · exact nonempty.merge fun _ => nofun
  | dropModuleOwner odooVersion name owners =>
      intro id
      rcases drop_array store odooVersion name owners id with same | ⟨some, reset⟩
      · simp only [Confidentiality.step]
        rw [same]
        exact nonempty id
      · simp only [Confidentiality.step]
        rw [reset, Ne, Option.some.injEq, sortedSet_eq_nil, List.map_eq_nil_iff]
        exact some
  | _ => exact nonempty

/-- The value is on a node that `_scope_pred` grants a scoped caller. -/
def Reads (store : Store) (own shared : List String) (item : Item) : Prop :=
  Holds store item ∧ scopePred ⟨some own, shared⟩ (store.content item.id).profile = true

end Runs

instance (store : Store) (id : Nat) : Decidable (Present store id) :=
  inferInstanceAs (Decidable (∃ node ∈ store.graph.nodes, node.id = id))

instance (store : Store) (item : Item) : Decidable (Holds store item) :=
  inferInstanceAs (Decidable (_ ∧ _))

instance (store : Store) (own shared : List String) (item : Item) :
    Decidable (Reads store own shared item) :=
  inferInstanceAs (Decidable (_ ∧ _))

end OdooSemantic.Neo4j.Confidentiality
