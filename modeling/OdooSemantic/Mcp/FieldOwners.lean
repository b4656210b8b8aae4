import Mathlib.Data.Prod.Lex
import Mathlib.Data.String.Basic
import OdooSemantic.Lib.NameWalks
import OdooSemantic.Lib.Picks

/-!
# The owner models of a model's fields

`_ancestor_tagged_prologue` expands the model names three hops along the inheritance edges, one
hop for all names at a time, and keeps the nearest row of each name.
-/

set_option autoImplicit false

namespace OdooSemantic.Mcp.FieldOwners

open Lib.NameWalks Lib.Picks

/-- A `Model` node: a name has one for each module that touches it. -/
structure ModelNode where
  id : Nat
  name : String
  odooVersion : String
  unresolved : Option Bool
  deriving DecidableEq

/-- `coalesce(node.unresolved, false)`. -/
def ModelNode.isUnresolved (node : ModelNode) : Bool := node.unresolved.getD false

inductive EdgeKind where
  | INHERITS
  | DELEGATES_TO
  deriving DecidableEq

structure ModelEdge where
  source : ModelNode
  target : ModelNode
  kind : EdgeKind
  viaField : Option String
  deriving DecidableEq

structure ModelGraph where
  models : List ModelNode
  edges : List ModelEdge
  closed : ∀ edge ∈ edges, edge.source ∈ models ∧ edge.target ∈ models

/-! ## The expansion -/

/-- The map `{name, kind, via_field}` of a row, all null where nothing was matched. -/
structure Tag where
  name : Option String
  kind : Option EdgeKind
  viaField : Option String
  deriving DecidableEq

/-- `OPTIONAL MATCH`: no match gives one row of nulls. -/
def optionalMatch {Row : Type} (rows : List Row) : List (Option Row) :=
  if rows.isEmpty then [none] else rows.map some

/-- `{name: h.name, kind: type(r), via_field: r.via_field}`. -/
def tagOf : Option ModelEdge → Tag
  | none => ⟨none, none, none⟩
  | some edge => ⟨some edge.target.name, some edge.kind, edge.viaField⟩

/-- `-[:rels]->(h:Model {odoo_version: $v}) WHERE NOT coalesce(h.unresolved, false) AND
h.name <> name`. -/
def follows (rels : List EdgeKind) (version name : String) (edge : ModelEdge) : Bool :=
  rels.contains edge.kind && edge.target.odooVersion == version && !edge.target.isUnresolved &&
    edge.target.name != name

section Expansion
variable (graph : ModelGraph) (rels : List EdgeKind) (model version : String)

/-- `MATCH (start:Model {name: $mn, odoo_version: $v})` of the resolved nodes. -/
def startNodes : List ModelNode :=
  graph.models.filter fun node =>
    node.name == model && node.odooVersion == version && !node.isUnresolved

def firstHop : List Tag :=
  ((startNodes graph model version).flatMap fun start =>
    (optionalMatch (graph.edges.filter fun edge =>
      decide (edge.source = start) && follows rels version model edge)).map tagOf).dedup

/-- `UNWIND (CASE WHEN size(hop) = 0 THEN [null] ELSE hop END)`. -/
def unwound (hop : List Tag) : List (Option Tag) :=
  if hop.isEmpty then [none] else hop.map some

def edgesFrom : Option String → List ModelEdge
  | none => []
  | some name => graph.edges.filter fun edge =>
      edge.source.name == name && edge.source.odooVersion == version &&
        follows rels version name edge

def nextHop (hop : List Tag) : List Tag :=
  ((unwound hop).flatMap fun entry =>
    (optionalMatch (edgesFrom graph rels version (entry.bind (·.name)))).map tagOf).dedup

structure OwnerRow where
  ownerModel : Option String
  depth : Nat
  kindRank : Nat
  viaField : Option String
  deriving DecidableEq

/-- `CASE WHEN kind = 'DELEGATES_TO' THEN 1 ELSE 0 END`. -/
def kindRank : Option EdgeKind → Nat
  | some .DELEGATES_TO => 1
  | _ => 0

/-- `[e IN hop WHERE e IS NOT NULL | {name: e.name, depth: depth, …}]`: a map of nulls is not
null. -/
def hopRows (depth : Nat) (hop : List Tag) : List OwnerRow :=
  hop.map fun tag => ⟨tag.name, depth, kindRank tag.kind, tag.viaField⟩

def taggedRows : List OwnerRow :=
  let hop1 := firstHop graph rels model version
  let hop2 := nextHop graph rels version hop1
  let hop3 := nextHop graph rels version hop2
  ⟨some model, 0, kindRank (some .INHERITS), none⟩ ::
    (hopRows 1 hop1 ++ hopRows 2 hop2 ++ hopRows 3 hop3)

/-- `ORDER BY owner_model ASC, depth ASC, kind_rank ASC`: null comes last. -/
def ownerKey (row : OwnerRow) : Bool ×ₗ String ×ₗ Nat ×ₗ Nat :=
  toLex (row.ownerModel.isNone, toLex (row.ownerModel.getD "", toLex (row.depth, row.kindRank)))

def ancestorTaggedPrologue (arrival : Arrival OwnerRow) : List OwnerRow :=
  heads OwnerRow.ownerModel (ordered ownerKey arrival (taggedRows graph rels model version))

/-- `_ANCESTOR_TAGGED_PROLOGUE`. -/
def fieldRels : List EdgeKind := [.INHERITS, .DELEGATES_TO]

/-- `_ANCESTOR_TAGGED_PROLOGUE_INHERITS_ONLY`. -/
def methodRels : List EdgeKind := [.INHERITS]

/-- `_ancestor_owner_names`: `collect(DISTINCT owner_model)` leaves null out. -/
def ancestorOwnerNames (arrival : Arrival OwnerRow) : List String :=
  let names := ((ancestorTaggedPrologue graph fieldRels model version arrival).filterMap
    (·.ownerModel)).dedup
  if names.isEmpty then [model] else names

end Expansion

section Walks
variable (graph : ModelGraph) (rels : List EdgeKind) (version : String)

/-- An edge that a hop may take from some node of its source's name. -/
def Passable (edge : ModelEdge) : Prop :=
  edge ∈ graph.edges ∧ edge.source.odooVersion = version ∧
    follows rels version edge.source.name edge = true

/-- The first hop leaves a resolved node, a later one any node of the name. -/
def ownerHops : Hops ModelEdge String where
  source edge := edge.source.name
  target edge := edge.target.name
  first edge := Passable graph rels version edge ∧ edge.source.isUnresolved = false
  later edge := Passable graph rels version edge

def resolvedHops : Hops ModelEdge String where
  source edge := edge.source.name
  target edge := edge.target.name
  first edge := Passable graph rels version edge ∧ edge.source.isUnresolved = false
  later edge := Passable graph rels version edge ∧ edge.source.isUnresolved = false

end Walks

section Tags
variable {graph : ModelGraph} {rels : List EdgeKind} {model version : String}

theorem some_mem_optionalMatch {Row : Type} {rows : List Row} {row : Row} :
    some row ∈ optionalMatch rows ↔ row ∈ rows := by
  rw [optionalMatch]
  cases rows with
  | nil => simp only [List.isEmpty_nil, if_true, List.mem_singleton, reduceCtorEq, List.not_mem_nil]
  | cons first rest =>
      rw [List.isEmpty_cons, if_neg Bool.false_ne_true]
      exact List.mem_map_of_injective (Option.some_injective Row)

theorem named_mem_tags {edges : List ModelEdge} {tag : Tag} (named : tag.name ≠ none) :
    tag ∈ (optionalMatch edges).map tagOf ↔ ∃ edge ∈ edges, tagOf (some edge) = tag := by
  rw [List.mem_map]
  constructor
  · rintro ⟨found, listed, rfl⟩
    cases found with
    | none => exact absurd rfl named
    | some edge => exact ⟨edge, some_mem_optionalMatch.mp listed, rfl⟩
  · rintro ⟨edge, listed, rfl⟩
    exact ⟨some edge, some_mem_optionalMatch.mpr listed, rfl⟩

theorem mem_startNodes {node : ModelNode} :
    node ∈ startNodes graph model version ↔ node ∈ graph.models ∧ node.name = model ∧
      node.odooVersion = version ∧ node.isUnresolved = false := by
  simp only [startNodes, List.mem_filter, Bool.and_eq_true, beq_iff_eq, Bool.not_eq_true',
    and_assoc]

theorem mem_edgesFrom {name : Option String} {edge : ModelEdge} :
    edge ∈ edgesFrom graph rels version name ↔
      Passable graph rels version edge ∧ name = some edge.source.name := by
  cases name with
  | none => simp only [edgesFrom, List.not_mem_nil, reduceCtorEq, and_false]
  | some name =>
      simp only [edgesFrom, Passable, List.mem_filter, Bool.and_eq_true, beq_iff_eq,
        Option.some_inj]
      constructor
      · rintro ⟨isEdge, ⟨rfl, dated⟩, followed⟩
        exact ⟨⟨isEdge, dated, followed⟩, rfl⟩
      · rintro ⟨⟨isEdge, dated, followed⟩, rfl⟩
        exact ⟨isEdge, ⟨rfl, dated⟩, followed⟩

def TagsOf (graph : ModelGraph) (rels : List EdgeKind) (model version : String) (depth : Nat)
    (hop : List Tag) : Prop :=
  ∀ tag, tag.name ≠ none → (tag ∈ hop ↔
    ∃ edge, (ownerHops graph rels version).Arrives model depth edge ∧ tagOf (some edge) = tag)

theorem firstHop_tags :
    TagsOf graph rels model version 1 (firstHop graph rels model version) := by
  intro tag named
  rw [firstHop, List.mem_dedup, List.mem_flatMap]
  simp only [named_mem_tags named, List.mem_filter, Bool.and_eq_true, decide_eq_true_eq,
    mem_startNodes, Hops.arrives_one]
  constructor
  · rintro ⟨start, ⟨-, rfl, dated, resolved⟩, edge, ⟨isEdge, rfl, followed⟩, tagged⟩
    exact ⟨edge, ⟨⟨⟨isEdge, dated, followed⟩, resolved⟩, rfl⟩, tagged⟩
  · rintro ⟨edge, ⟨⟨⟨isEdge, dated, followed⟩, resolved⟩, rfl⟩, tagged⟩
    exact ⟨edge.source, ⟨(graph.closed edge isEdge).1, rfl, dated, resolved⟩, edge,
      ⟨isEdge, rfl, followed⟩, tagged⟩

theorem mem_unwound {hop : List Tag} {tag : Tag} : some tag ∈ unwound hop ↔ tag ∈ hop :=
  some_mem_optionalMatch

theorem nextHop_tags {depth : Nat} {hop : List Tag} (positive : 0 < depth)
    (tags : TagsOf graph rels model version depth hop) :
    TagsOf graph rels model version (depth + 1) (nextHop graph rels version hop) := by
  intro tag named
  rw [nextHop, List.mem_dedup, List.mem_flatMap]
  simp only [named_mem_tags named, mem_edgesFrom, Hops.arrives_succ positive]
  constructor
  · rintro ⟨entry, listed, edge, ⟨passable, leaves⟩, tagged⟩
    obtain ⟨reached, rfl, isName⟩ := Option.bind_eq_some_iff.mp leaves
    have isNamed : reached.name ≠ none := by
      rw [isName]
      exact Option.some_ne_none _
    obtain ⟨before, walked, same⟩ := (tags reached isNamed).mp (mem_unwound.mp listed)
    have ends : before.target.name = edge.source.name := by
      rw [← same, tagOf, Option.some_inj] at isName
      exact isName
    exact ⟨edge, ⟨passable, before, walked, ends⟩, tagged⟩
  · rintro ⟨edge, ⟨passable, before, walked, ends⟩, tagged⟩
    have listed : tagOf (some before) ∈ hop :=
      (tags _ (Option.some_ne_none _)).mpr ⟨before, walked, rfl⟩
    exact ⟨some (tagOf (some before)), mem_unwound.mpr listed, edge,
      ⟨passable, congrArg some ends⟩, tagged⟩

/-- The row of an edge that is taken as hop number `depth`. -/
def rowOf (depth : Nat) (edge : ModelEdge) : OwnerRow :=
  ⟨some edge.target.name, depth, kindRank (some edge.kind), edge.viaField⟩

def ownRow (model : String) : OwnerRow :=
  ⟨some model, 0, kindRank (some .INHERITS), none⟩

theorem named_mem_hopRows {depth : Nat} {hop : List Tag}
    (tags : TagsOf graph rels model version depth hop) {row : OwnerRow}
    (named : row.ownerModel ≠ none) :
    row ∈ hopRows depth hop ↔
      ∃ edge, (ownerHops graph rels version).Arrives model depth edge ∧ rowOf depth edge = row := by
  rw [hopRows, List.mem_map]
  constructor
  · rintro ⟨tag, listed, rfl⟩
    obtain ⟨edge, walked, rfl⟩ := (tags tag named).mp listed
    exact ⟨edge, walked, rfl⟩
  · rintro ⟨edge, walked, rfl⟩
    exact ⟨tagOf (some edge), (tags _ (Option.some_ne_none _)).mpr ⟨edge, walked, rfl⟩, rfl⟩

theorem named_mem_taggedRows {row : OwnerRow} (named : row.ownerModel ≠ none) :
    row ∈ taggedRows graph rels model version ↔ row = ownRow model ∨
      ∃ depth ≤ 3, ∃ edge, (ownerHops graph rels version).Arrives model depth edge ∧
        rowOf depth edge = row := by
  have tags1 : TagsOf graph rels model version 1 (firstHop graph rels model version) := firstHop_tags
  have tags2 := nextHop_tags Nat.one_pos tags1
  have tags3 := nextHop_tags Nat.two_pos tags2
  simp only [taggedRows, List.mem_cons, List.mem_append, named_mem_hopRows tags1 named,
    named_mem_hopRows tags2 named, named_mem_hopRows tags3 named]
  refine or_congr Iff.rfl ?_
  constructor
  · rintro ((one | two) | three)
    · exact ⟨1, by omega, one⟩
    · exact ⟨2, by omega, two⟩
    · exact ⟨3, by omega, three⟩
  · rintro ⟨depth, near, edge, walked, same⟩
    have positive := walked.pos
    obtain rfl | rfl | rfl : depth = 1 ∨ depth = 2 ∨ depth = 3 := by omega
    · exact Or.inl (Or.inl ⟨edge, walked, same⟩)
    · exact Or.inl (Or.inr ⟨edge, walked, same⟩)
    · exact Or.inr ⟨edge, walked, same⟩

theorem ownRow_mem : ownRow model ∈ taggedRows graph rels model version :=
  List.mem_cons_self

end Tags

section Kept
variable {graph : ModelGraph} {rels : List EdgeKind} {model version : String}
variable {arrival : Arrival OwnerRow} {row : OwnerRow} {name : String}

theorem ownerKey_le {one other : OwnerRow} (same : other.ownerModel = one.ownerModel) :
    ownerKey one ≤ ownerKey other ↔
      one.depth < other.depth ∨ one.depth = other.depth ∧ one.kindRank ≤ other.kindRank := by
  simp only [ownerKey, same, Prod.Lex.le_iff, ofLex_toLex, lt_irrefl, false_or, true_and]

theorem kept_nearest (kept : row ∈ ancestorTaggedPrologue graph rels model version arrival) :
    row ∈ taggedRows graph rels model version ∧
      ∀ other ∈ taggedRows graph rels model version, other.ownerModel = row.ownerModel →
        row.depth < other.depth ∨ row.depth = other.depth ∧ row.kindRank ≤ other.kindRank := by
  obtain ⟨tagged, -, least⟩ := least_of_find ((mem_heads _ row).mp kept)
  refine ⟨tagged, fun other isOther same => (ownerKey_le same).mp (least other isOther ?_)⟩
  rw [decide_eq_true_eq]
  exact same

theorem kept_owner_iff {owner : Option String} :
    owner ∈ (ancestorTaggedPrologue graph rels model version arrival).map (·.ownerModel) ↔
      owner ∈ (taggedRows graph rels model version).map (·.ownerModel) := by
  rw [ancestorTaggedPrologue, group_mem_heads]
  simp only [List.mem_map, mem_ordered]

theorem kept_nodup :
    ((ancestorTaggedPrologue graph rels model version arrival).map (·.ownerModel)).Nodup :=
  heads_nodup _

theorem kept_name_iff :
    some name ∈ (ancestorTaggedPrologue graph rels model version arrival).map (·.ownerModel) ↔
      name = model ∨ ∃ depth ≤ 3, (ownerHops graph rels version).Reaches model depth name := by
  rw [kept_owner_iff, List.mem_map]
  constructor
  · rintro ⟨tagged, isRow, owns⟩
    have named : tagged.ownerModel ≠ none := by
      rw [owns]
      exact Option.some_ne_none _
    obtain rfl | ⟨depth, near, edge, walked, rfl⟩ := (named_mem_taggedRows named).mp isRow
    · exact Or.inl (Option.some_inj.mp owns).symm
    · exact Or.inr ⟨depth, near, edge, walked, Option.some_inj.mp owns⟩
  · rintro (rfl | ⟨depth, near, edge, walked, rfl⟩)
    · exact ⟨ownRow name, ownRow_mem, rfl⟩
    · exact ⟨rowOf depth edge, (named_mem_taggedRows (Option.some_ne_none _)).mpr
        (Or.inr ⟨depth, near, edge, walked, rfl⟩), rfl⟩

theorem kept_own (kept : row ∈ ancestorTaggedPrologue graph rels model version arrival)
    (owns : row.ownerModel = some model) : row = ownRow model := by
  obtain ⟨tagged, nearest⟩ := kept_nearest kept
  have named : row.ownerModel ≠ none := by
    rw [owns]
    exact Option.some_ne_none _
  obtain own | ⟨depth, -, edge, walked, rfl⟩ := (named_mem_taggedRows named).mp tagged
  · exact own
  · have start := nearest (ownRow model) ownRow_mem owns.symm
    have positive := walked.pos
    simp only [rowOf, ownRow] at start
    omega

/-- The row of another name belongs to an edge that ends a shortest walk to it, and to an
`INHERITS` edge when there is one. -/
theorem kept_ancestor (kept : row ∈ ancestorTaggedPrologue graph rels model version arrival)
    (owns : row.ownerModel = some name) (other : name ≠ model) :
    (∃ edge, (ownerHops graph rels version).Arrives model row.depth edge ∧
      rowOf row.depth edge = row) ∧ row.depth ≤ 3 ∧
      ∀ depth edge, (ownerHops graph rels version).Arrives model depth edge →
        edge.target.name = name →
          row.depth < depth ∨ row.depth = depth ∧ row.kindRank ≤ kindRank (some edge.kind) := by
  obtain ⟨tagged, nearest⟩ := kept_nearest kept
  have named : row.ownerModel ≠ none := by
    rw [owns]
    exact Option.some_ne_none _
  obtain rfl | ⟨depth, near, edge, walked, rfl⟩ := (named_mem_taggedRows named).mp tagged
  · exact absurd (Option.some_inj.mp owns).symm other
  · refine ⟨⟨edge, walked, rfl⟩, near, fun depth' edge' walked' ends => ?_⟩
    by_cases far : depth' ≤ 3
    · have listed : rowOf depth' edge' ∈ taggedRows graph rels model version :=
        (named_mem_taggedRows (Option.some_ne_none _)).mpr (Or.inr ⟨depth', far, edge', walked', rfl⟩)
      have sameName : (rowOf depth' edge').ownerModel = (rowOf depth edge).ownerModel := by
        rw [owns, ← ends]
        rfl
      exact nearest _ listed sameName
    · left
      simp only [rowOf]
      omega

theorem kindRank_eq_zero {kind : EdgeKind} : kindRank (some kind) = 0 ↔ kind = .INHERITS := by
  cases kind with
  | INHERITS => simp only [kindRank]
  | DELEGATES_TO => simp only [kindRank, reduceCtorEq, Nat.one_ne_zero]

theorem kept_distance (kept : row ∈ ancestorTaggedPrologue graph rels model version arrival)
    (owns : row.ownerModel = some name) (other : name ≠ model) :
    (ownerHops graph rels version).Nearest model row.depth name := by
  obtain ⟨⟨edge, walked, same⟩, -, nearest⟩ := kept_ancestor kept owns other
  have ends : edge.target.name = name := by
    rw [← same] at owns
    exact Option.some_inj.mp owns
  refine ⟨⟨edge, walked, ends⟩, ?_⟩
  rintro depth ⟨edge', walked', ends'⟩
  have near := nearest depth edge' walked' ends'
  omega

theorem kept_kind (kept : row ∈ ancestorTaggedPrologue graph rels model version arrival)
    (owns : row.ownerModel = some name) (other : name ≠ model) :
    row.kindRank = 0 ↔ ∃ edge, (ownerHops graph rels version).Arrives model row.depth edge ∧
      edge.target.name = name ∧ edge.kind = .INHERITS := by
  obtain ⟨⟨edge, walked, same⟩, -, nearest⟩ := kept_ancestor kept owns other
  have ends : edge.target.name = name := by
    rw [← same] at owns
    exact Option.some_inj.mp owns
  constructor
  · intro inherits
    rw [← same] at inherits
    exact ⟨edge, walked, ends, kindRank_eq_zero.mp inherits⟩
  · rintro ⟨edge', walked', ends', inherits⟩
    have least := nearest row.depth edge' walked' ends'
    have zero : kindRank (some edge'.kind) = 0 := kindRank_eq_zero.mpr inherits
    omega

def OwnerRow.place (row : OwnerRow) : Option String × Nat × Nat :=
  (row.ownerModel, row.depth, row.kindRank)

theorem kept_again (kept : row ∈ ancestorTaggedPrologue graph rels model version arrival)
    (another : Arrival OwnerRow) :
    ∃ again ∈ ancestorTaggedPrologue graph rels model version another, again.place = row.place := by
  have listed : row.ownerModel ∈
      (ancestorTaggedPrologue graph rels model version another).map (·.ownerModel) :=
    kept_owner_iff.mpr (kept_owner_iff.mp (List.mem_map_of_mem kept))
  obtain ⟨again, keptAgain, same⟩ := List.mem_map.mp listed
  obtain ⟨tagged, nearest⟩ := kept_nearest kept
  obtain ⟨taggedAgain, nearestAgain⟩ := kept_nearest keptAgain
  have one := nearest again taggedAgain same
  have other := nearestAgain row tagged same.symm
  have depth : again.depth = row.depth := by omega
  have rank : again.kindRank = row.kindRank := by omega
  exact ⟨again, keptAgain, by simp only [OwnerRow.place, same, depth, rank]⟩

def OwnerOf (graph : ModelGraph) (rels : List EdgeKind) (model version : String)
    (row : OwnerRow) : Prop :=
  row = ownRow model ∨
    row.ownerModel ≠ some model ∧ row.depth ≤ 3 ∧
      (∃ edge, (ownerHops graph rels version).Arrives model row.depth edge ∧
        rowOf row.depth edge = row) ∧
      ∀ depth edge, (ownerHops graph rels version).Arrives model depth edge →
        some edge.target.name = row.ownerModel →
          row.depth < depth ∨ row.depth = depth ∧ row.kindRank ≤ kindRank (some edge.kind)

theorem ownerOf_of_kept (kept : row ∈ ancestorTaggedPrologue graph rels model version arrival)
    (owns : row.ownerModel = some name) : OwnerOf graph rels model version row := by
  by_cases own : name = model
  · exact Or.inl (kept_own kept (own ▸ owns))
  · obtain ⟨walked, near, nearest⟩ := kept_ancestor kept owns own
    refine Or.inr ⟨fun same => own ?_, near, walked, fun depth edge arrives ends => ?_⟩
    · exact Option.some_inj.mp (owns.symm.trans same)
    · exact nearest depth edge arrives (Option.some_inj.mp (ends.trans owns))

theorem kept_of_ownerOf (owner : OwnerOf graph rels model version row) :
    ∃ arrival, row ∈ ancestorTaggedPrologue graph rels model version arrival := by
  have least : Least ownerKey (fun other => decide (other.ownerModel = row.ownerModel))
      (taggedRows graph rels model version) row := by
    obtain rfl | ⟨ancestor, near, ⟨edge, walked, same⟩, nearest⟩ := owner
    · refine ⟨ownRow_mem, by rw [decide_eq_true_eq], fun other isOther sameName => ?_⟩
      rw [decide_eq_true_eq] at sameName
      rw [ownerKey_le sameName]
      simp only [ownRow, kindRank]
      omega
    · have named : row.ownerModel ≠ none := by
        rw [← same]
        exact Option.some_ne_none _
      refine ⟨(named_mem_taggedRows named).mpr (Or.inr ⟨row.depth, near, edge, walked, same⟩),
        by rw [decide_eq_true_eq], fun other isOther sameName => ?_⟩
      rw [decide_eq_true_eq] at sameName
      rw [ownerKey_le sameName]
      obtain rfl | ⟨depth, -, edge', walked', rfl⟩ :=
        (named_mem_taggedRows (sameName ▸ named)).mp isOther
      · exact absurd sameName.symm ancestor
      · exact nearest depth edge' walked' sameName
  obtain ⟨arrival, found⟩ := find_iff_least.mpr least
  exact ⟨arrival, (mem_heads _ row).mpr found⟩

theorem OwnerOf.nearest (owner : OwnerOf graph rels model version row)
    (owns : row.ownerModel = some name) (other : name ≠ model) :
    row.depth ≤ 3 ∧ (ownerHops graph rels version).Nearest model row.depth name := by
  obtain ⟨arrival, kept⟩ := kept_of_ownerOf owner
  exact ⟨(kept_ancestor kept owns other).2.1, kept_distance kept owns other⟩

theorem mem_ancestorOwnerNames :
    name ∈ ancestorOwnerNames graph model version arrival ↔
      name = model ∨ ∃ depth ≤ 3, (ownerHops graph fieldRels version).Reaches model depth name := by
  have listed : ∀ other, other ∈ ((ancestorTaggedPrologue graph fieldRels model version
      arrival).filterMap (·.ownerModel)).dedup ↔ other = model ∨
        ∃ depth ≤ 3, (ownerHops graph fieldRels version).Reaches model depth other := by
    intro other
    rw [List.mem_dedup, List.mem_filterMap, ← List.mem_map]
    exact kept_name_iff
  -- the model is always among the names, so the fallback is not taken
  have some : ((ancestorTaggedPrologue graph fieldRels model version arrival).filterMap
      (·.ownerModel)).dedup.isEmpty = false := by
    rw [List.isEmpty_eq_false_iff_exists_mem]
    exact ⟨model, (listed model).mpr (Or.inl rfl)⟩
  rw [ancestorOwnerNames]
  simp only [some, Bool.false_eq_true, if_false]
  exact listed name

theorem ancestorOwnerNames_nodup : (ancestorOwnerNames graph model version arrival).Nodup := by
  rw [ancestorOwnerNames]
  split
  · exact List.nodup_singleton model
  · exact List.nodup_dedup _

end Kept

/-- The prologue tags the model at depth 0 and every name within three hops, each once, with its
shortest distance and its edge kind; the owner names are these names. -/
theorem prologue_tags (graph : ModelGraph) (rels : List EdgeKind) (model version : String)
    (arrival : Arrival OwnerRow) :
    ((ancestorTaggedPrologue graph rels model version arrival).map (·.ownerModel)).Nodup ∧
      (∀ name,
        some name ∈ (ancestorTaggedPrologue graph rels model version arrival).map (·.ownerModel) ↔
          name = model ∨ ∃ depth ≤ 3, (ownerHops graph rels version).Reaches model depth name) ∧
      (∀ row ∈ ancestorTaggedPrologue graph rels model version arrival,
        row.ownerModel = some model → row.depth = 0 ∧ row.kindRank = 0) ∧
      (∀ row ∈ ancestorTaggedPrologue graph rels model version arrival, ∀ name ≠ model,
        row.ownerModel = some name →
          (ownerHops graph rels version).Nearest model row.depth name ∧
          (row.kindRank = 0 ↔ ∃ edge, (ownerHops graph rels version).Arrives model row.depth edge ∧
            edge.target.name = name ∧ edge.kind = .INHERITS)) ∧
      (ancestorOwnerNames graph model version arrival).Nodup ∧
      ∀ name, name ∈ ancestorOwnerNames graph model version arrival ↔
        name = model ∨ ∃ depth ≤ 3, (ownerHops graph fieldRels version).Reaches model depth name := by
  refine ⟨kept_nodup, fun name => kept_name_iff, ?_, ?_, ancestorOwnerNames_nodup,
    fun name => mem_ancestorOwnerNames⟩
  · intro row kept owns
    rw [kept_own kept owns]
    exact ⟨rfl, rfl⟩
  · intro row kept name other owns
    exact ⟨kept_distance kept owns other, kept_kind kept owns other⟩

def childNode : ModelNode := ⟨1, "sale.order", "17.0", none⟩
def mixinNode : ModelNode := ⟨2, "mail.thread", "17.0", none⟩
def mixinPlaceholder : ModelNode := ⟨3, "mail.thread", "17.0", some true⟩
def farNode : ModelNode := ⟨4, "bus.listener", "17.0", none⟩

/-- `bus.listener` hangs on the unresolved node of `mail.thread` only. -/
def placeholderGraph : ModelGraph where
  models := [childNode, mixinNode, mixinPlaceholder, farNode]
  edges := [⟨childNode, mixinNode, .INHERITS, none⟩, ⟨mixinPlaceholder, farNode, .INHERITS, none⟩]
  closed := by decide

/-- Only `mail.thread` can be reached when every hop leaves a resolved node. -/
theorem resolved_target {depth : Nat} {edge : ModelEdge}
    (walked : (resolvedHops placeholderGraph fieldRels "17.0").Arrives "sale.order" depth edge) :
    edge.target = mixinNode := by
  have leaves : ∀ edge, Passable placeholderGraph fieldRels "17.0" edge →
      edge.source.isUnresolved = false → edge.target = mixinNode := by
    rintro edge ⟨isEdge, -, -⟩ resolved
    simp only [placeholderGraph, List.mem_cons, List.not_mem_nil, or_false] at isEdge
    obtain rfl | rfl := isEdge
    · rfl
    · exact absurd resolved (by decide)
  cases walked with
  | first allowed _ | later _ allowed _ => exact leaves edge allowed.1 allowed.2

theorem mixin_first : (ownerHops placeholderGraph fieldRels "17.0").Arrives "sale.order" 1
    ⟨childNode, mixinNode, .INHERITS, none⟩ :=
  Hops.Arrives.first ⟨⟨by decide, rfl, by decide⟩, rfl⟩ rfl

theorem placeholder_followed (arrival : Arrival OwnerRow) :
    some "bus.listener" ∈ (ancestorTaggedPrologue placeholderGraph fieldRels "sale.order" "17.0"
      arrival).map (·.ownerModel) := by
  refine kept_name_iff.mpr (Or.inr ⟨2, by omega, ⟨mixinPlaceholder, farNode, .INHERITS, none⟩,
    Hops.Arrives.later mixin_first ⟨by decide, rfl, by decide⟩ rfl, rfl⟩)

theorem tags_beyond_resolved :
    ¬ ∀ (graph : ModelGraph) (rels : List EdgeKind) (model version : String)
      (arrival : Arrival OwnerRow) (name : String),
      some name ∈ (ancestorTaggedPrologue graph rels model version arrival).map (·.ownerModel) ↔
        name = model ∨ ∃ depth ≤ 3, (resolvedHops graph rels version).Reaches model depth name := by
  intro exact
  have reached := (exact placeholderGraph fieldRels "sale.order" "17.0" Arrival.asGiven
    "bus.listener").mp (placeholder_followed Arrival.asGiven)
  obtain same | ⟨depth, -, edge, walked, ends⟩ := reached
  · exact absurd same (by decide)
  · have named : edge.target.name = "bus.listener" := ends
    rw [resolved_target walked] at named
    exact absurd named (by decide)

end OdooSemantic.Mcp.FieldOwners
