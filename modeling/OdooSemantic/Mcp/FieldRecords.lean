import Mathlib.Data.List.Infix
import OdooSemantic.Mcp.Boundary
import OdooSemantic.Mcp.FieldOwners

/-!
# The record of an inherited field

The field list, the field detail and the lookup behind the validators each pick one record of a
field from the model and its ancestors, with an order of their own.
-/

set_option autoImplicit false

namespace OdooSemantic.Mcp.FieldRecords

open Lib.NameWalks Lib.Picks Lib.Py
open Mcp.Boundary (Scope scopePred)
open Mcp.FieldOwners

structure FieldNode where
  name : String
  model : String
  module : String
  odooVersion : String
  profile : Option (List String)
  ttype : Option String
  comodelName : Option String
  stored : Option Bool
  compute : Option String
  related : Option String
  required : Option Bool
  effectiveReadonly : Option Bool
  string : Option String
  help : Option String
  deriving DecidableEq

structure ModuleNode where
  name : String
  odooVersion : String
  edition : Option String
  repoUrl : Option String
  repo : Option String
  deriving DecidableEq

structure Store where
  graph : ModelGraph
  fields : List FieldNode
  modules : List ModuleNode

/-- `_edition_rank_cypher`: `EDITION_PRIORITY`, else `EDITION_PRIORITY_ELSE`. -/
def editionRank (mod : Option ModuleNode) : Nat :=
  match mod.bind (·.edition) with
  | some "community" => 0
  | some "enterprise" => 1
  | some "viindoo" => 2
  | some "oca" => 3
  | _ => 4

/-- `MAGIC_FIELDS`: type and comodel. -/
def magicFields : List (String × String × Option String) :=
  [("id", "integer", none), ("display_name", "char", none),
    ("create_uid", "many2one", some "res.users"), ("create_date", "datetime", none),
    ("write_uid", "many2one", some "res.users"), ("write_date", "datetime", none)]

structure FieldRow where
  owner : OwnerRow
  field : FieldNode
  mod : Option ModuleNode

/-- `$module`, `$kind` and `$name_filter`. -/
structure Filters where
  module : Option String
  kind : Option String
  nameFilter : Option String

def Filters.all : Filters := ⟨none, none, none⟩

/-- The filters on a name, a module and a type; `lower` is `toLower`. -/
def Filters.keeps (filters : Filters) (lower : String → String) (name module : String)
    (ttype : Option String) : Bool :=
  filters.module.all (module == ·) && filters.kind.all (ttype == some ·) &&
    filters.nameFilter.all fun part =>
      decide ((lower part).toList <:+: (lower name).toList)

/-- A tenant's view of the store at one version. -/
structure Query where
  store : Store
  scope : Scope
  model : String
  version : String

namespace Query
variable (query : Query)

def owners (arrival : Arrival OwnerRow) : List OwnerRow :=
  ancestorTaggedPrologue query.store.graph fieldRels query.model query.version arrival

def inView (field : FieldNode) : Bool :=
  field.odooVersion == query.version && scopePred query.scope field.profile

/-- `OPTIONAL MATCH (mod:Module {name: f.module, odoo_version: $v})`. -/
def modulesOf (field : FieldNode) : List (Option ModuleNode) :=
  optionalMatch (query.store.modules.filter fun mod =>
    mod.name == field.module && mod.odooVersion == query.version)

/-- `MATCH (f:Field {model: owner_model, odoo_version: $v})` with its scope and filters, joined
with the modules. -/
def fieldRows (keep : FieldNode → Bool) (owners : List OwnerRow) : List FieldRow :=
  owners.flatMap fun owner =>
    (query.store.fields.filter fun field =>
      owner.ownerModel == some field.model && query.inView field && keep field &&
        field.module != "__unresolved__").flatMap fun field =>
      (query.modulesOf field).map fun mod => ⟨owner, field, mod⟩

end Query

structure FieldRecord where
  name : String
  ttype : Option String
  module : String
  repo : Option String
  stored : Option Bool
  compute : Option String
  comodelName : Option String
  related : Option String
  required : Option Bool
  effectiveReadonly : Option Bool
  ownerModel : Option String
  inheritDepth : Nat
  edgeKind : String
  viaField : Option String
  deriving DecidableEq

def edgeKindExpr (kindRank : Nat) : String :=
  if kindRank = 1 then "delegates" else "inherits"

/-- `coalesce(mod.repo_url, mod.repo)`. -/
def repoOf (mod : Option ModuleNode) : Option String :=
  (mod.bind (·.repoUrl)).or (mod.bind (·.repo))

def FieldRow.record (row : FieldRow) : FieldRecord where
  name := row.field.name
  ttype := row.field.ttype
  module := row.field.module
  repo := repoOf row.mod
  stored := row.field.stored
  compute := row.field.compute
  comodelName := row.field.comodelName
  related := row.field.related
  required := row.field.required
  effectiveReadonly := row.field.effectiveReadonly
  ownerModel := row.owner.ownerModel
  inheritDepth := row.owner.depth
  edgeKind := edgeKindExpr row.owner.kindRank
  viaField := row.owner.viaField

/-- `ORDER BY fname ASC, depth ASC, edition_rank ASC, f.module ASC`. -/
def listKey (row : FieldRow) : String ×ₗ Nat ×ₗ Nat ×ₗ String :=
  toLex (row.field.name, toLex (row.owner.depth, toLex (editionRank row.mod, row.field.module)))

namespace Query
variable (query : Query) (lower : String → String) (filters : Filters)

def keeps (field : FieldNode) : Bool :=
  filters.keeps lower field.name field.module field.ttype

/-- The deduplicated records before `SKIP` and `LIMIT`. -/
def keptFields (owners : Arrival OwnerRow) (rows : Arrival FieldRow) : List FieldRecord :=
  sortedBy FieldRecord.name
    ((heads (fun row : FieldRow => row.field.name)
      (ordered listKey rows (query.fieldRows (keeps lower filters) (query.owners owners)))).map
        FieldRow.record)

def listFieldsWithInherited (skip limit : Nat) (owners : Arrival OwnerRow)
    (rows : Arrival FieldRow) : List FieldRecord :=
  ((query.keptFields lower filters owners rows).drop skip).take limit

/-- `_count_fields_with_inherited`: `count(DISTINCT f.name)`, with no module joined. -/
def countFieldsWithInherited (owners : Arrival OwnerRow) : Nat :=
  (((query.owners owners).flatMap fun owner =>
    (query.store.fields.filter fun field =>
      owner.ownerModel == some field.model && query.inView field && keeps lower filters field &&
        field.module != "__unresolved__").map (·.name)).dedup).length

end Query

structure DetailRecord extends FieldRecord where
  string : Option String
  help : Option String

def FieldRow.detail (row : FieldRow) : DetailRecord :=
  { row.record with string := row.field.string, help := row.field.help }

/-- `ORDER BY depth ASC, kind_rank ASC, edition_rank ASC, f.module ASC`. -/
def detailKey (row : FieldRow) : Nat ×ₗ Nat ×ₗ Nat ×ₗ String :=
  toLex (row.owner.depth,
    toLex (row.owner.kindRank, toLex (editionRank row.mod, row.field.module)))

namespace Query
variable (query : Query) (field : String)

def resolveFieldInherited (owners : Arrival OwnerRow) (rows : Arrival FieldRow) :
    Option DetailRecord :=
  ((ordered detailKey rows
    (query.fieldRows (fun node => node.name == field) (query.owners owners))).head?).map
      FieldRow.detail

end Query

inductive FieldSource where
  | direct
  | magic
  | inherited

structure ThinRecord where
  ttype : Option String
  comodel : Option String
  source : FieldSource

/-- A row of the lookup's last step. -/
structure AncestorField where
  ancestor : String
  depth : Nat
  field : FieldNode

/-- `ORDER BY depth ASC, pn ASC, f.module ASC`. -/
def lookupKey (row : AncestorField) : Nat ×ₗ String ×ₗ String :=
  toLex (row.depth, toLex (row.ancestor, row.field.module))

namespace Query
variable (query : Query) (field : String)

/-- The names of `collect(DISTINCT h.name)`, which leaves null out. -/
def firstNames : List String :=
  ((startNodes query.store.graph query.model query.version).flatMap fun start =>
    (query.store.graph.edges.filter fun edge =>
      decide (edge.source = start) && follows fieldRels query.version query.model edge).map
        (·.target.name)).dedup

/-- `UNWIND (CASE WHEN size(hop) = 0 THEN [null] ELSE hop END)`. -/
def unwoundNames (hop : List String) : List (Option String) :=
  if hop.isEmpty then [none] else hop.map some

def nextNames (hop : List String) : List String :=
  ((unwoundNames hop).flatMap fun entry =>
    (edgesFrom query.store.graph fieldRels query.version entry).map (·.target.name)).dedup

/-- `UNWIND tagged AS t`: the names with their depths. -/
def taggedNames : List (String × Nat) :=
  let hop1 := query.firstNames
  let hop2 := query.nextNames hop1
  let hop3 := query.nextNames hop2
  hop1.map (·, 1) ++ hop2.map (·, 2) ++ hop3.map (·, 3)

/-- `WITH t.name AS pn, min(t.depth) AS depth WHERE pn <> $mn`. -/
def ancestors : List (String × Nat) :=
  (heads Prod.fst (sortedBy Prod.snd query.taggedNames)).filter fun entry =>
    entry.1 != query.model

def ancestorFields : List AncestorField :=
  query.ancestors.flatMap fun entry =>
    (query.store.fields.filter fun node =>
      node.name == field && node.model == entry.1 && query.inView node).map fun node =>
        ⟨entry.1, entry.2, node⟩

/-- The row that the last step of `_lookup_field` returns. -/
def inheritedRow (rows : Arrival AncestorField) : Option AncestorField :=
  (ordered lookupKey rows (query.ancestorFields field)).head?

/-- The row that the first step of `_lookup_field` returns. -/
def directRow (rows : Arrival FieldNode) : Option FieldNode :=
  (ordered (fun node : FieldNode => node.module) rows (query.store.fields.filter fun node =>
    node.name == field && node.model == query.model && query.inView node)).head?

def lookupField (direct : Arrival FieldNode) (rows : Arrival AncestorField) : Option ThinRecord :=
  match query.directRow field direct with
  | some node => some ⟨node.ttype, node.comodelName, .direct⟩
  | none =>
      match magicFields.lookup field with
      | some (ttype, comodel) => some ⟨some ttype, comodel, .magic⟩
      | none => (query.inheritedRow field rows).map fun row =>
          ⟨row.field.ttype, row.field.comodelName, .inherited⟩

end Query

structure Twin (row other : FieldRow) : Prop where
  field : other.field = row.field
  mod : other.mod = row.mod
  place : other.owner.place = row.owner.place

namespace Query
variable {query : Query} {keep : FieldNode → Bool} {row other : FieldRow}

structure Declares (query : Query) (keep : FieldNode → Bool) (row : FieldRow) : Prop where
  stored : row.field ∈ query.store.fields
  owned : row.owner.ownerModel = some row.field.model
  visible : query.inView row.field = true
  kept : keep row.field = true
  resolved : row.field.module ≠ "__unresolved__"
  joined : row.mod ∈ query.modulesOf row.field

structure Candidate (query : Query) (keep : FieldNode → Bool) (row : FieldRow) : Prop where
  owner : OwnerOf query.store.graph fieldRels query.model query.version row.owner
  declares : Declares query keep row

theorem mem_fieldRows {owners : List OwnerRow} :
    row ∈ query.fieldRows keep owners ↔ row.owner ∈ owners ∧ Declares query keep row := by
  simp only [fieldRows, List.mem_flatMap, List.mem_filter, List.mem_map, Bool.and_eq_true,
    beq_iff_eq, bne_iff_ne]
  constructor
  · rintro ⟨owner, isOwner, field, ⟨isField, ⟨⟨owned, visible⟩, kept⟩, resolved⟩, mod, joined, rfl⟩
    exact ⟨isOwner, isField, owned, visible, kept, resolved, joined⟩
  · rintro ⟨isOwner, declares⟩
    exact ⟨row.owner, isOwner, row.field, ⟨declares.stored, ⟨⟨declares.owned, declares.visible⟩,
      declares.kept⟩, declares.resolved⟩, row.mod, declares.joined, rfl⟩

theorem candidate_of_mem {owners : Arrival OwnerRow}
    (isRow : row ∈ query.fieldRows keep (query.owners owners)) : Candidate query keep row := by
  obtain ⟨isOwner, declares⟩ := mem_fieldRows.mp isRow
  exact ⟨ownerOf_of_kept isOwner declares.owned, declares⟩

theorem Candidate.met (candidate : Candidate query keep row) :
    ∃ owners, row ∈ query.fieldRows keep (query.owners owners) := by
  obtain ⟨owners, isOwner⟩ := kept_of_ownerOf candidate.owner
  exact ⟨owners, mem_fieldRows.mpr ⟨isOwner, candidate.declares⟩⟩

theorem met_again {owners : Arrival OwnerRow}
    (isRow : row ∈ query.fieldRows keep (query.owners owners)) (another : Arrival OwnerRow) :
    ∃ again ∈ query.fieldRows keep (query.owners another), Twin row again := by
  obtain ⟨isOwner, declares⟩ := mem_fieldRows.mp isRow
  obtain ⟨owner, isOwnerAgain, place⟩ := kept_again isOwner another
  have owned : owner.ownerModel = some row.field.model :=
    (congrArg Prod.fst place).trans declares.owned
  exact ⟨⟨owner, row.field, row.mod⟩, mem_fieldRows.mpr ⟨isOwnerAgain, { declares with owned := owned }⟩,
    rfl, rfl, place⟩

theorem listKey_twin (twin : Twin row other) : listKey other = listKey row := by
  have depth : other.owner.depth = row.owner.depth := congrArg (·.2.1) twin.place
  rw [listKey, listKey, twin.field, twin.mod, depth]

theorem detailKey_twin (twin : Twin row other) : detailKey other = detailKey row := by
  have depth : other.owner.depth = row.owner.depth := congrArg (·.2.1) twin.place
  have rank : other.owner.kindRank = row.owner.kindRank := congrArg (·.2.2) twin.place
  rw [detailKey, detailKey, twin.field, twin.mod, depth, rank]

def firstRow (query : Query) (keep : FieldNode → Bool) (name : String) (owners : Arrival OwnerRow)
    (rows : Arrival FieldRow) : Option FieldRow :=
  (ordered listKey rows (query.fieldRows keep (query.owners owners))).find? fun row =>
    row.field.name = name

variable {lower : String → String} {filters : Filters} {owners : Arrival OwnerRow}
variable {rows : Arrival FieldRow} {record : FieldRecord} {name : String}

theorem firstRow_name (found : firstRow query keep name owners rows = some row) :
    row.field.name = name := by
  have passed := List.find?_some found
  rw [decide_eq_true_eq] at passed
  exact passed

theorem mem_keptFields :
    record ∈ keptFields query lower filters owners rows ↔
      (firstRow query (keeps lower filters) record.name owners rows).map FieldRow.record =
        some record := by
  rw [keptFields, mem_sortedBy, List.mem_map, Option.map_eq_some_iff]
  constructor
  · rintro ⟨row, isHead, rfl⟩
    exact ⟨row, (mem_heads _ row).mp isHead, rfl⟩
  · rintro ⟨row, found, rfl⟩
    exact ⟨row, (mem_heads _ row).mpr found, rfl⟩

theorem keptFields_names :
    ((keptFields query lower filters owners rows).map FieldRecord.name).Perm
      ((heads (fun row : FieldRow => row.field.name)
        (ordered listKey rows (query.fieldRows (keeps lower filters) (query.owners owners)))).map
          fun row => row.field.name) := by
  refine ((sortedBy_perm FieldRecord.name _).map FieldRecord.name).trans (List.Perm.of_eq ?_)
  rw [List.map_map]
  rfl

theorem keptFields_nodup :
    ((keptFields query lower filters owners rows).map FieldRecord.name).Nodup :=
  keptFields_names.nodup_iff.mpr (heads_nodup _)

theorem keptFields_sorted :
    (keptFields query lower filters owners rows).Pairwise fun one another => one.name ≤ another.name :=
  sortedBy_pairwise FieldRecord.name _

theorem find_keptFields :
    (keptFields query lower filters owners rows).find? (fun record => record.name = name) =
      (firstRow query (keeps lower filters) name owners rows).map FieldRow.record := by
  cases found : (keptFields query lower filters owners rows).find? fun record => record.name = name with
  | some record =>
      have named := List.find?_some found
      rw [decide_eq_true_eq] at named
      have kept := mem_keptFields.mp (List.mem_of_find?_eq_some found)
      rw [named] at kept
      exact kept.symm
  | none =>
      cases first : firstRow query (keeps lower filters) name owners rows with
      | none => rfl
      | some row =>
          have named : row.record.name = name := firstRow_name first
          have kept : row.record ∈ keptFields query lower filters owners rows := by
            rw [mem_keptFields, named, first]
            rfl
          have missing := List.find?_eq_none.mp found row.record kept
          rw [decide_eq_true_eq] at missing
          exact absurd named missing

end Query

end OdooSemantic.Mcp.FieldRecords
