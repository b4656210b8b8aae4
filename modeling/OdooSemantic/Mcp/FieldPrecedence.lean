import OdooSemantic.Mcp.FieldRecords

/-!
# One record, three precedences

The list, the detail and the lookup order the records of an inherited field differently.  They
show the same record exactly when one record comes first in all three orders.
-/

set_option autoImplicit false

namespace OdooSemantic.Mcp.FieldPrecedence

open Lib.NameWalks Lib.Picks Lib.Py
open Mcp.Boundary (Scope)
open Mcp.FieldOwners Mcp.FieldRecords Mcp.FieldRecords.Query

section Ancestors
variable {query : Query} {name : String} {depth : Nat} {hop : List String}

def NamesOf (query : Query) (depth : Nat) (hop : List String) : Prop :=
  ∀ name, name ∈ hop ↔
    (ownerHops query.store.graph fieldRels query.version).Reaches query.model depth name

theorem firstNames_reached : NamesOf query 1 query.firstNames := by
  intro name
  simp only [firstNames, List.mem_dedup, List.mem_flatMap, List.mem_map, List.mem_filter,
    Bool.and_eq_true, decide_eq_true_eq, mem_startNodes, Hops.Reaches, Hops.arrives_one]
  constructor
  · rintro ⟨start, ⟨-, leaves, dated, resolved⟩, edge, ⟨isEdge, rfl, followed⟩, ends⟩
    rw [← leaves] at followed
    exact ⟨edge, ⟨⟨⟨isEdge, dated, followed⟩, resolved⟩, leaves⟩, ends⟩
  · rintro ⟨edge, ⟨⟨⟨isEdge, dated, followed⟩, resolved⟩, leaves⟩, ends⟩
    refine ⟨edge.source, ⟨(query.store.graph.closed edge isEdge).1, leaves, dated, resolved⟩, edge,
      ⟨isEdge, rfl, ?_⟩, ends⟩
    rw [← leaves]
    exact followed

theorem nextNames_reached (positive : 0 < depth) (names : NamesOf query depth hop) :
    NamesOf query (depth + 1) (query.nextNames hop) := by
  intro name
  simp only [nextNames, List.mem_dedup, List.mem_flatMap, List.mem_map, mem_edgesFrom,
    Hops.Reaches, Hops.arrives_succ positive]
  constructor
  · rintro ⟨entry, listed, edge, ⟨passable, rfl⟩, ends⟩
    exact ⟨edge, ⟨passable, (names _).mp (some_mem_optionalMatch.mp listed)⟩, ends⟩
  · rintro ⟨edge, ⟨passable, reached⟩, ends⟩
    exact ⟨some edge.source.name, some_mem_optionalMatch.mpr ((names _).mpr reached), edge,
      ⟨passable, rfl⟩, ends⟩

theorem mem_taggedNames : (name, depth) ∈ query.taggedNames ↔ depth ≤ 3 ∧
    (ownerHops query.store.graph fieldRels query.version).Reaches query.model depth name := by
  have one : NamesOf query 1 query.firstNames := firstNames_reached
  have two := nextNames_reached Nat.one_pos one
  have three := nextNames_reached Nat.two_pos two
  simp only [taggedNames, List.mem_append, List.mem_map, Prod.mk.injEq]
  constructor
  · rintro ((⟨_, listed, rfl, rfl⟩ | ⟨_, listed, rfl, rfl⟩) | ⟨_, listed, rfl, rfl⟩)
    · exact ⟨by omega, (one _).mp listed⟩
    · exact ⟨by omega, (two _).mp listed⟩
    · exact ⟨by omega, (three _).mp listed⟩
  · rintro ⟨near, reached⟩
    have positive := reached.choose_spec.1.pos
    obtain rfl | rfl | rfl : depth = 1 ∨ depth = 2 ∨ depth = 3 := by omega
    · exact Or.inl (Or.inl ⟨name, (one name).mpr reached, rfl, rfl⟩)
    · exact Or.inl (Or.inr ⟨name, (two name).mpr reached, rfl, rfl⟩)
    · exact Or.inr ⟨name, (three name).mpr reached, rfl, rfl⟩

theorem mem_ancestors : (name, depth) ∈ query.ancestors ↔ name ≠ query.model ∧ depth ≤ 3 ∧
    (ownerHops query.store.graph fieldRels query.version).Nearest query.model depth name := by
  rw [ancestors, List.mem_filter, bne_iff_ne, and_comm]
  refine and_congr_right fun _ => ?_
  rw [mem_heads]
  constructor
  · intro found
    obtain ⟨listed, -, least⟩ := find_least (sortedBy_pairwise Prod.snd _) found
    obtain ⟨near, reached⟩ := mem_taggedNames.mp ((mem_sortedBy _ _ _).mp listed)
    refine ⟨near, reached, fun other reachedOther => ?_⟩
    by_cases far : other ≤ 3
    · exact least (name, other) ((mem_sortedBy _ _ _).mpr (mem_taggedNames.mpr ⟨far, reachedOther⟩))
        (by rw [decide_eq_true_eq])
    · omega
  · rintro ⟨near, nearest⟩
    have listed : (name, depth) ∈ sortedBy Prod.snd query.taggedNames :=
      (mem_sortedBy _ _ _).mpr (mem_taggedNames.mpr ⟨near, nearest.reached⟩)
    have grouped : name ∈ (heads Prod.fst (sortedBy Prod.snd query.taggedNames)).map Prod.fst :=
      (group_mem_heads _ _).mpr (List.mem_map.mpr ⟨_, listed, rfl⟩)
    obtain ⟨⟨same, other⟩, isHead, rfl⟩ := List.mem_map.mp grouped
    have found := (mem_heads _ _).mp isHead
    obtain ⟨isOther, -, least⟩ := find_least (sortedBy_pairwise Prod.snd _) found
    have above := least _ listed (by rw [decide_eq_true_eq])
    have below := nearest.shortest other (mem_taggedNames.mp ((mem_sortedBy _ _ _).mp isOther)).2
    have exact : other = depth := Nat.le_antisymm above below
    rw [exact] at found
    exact found

end Ancestors

structure Shown where
  ownerModel : Option String
  module : String
  ttype : Option String
  comodel : Option String

def ofRow (row : FieldRow) : Shown :=
  ⟨row.owner.ownerModel, row.field.module, row.field.ttype, row.field.comodelName⟩

def ofRecord (record : FieldRecord) : Shown :=
  ⟨record.ownerModel, record.module, record.ttype, record.comodelName⟩

def ofAncestor (row : AncestorField) : Shown :=
  ⟨some row.ancestor, row.field.module, row.field.ttype, row.field.comodelName⟩

section Shown
variable (query : Query) (lower : String → String) (field : String)

def listShown (owners : Arrival OwnerRow) (rows : Arrival FieldRow) : Option Shown :=
  ((keptFields query lower Filters.all owners rows).find? fun record => record.name = field).map
    ofRecord

def detailShown (owners : Arrival OwnerRow) (rows : Arrival FieldRow) : Option Shown :=
  (resolveFieldInherited query field owners rows).map fun record => ofRecord record.toFieldRecord

def lookupShown (rows : Arrival AncestorField) : Option Shown :=
  (inheritedRow query field rows).map ofAncestor

/-- Under every arrival the three show one record, and the validators use it. -/
structure Agree : Prop where
  listDetail : ∀ owners owners' rows rows',
    listShown query lower field owners rows = detailShown query field owners' rows'
  detailLookup : ∀ owners rows rows',
    detailShown query field owners rows = lookupShown query field rows'
  used : ∀ direct rows, lookupField query field direct rows =
    (lookupShown query field rows).map fun shown => ⟨shown.ttype, shown.comodel, .inherited⟩

/-- A record of the field on an ancestor, also one of the placeholder module. -/
structure OnAncestor (row : AncestorField) : Prop where
  ancestor : row.ancestor ≠ query.model
  near : row.depth ≤ 3
  nearest : (ownerHops query.store.graph fieldRels query.version).Nearest query.model row.depth
    row.ancestor
  stored : row.field ∈ query.store.fields
  named : row.field.name = field
  owned : row.field.model = row.ancestor
  visible : inView query row.field = true

/-- One record comes strictly before all others in the orders of the list, the detail and the
lookup. -/
def Uncontested : Prop :=
  ∃ row, Candidate query (fun node => node.name == field) row ∧
    (∀ other, Candidate query (fun node => node.name == field) other → ofRow other ≠ ofRow row →
      listKey row < listKey other ∧ detailKey row < detailKey other) ∧
    ∀ other, OnAncestor query field other → ofAncestor other ≠ ofRow row →
      lookupKey ⟨row.field.model, row.owner.depth, row.field⟩ < lookupKey other

end Shown

section Agreement
variable {query : Query} {lower : String → String} {field : String} {row other : FieldRow}
variable {owners another : Arrival OwnerRow} {rows : Arrival FieldRow}

theorem mem_ancestorFields {row : AncestorField} :
    row ∈ query.ancestorFields field ↔ OnAncestor query field row := by
  simp only [ancestorFields, List.mem_flatMap, List.mem_map, List.mem_filter, Bool.and_eq_true,
    beq_iff_eq]
  constructor
  · rintro ⟨⟨name, depth⟩, isAncestor, node, ⟨stored, ⟨named, owned⟩, visible⟩, rfl⟩
    obtain ⟨apart, near, nearest⟩ := mem_ancestors.mp isAncestor
    exact ⟨apart, near, nearest, stored, named, owned, visible⟩
  · intro on
    exact ⟨(row.ancestor, row.depth), mem_ancestors.mpr ⟨on.ancestor, on.near, on.nearest⟩, row.field,
      ⟨on.stored, ⟨on.named, on.owned⟩, on.visible⟩, rfl⟩

theorem head_eq_find {Row : Type} (listed : List Row) :
    listed.head? = listed.find? fun _ => true := by
  cases listed with
  | nil | cons first rest => rfl

theorem named_mem_rows :
    (row ∈ fieldRows query (keeps lower Filters.all) (query.owners owners) ∧
      row.field.name = field) ↔
      row ∈ fieldRows query (fun node => node.name == field) (query.owners owners) := by
  rw [mem_fieldRows, mem_fieldRows]
  constructor
  · rintro ⟨⟨isOwner, declares⟩, named⟩
    exact ⟨isOwner, { declares with kept := beq_iff_eq.mpr named }⟩
  · rintro ⟨isOwner, declares⟩
    exact ⟨⟨isOwner, { declares with kept := rfl }⟩, beq_iff_eq.mp declares.kept⟩

theorem listShown_eq :
    listShown query lower field owners rows =
      (firstRow query (keeps lower Filters.all) field owners rows).map ofRow := by
  rw [listShown, find_keptFields, Option.map_map]
  rfl

theorem detailShown_eq :
    detailShown query field owners rows =
      ((ordered detailKey rows (fieldRows query (fun node => node.name == field)
        (query.owners owners))).find? fun _ => true).map ofRow := by
  rw [detailShown, resolveFieldInherited, head_eq_find, Option.map_map]
  rfl

theorem lookupShown_eq {rows : Arrival AncestorField} :
    lookupShown query field rows =
      ((ordered lookupKey rows (query.ancestorFields field)).find? fun _ => true).map ofAncestor := by
  rw [lookupShown, inheritedRow, head_eq_find]

theorem ofRow_twin (twin : Twin row other) : ofRow other = ofRow row := by
  have owner : other.owner.ownerModel = row.owner.ownerModel := congrArg Prod.fst twin.place
  rw [ofRow, ofRow, twin.field, owner]

def seen (row : FieldRow) : AncestorField := ⟨row.field.model, row.owner.depth, row.field⟩

theorem ofAncestor_seen (declares : Declares query (fun node => node.name == field) row) :
    ofAncestor (seen row) = ofRow row := by
  rw [ofAncestor, ofRow, declares.owned]
  rfl

def NotOwn (query : Query) (field : String) : Prop :=
  ∀ node ∈ query.store.fields, node.name = field → node.model = query.model →
    inView query node = false

theorem onAncestor_of_candidate (notOwn : NotOwn query field)
    (candidate : Candidate query (fun node => node.name == field) row) :
    OnAncestor query field (seen row) := by
  obtain ⟨owner, declares⟩ := candidate
  have named : row.field.name = field := beq_iff_eq.mp declares.kept
  have apart : row.field.model ≠ query.model := by
    intro own
    have hidden := notOwn row.field declares.stored named own
    rw [declares.visible] at hidden
    cases hidden
  obtain ⟨near, nearest⟩ := owner.nearest declares.owned apart
  exact ⟨apart, near, nearest, declares.stored, named, rfl, declares.visible⟩

theorem lookupField_inherited (notMagic : magicFields.lookup field = none)
    (notOwn : NotOwn query field) (direct : Arrival FieldNode) (found : Arrival AncestorField) :
    lookupField query field direct found =
      (lookupShown query field found).map fun shown => ⟨shown.ttype, shown.comodel, .inherited⟩ := by
  have empty : directRow query field direct = none := by
    rw [directRow, head_eq_find, find_none_iff]
    intro node listed
    rw [List.mem_filter, Bool.and_eq_true, Bool.and_eq_true, beq_iff_eq, beq_iff_eq] at listed
    obtain ⟨stored, ⟨named, own⟩, visible⟩ := listed
    rw [notOwn node stored named own] at visible
    cases visible
  rw [lookupField, empty, notMagic, lookupShown, Option.map_map]
  rfl

theorem uncontested_leads (lower : String → String) (candidate : Candidate query (fun node => node.name == field) row)
    (first : ∀ other, Candidate query (fun node => node.name == field) other →
      ofRow other ≠ ofRow row → listKey row < listKey other ∧ detailKey row < detailKey other)
    (owners : Arrival OwnerRow) :
    Leads listKey ofRow (fun other => decide (other.field.name = field))
        (fieldRows query (keeps lower Filters.all) (query.owners owners)) (ofRow row) ∧
      Leads detailKey ofRow (fun _ => true)
        (fieldRows query (fun node => node.name == field) (query.owners owners)) (ofRow row) := by
  obtain ⟨another, isRow⟩ := candidate.met
  obtain ⟨again, isAgain, twin⟩ := met_again isRow owners
  obtain ⟨listed, named⟩ := named_mem_rows.mpr isAgain
  constructor
  · refine ⟨again, listed, by rw [decide_eq_true_eq, named], ofRow_twin twin, ?_⟩
    intro other isOther passed differs
    rw [decide_eq_true_eq] at passed
    rw [listKey_twin twin]
    exact (first other (candidate_of_mem (named_mem_rows.mp ⟨isOther, passed⟩)) differs).1
  · refine ⟨again, isAgain, rfl, ofRow_twin twin, ?_⟩
    intro other isOther _ differs
    rw [detailKey_twin twin]
    exact (first other (candidate_of_mem isOther) differs).2

theorem agree_of_uncontested (notMagic : magicFields.lookup field = none)
    (notOwn : NotOwn query field) (uncontested : Uncontested query field) :
    Agree query lower field := by
  obtain ⟨row, candidate, first, firstLookup⟩ := uncontested
  have list : ∀ owners rows, listShown query lower field owners rows = some (ofRow row) := by
    intro owners rows
    rw [listShown_eq]
    exact (uncontested_leads lower candidate first owners).1.find rows
  have detail : ∀ owners rows, detailShown query field owners rows = some (ofRow row) := by
    intro owners rows
    rw [detailShown_eq]
    exact (uncontested_leads lower candidate first owners).2.find rows
  have lookup : ∀ rows, lookupShown query field rows = some (ofRow row) := by
    intro rows
    rw [lookupShown_eq]
    refine Leads.find ⟨seen row, mem_ancestorFields.mpr (onAncestor_of_candidate notOwn candidate),
      rfl, ofAncestor_seen candidate.declares, fun other isOther _ differs => ?_⟩ rows
    exact firstLookup other (mem_ancestorFields.mp isOther) differs
  refine ⟨fun owners owners' rows rows' => ?_, fun owners rows rows' => ?_,
    lookupField_inherited notMagic notOwn⟩
  · rw [list, detail]
  · rw [detail, lookup]

theorem agree_of_none (notMagic : magicFields.lookup field = none) (notOwn : NotOwn query field)
    (none : ∀ row, ¬ OnAncestor query field row) : Agree query lower field := by
  have noRow : ∀ owners, ∀ row ∈ fieldRows query (fun node => node.name == field)
      (query.owners owners), False := fun owners row isRow =>
    none _ (onAncestor_of_candidate notOwn (candidate_of_mem isRow))
  have list : ∀ owners rows, listShown query lower field owners rows = Option.none := by
    intro owners rows
    rw [listShown_eq, Option.map_eq_none_iff, firstRow, find_none_iff]
    intro row isRow
    by_contra passed
    rw [Bool.not_eq_false, decide_eq_true_eq] at passed
    exact noRow owners row (named_mem_rows.mp ⟨isRow, passed⟩)
  have detail : ∀ owners rows, detailShown query field owners rows = Option.none := by
    intro owners rows
    rw [detailShown_eq, Option.map_eq_none_iff, find_none_iff]
    exact fun row isRow => (noRow owners row isRow).elim
  have lookup : ∀ rows, lookupShown query field rows = Option.none := by
    intro rows
    rw [lookupShown_eq, Option.map_eq_none_iff, find_none_iff]
    exact fun row isRow => (none row (mem_ancestorFields.mp isRow)).elim
  refine ⟨fun owners owners' rows rows' => ?_, fun owners rows rows' => ?_,
    lookupField_inherited notMagic notOwn⟩
  · rw [list, detail]
  · rw [detail, lookup]

theorem place_of_owner {one two : FieldRow}
    (isOne : one ∈ fieldRows query (keeps lower Filters.all) (query.owners owners))
    (isTwo : two ∈ fieldRows query (fun node => node.name == field) (query.owners owners))
    (same : one.owner.ownerModel = two.owner.ownerModel) : one.owner = two.owner :=
  List.inj_on_of_nodup_map kept_nodup (mem_fieldRows.mp isOne).1 (mem_fieldRows.mp isTwo).1 same

theorem detailKey_le {one two : FieldRow} (sameOwner : one.owner = two.owner)
    (sameName : one.field.name = two.field.name) (sameModule : one.field.module = two.field.module)
    (least : listKey one ≤ listKey two) : detailKey one ≤ detailKey two := by
  simp only [listKey, sameOwner, sameName, sameModule, Prod.Lex.le_iff, ofLex_toLex, lt_irrefl,
    false_or, true_and] at least
  simp only [detailKey, sameOwner, sameModule, Prod.Lex.le_iff, ofLex_toLex, lt_irrefl, false_or,
    true_and]
  exact least

theorem shown_of_agree (agree : Agree query lower field) {known : AncestorField}
    (on : OnAncestor query field known) :
    ∃ shown, (∀ owners rows, listShown query lower field owners rows = some shown) ∧
      (∀ owners rows, detailShown query field owners rows = some shown) ∧
      ∀ rows, lookupShown query field rows = some shown := by
  obtain ⟨first, found⟩ : ∃ first, (ordered lookupKey Arrival.asGiven
      (query.ancestorFields field)).find? (fun _ => true) = some first :=
    find_some_of lookupKey Arrival.asGiven (mem_ancestorFields.mpr on) rfl
  have given : lookupShown query field Arrival.asGiven = some (ofAncestor first) := by
    rw [lookupShown_eq, found]
    rfl
  have detail : ∀ owners rows, detailShown query field owners rows = some (ofAncestor first) :=
    fun owners rows => (agree.detailLookup owners rows Arrival.asGiven).trans given
  refine ⟨ofAncestor first, fun owners rows => ?_, detail, fun rows => ?_⟩
  · exact (agree.listDetail owners owners rows Arrival.asGiven).trans (detail owners Arrival.asGiven)
  · exact (agree.detailLookup Arrival.asGiven Arrival.asGiven rows).symm.trans
      (detail Arrival.asGiven Arrival.asGiven)

theorem uncontested_of_agree (notOwn : NotOwn query field) (agree : Agree query lower field)
    {known : AncestorField} (on : OnAncestor query field known) : Uncontested query field := by
  obtain ⟨shown, list, detail, lookup⟩ := shown_of_agree agree on
  simp only [listShown_eq] at list
  simp only [detailShown_eq] at detail
  simp only [lookupShown_eq] at lookup
  -- the row that the list keeps in one arrival is the record that leads everywhere
  obtain ⟨row, found, isShown⟩ :=
    Option.map_eq_some_iff.mp (list Arrival.asGiven Arrival.asGiven)
  obtain ⟨isRow, -, least⟩ := least_of_find found
  have named := firstRow_name found
  have candidate := candidate_of_mem (named_mem_rows.mp ⟨isRow, named⟩)
  refine ⟨row, candidate, fun other isOther differs => ⟨?_, ?_⟩, fun other onOther differs => ?_⟩
  · obtain ⟨owners, met⟩ := isOther.met
    obtain ⟨listed, otherNamed⟩ := named_mem_rows.mpr met
    obtain ⟨leading, isLeading, leadingNamed, -, before⟩ := leads_iff.mp (list owners)
    obtain ⟨again, isAgain, twin⟩ := met_again isLeading Arrival.asGiven
    rw [decide_eq_true_eq] at leadingNamed
    have bound := least again isAgain (by rw [decide_eq_true_eq, twin.field, leadingNamed])
    rw [listKey_twin twin] at bound
    refine lt_of_le_of_lt bound (before other listed (by rw [decide_eq_true_eq, otherNamed]) ?_)
    rw [← isShown]
    exact differs
  · obtain ⟨owners, met⟩ := isOther.met
    obtain ⟨leading, isLeading, -, leadingShown, before⟩ := leads_iff.mp (detail owners)
    obtain ⟨again, isAgain, twin⟩ := met_again isLeading Arrival.asGiven
    have sameView : ofRow row = ofRow again := by
      rw [isShown, ofRow_twin twin, leadingShown]
    obtain ⟨listed, againNamed⟩ := named_mem_rows.mpr isAgain
    have below : detailKey row ≤ detailKey again :=
      detailKey_le (place_of_owner isRow isAgain (congrArg Shown.ownerModel sameView))
        (named.trans againNamed.symm) (congrArg Shown.module sameView)
        (least again listed (by rw [decide_eq_true_eq, againNamed]))
    rw [detailKey_twin twin] at below
    refine lt_of_le_of_lt below (before other met rfl ?_)
    rw [← isShown]
    exact differs
  · obtain ⟨leading, isLeading, -, leadingShown, before⟩ := leads_iff.mp lookup
    have onLeading := mem_ancestorFields.mp isLeading
    have onRow := onAncestor_of_candidate notOwn candidate
    have sameView : ofAncestor leading = ofAncestor (seen row) := by
      rw [leadingShown, ofAncestor_seen candidate.declares, isShown]
    have sameName : leading.ancestor = row.field.model :=
      Option.some_inj.mp (congrArg Shown.ownerModel sameView)
    have sameModule : leading.field.module = row.field.module := congrArg Shown.module sameView
    have sameDepth : leading.depth = row.owner.depth := by
      have nearest := onLeading.nearest
      rw [sameName] at nearest
      exact nearest.unique onRow.nearest
    have sameKey : lookupKey ⟨row.field.model, row.owner.depth, row.field⟩ = lookupKey leading := by
      simp only [lookupKey, sameName, sameModule, sameDepth]
    rw [sameKey]
    refine before other (mem_ancestorFields.mpr onOther) rfl ?_
    rw [← isShown]
    exact differs

end Agreement

/-- The three show one record under every arrival exactly when no ancestor has the field, or one
record of it comes first in all three orders. -/
theorem agree_iff (query : Query) (lower : String → String) (field : String)
    (notMagic : magicFields.lookup field = none) (notOwn : NotOwn query field) :
    Agree query lower field ↔
      (∀ row, ¬ OnAncestor query field row) ∨ Uncontested query field := by
  constructor
  · intro agree
    by_cases known : ∃ row, OnAncestor query field row
    · obtain ⟨row, on⟩ := known
      exact Or.inr (uncontested_of_agree notOwn agree on)
    · exact Or.inl (not_exists.mp known)
  · rintro (none | uncontested)
    · exact agree_of_none notMagic notOwn none
    · exact agree_of_uncontested notMagic notOwn uncontested

def orderModel : ModelNode := ⟨1, "sale.order", "17.0", none⟩
def aliasModel : ModelNode := ⟨2, "mail.alias.mixin", "17.0", none⟩
def threadModel : ModelNode := ⟨3, "mail.thread", "17.0", none⟩

def noteOf (model module ttype : String) : FieldNode :=
  ⟨"note", model, module, "17.0", some ["acme"], some ttype, none, none, none, none, none, none,
    none, none⟩

/-- `sale.order` inherits from both mixins, which declare these fields. -/
def mixins (fields : List FieldNode) : Query where
  store :=
    { graph :=
        { models := [orderModel, aliasModel, threadModel]
          edges := [⟨orderModel, aliasModel, .INHERITS, none⟩,
            ⟨orderModel, threadModel, .INHERITS, none⟩]
          closed := by decide }
      fields := fields
      modules := [] }
  scope := ⟨none, []⟩
  model := "sale.order"
  version := "17.0"

def aliasNote : FieldNode := noteOf "mail.alias.mixin" "web_mail" "text"
def threadNote : FieldNode := noteOf "mail.thread" "mail" "html"

variable {fields : List FieldNode} {target : ModelNode}

theorem mixin_arrives
    (isMixin : target = aliasModel ∨ target = threadModel) :
    (ownerHops (mixins fields).store.graph fieldRels "17.0").Arrives "sale.order" 1
      ⟨orderModel, target, .INHERITS, none⟩ := by
  rcases isMixin with rfl | rfl
  · exact Hops.Arrives.first ⟨⟨by simp [mixins], rfl, by decide⟩, rfl⟩ rfl
  · exact Hops.Arrives.first ⟨⟨by simp [mixins], rfl, by decide⟩, rfl⟩ rfl

theorem mixin_owner
    (isMixin : target = aliasModel ∨ target = threadModel) :
    OwnerOf (mixins fields).store.graph fieldRels "sale.order" "17.0"
      (rowOf 1 ⟨orderModel, target, .INHERITS, none⟩) := by
  refine Or.inr ⟨?_, by simp only [rowOf]; omega, ⟨_, mixin_arrives isMixin, rfl⟩, ?_⟩
  · rcases isMixin with rfl | rfl <;> decide
  · intro depth edge walked ends
    have positive := walked.pos
    simp only [rowOf, kindRank]
    omega

def aliasRow : FieldRow := ⟨rowOf 1 ⟨orderModel, aliasModel, .INHERITS, none⟩, aliasNote, none⟩
def threadRow : FieldRow := ⟨rowOf 1 ⟨orderModel, threadModel, .INHERITS, none⟩, threadNote, none⟩

theorem threadRow_candidate (listed : threadNote ∈ fields) :
    Candidate (mixins fields) (fun node => node.name == "note") threadRow where
  owner := mixin_owner (Or.inr rfl)
  declares := ⟨listed, rfl, rfl, rfl, by decide, List.mem_singleton_self none⟩

theorem aliasRow_candidate (listed : aliasNote ∈ fields) :
    Candidate (mixins fields) (fun node => node.name == "note") aliasRow where
  owner := mixin_owner (Or.inl rfl)
  declares := ⟨listed, rfl, rfl, rfl, by decide, List.mem_singleton_self none⟩

theorem mixins_notOwn
    (listed : ∀ node ∈ fields, node = aliasNote ∨ node = threadNote) :
    NotOwn (mixins fields) "note" := by
  intro node isField _ own
  rcases listed node isField with rfl | rfl
  · exact absurd own (show aliasNote.model ≠ "sale.order" by decide)
  · exact absurd own (show threadNote.model ≠ "sale.order" by decide)

/-- A mixin's record is one hop away. -/
theorem mixin_depth {row : FieldRow}
    (candidate : Candidate (mixins fields) (fun node => node.name == "note") row)
    (isMixin : target = aliasModel ∨ target = threadModel)
    (owned : row.field.model = target.name) : row.owner.depth = 1 := by
  have apart : target.name ≠ "sale.order" := by
    rcases isMixin with rfl | rfl <;> decide
  have owner := candidate.declares.owned
  rw [owned] at owner
  obtain ⟨-, nearest⟩ := candidate.owner.nearest owner apart
  have one := nearest.shortest 1 ⟨_, mixin_arrives isMixin, rfl⟩
  have positive := nearest.reached.choose_spec.1.pos
  omega

/-- The only record of a field is shown by all three. -/
theorem one_mixin_agrees : Agree (mixins [threadNote]) id "note" := by
  have only : ∀ node ∈ [threadNote], node = threadNote := fun node => List.mem_singleton.mp
  refine (agree_iff _ id "note" (by decide)
    (mixins_notOwn fun node listed => Or.inr (only node listed))).mpr (Or.inr ?_)
  refine ⟨threadRow, threadRow_candidate (List.mem_singleton_self _), ?_, ?_⟩
  · intro other candidate differs
    have isThread := only other.field candidate.declares.stored
    refine absurd ?_ differs
    rw [ofRow, candidate.declares.owned, isThread]
    rfl
  · intro other on differs
    have isThread := only other.field on.stored
    refine absurd ?_ differs
    rw [ofAncestor, ← on.owned, isThread]
    rfl

theorem two_mixins_differ (lower : String → String) :
    ¬ Agree (mixins [aliasNote, threadNote]) lower "note" := by
  intro agree
  have only : ∀ node ∈ [aliasNote, threadNote], node = aliasNote ∨ node = threadNote := by
    simp only [List.mem_cons, List.not_mem_nil, or_false, imp_self, implies_true]
  have notOwn := mixins_notOwn only
  have isAlias : Candidate (mixins [aliasNote, threadNote]) (fun node => node.name == "note")
      aliasRow := aliasRow_candidate (by simp)
  have isThread : Candidate (mixins [aliasNote, threadNote]) (fun node => node.name == "note")
      threadRow := threadRow_candidate (by simp)
  obtain ⟨row, candidate, first, firstLookup⟩ :=
    uncontested_of_agree notOwn agree (onAncestor_of_candidate notOwn isAlias)
  have unjoined : row.mod = none := List.mem_singleton.mp candidate.declares.joined
  rcases only row.field candidate.declares.stored with aliased | threaded
  · have depth := mixin_depth candidate (Or.inl rfl) (congrArg FieldNode.model aliased)
    have differs : ofRow threadRow ≠ ofRow row := by
      intro same
      have modules : threadNote.module = row.field.module := congrArg Shown.module same
      rw [aliased] at modules
      exact absurd modules (by decide)
    have earlier := (first threadRow isThread differs).1
    rw [listKey, aliased, depth, unjoined] at earlier
    exact absurd earlier (by decide)
  · have depth := mixin_depth candidate (Or.inr rfl) (congrArg FieldNode.model threaded)
    have differs : ofAncestor (seen aliasRow) ≠ ofRow row := by
      intro same
      have modules : aliasNote.module = row.field.module := congrArg Shown.module same
      rw [threaded] at modules
      exact absurd modules (by decide)
    have earlier := firstLookup (seen aliasRow) (onAncestor_of_candidate notOwn isAlias) differs
    rw [lookupKey, threaded, depth] at earlier
    exact absurd earlier (by decide)

theorem precedences_differ :
    ¬ ∀ (query : Query) (lower : String → String) (field : String),
      magicFields.lookup field = none → NotOwn query field → Agree query lower field := by
  intro always
  refine two_mixins_differ id (always _ id "note" (by decide) (mixins_notOwn ?_))
  simp only [List.mem_cons, List.not_mem_nil, or_false, imp_self, implies_true]

end OdooSemantic.Mcp.FieldPrecedence
