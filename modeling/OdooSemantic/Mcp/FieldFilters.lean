import OdooSemantic.Mcp.FieldRecords

/-!
# Filters on the field list

The list applies its filters before it keeps one record of each name, so a filter can bring out a
record that the unfiltered list hides.
-/

set_option autoImplicit false

namespace OdooSemantic.Mcp.FieldFilters

open Lib.Picks Lib.Py
open Mcp.Boundary (Scope)
open Mcp.FieldOwners Mcp.FieldRecords Mcp.FieldRecords.Query

section Filters
variable {query : Query} {lower : String → String} {filters : Filters} {row first : FieldRow}
variable {record : FieldRecord} {owners another : Arrival OwnerRow} {rows : Arrival FieldRow}

def keepsRecord (lower : String → String) (filters : Filters) (record : FieldRecord) : Bool :=
  filters.keeps lower record.name record.module record.ttype

/-- Every row of the name that shows another record comes later. -/
def Prevails (query : Query) (lower : String → String) (row : FieldRow) : Prop :=
  ∀ other, Candidate query (keeps lower Filters.all) other → other.field.name = row.field.name →
    other.record ≠ row.record → listKey row < listKey other

/-- Every field that the filters let through has a row that they let through and that prevails. -/
def Unshadowed (query : Query) (lower : String → String) (filters : Filters) : Prop :=
  ∀ row, Candidate query (keeps lower filters) row →
    ∃ first, Candidate query (keeps lower filters) first ∧
      first.field.name = row.field.name ∧ Prevails query lower first

def FilterExact (query : Query) (lower : String → String) (filters : Filters) : Prop :=
  ∀ (owners owners' owners'' : Arrival OwnerRow) (rows rows' : Arrival FieldRow),
    keptFields query lower filters owners rows =
        (keptFields query lower Filters.all owners' rows').filter (keepsRecord lower filters) ∧
      countFieldsWithInherited query lower filters owners'' =
        (keptFields query lower filters owners rows).length

theorem keeps_all (field : FieldNode) : keeps lower Filters.all field = true := rfl

theorem candidate_filters :
    Candidate query (keeps lower filters) row ↔
      Candidate query (keeps lower Filters.all) row ∧ keeps lower filters row.field = true := by
  constructor
  · rintro ⟨owner, declares⟩
    exact ⟨⟨owner, { declares with kept := keeps_all row.field }⟩, declares.kept⟩
  · rintro ⟨⟨owner, declares⟩, kept⟩
    exact ⟨owner, { declares with kept := kept }⟩

theorem prevails_met (candidate : Candidate query (keeps lower filters) first)
    (prevails : Prevails query lower first) (owners : Arrival OwnerRow) :
    ∃ again ∈ fieldRows query (keeps lower filters) (query.owners owners),
      again.field = first.field ∧ again.record = first.record ∧
        listKey again = listKey first := by
  obtain ⟨another, isRow⟩ := candidate.met
  obtain ⟨again, isAgain, twin⟩ := met_again isRow owners
  have sameKey := listKey_twin twin
  refine ⟨again, isAgain, twin.field, ?_, sameKey⟩
  by_contra differs
  have later := prevails again (candidate_filters.mp (candidate_of_mem isAgain)).1
    (congrArg FieldNode.name twin.field) differs
  rw [sameKey] at later
  exact lt_irrefl _ later

theorem prevails_first (candidate : Candidate query (keeps lower filters) first)
    (prevails : Prevails query lower first) (owners : Arrival OwnerRow) (rows : Arrival FieldRow) :
    (firstRow query (keeps lower filters) first.field.name owners rows).map FieldRow.record =
      some first.record := by
  obtain ⟨again, isAgain, sameField, sameRecord, sameKey⟩ :=
    prevails_met candidate prevails owners
  refine Leads.find ⟨again, isAgain, ?_, sameRecord, fun other isOther named differs => ?_⟩ rows
  · rw [decide_eq_true_eq, sameField]
  · rw [decide_eq_true_eq] at named
    rw [sameKey]
    exact prevails other (candidate_filters.mp (candidate_of_mem isOther)).1 named differs

theorem eq_of_names {one another : List FieldRecord}
    (sorted : one.Pairwise fun first second => first.name ≤ second.name)
    (sorted' : another.Pairwise fun first second => first.name ≤ second.name)
    (nodup : (one.map FieldRecord.name).Nodup) (nodup' : (another.map FieldRecord.name).Nodup)
    (same : ∀ record, record ∈ one ↔ record ∈ another) : one = another := by
  have perm : one.Perm another :=
    (List.perm_ext_iff_of_nodup nodup.of_map nodup'.of_map).mpr same
  refine perm.eq_of_pairwise ?_ sorted sorted'
  intro first second isFirst isSecond le ge
  exact List.inj_on_of_nodup_map nodup isFirst ((same second).mpr isSecond) (le_antisymm le ge)

theorem filtered_eq_iff {owners' : Arrival OwnerRow} {rows' : Arrival FieldRow} :
    keptFields query lower filters owners rows =
        (keptFields query lower Filters.all owners' rows').filter (keepsRecord lower filters) ↔
      ∀ record, record ∈ keptFields query lower filters owners rows ↔
        record ∈ keptFields query lower Filters.all owners' rows' ∧
          keepsRecord lower filters record = true := by
  constructor
  · intro same record
    rw [same, List.mem_filter]
  · intro members
    refine eq_of_names keptFields_sorted (keptFields_sorted.filter _) keptFields_nodup
      (keptFields_nodup.sublist (List.filter_sublist.map _)) fun record => ?_
    rw [members record, List.mem_filter]

theorem firstRow_candidate {name : String}
    (found : firstRow query (keeps lower filters) name owners rows = some row) :
    Candidate query (keeps lower filters) row :=
  candidate_of_mem (least_of_find found).1

theorem exact_of_unshadowed (unshadowed : Unshadowed query lower filters)
    (owners' : Arrival OwnerRow) (rows' : Arrival FieldRow) :
    keptFields query lower filters owners rows =
      (keptFields query lower Filters.all owners' rows').filter (keepsRecord lower filters) := by
  rw [filtered_eq_iff]
  -- both lists keep the prevailing record of a name that the filters let through
  have settled : ∀ row, Candidate query (keeps lower filters) row → ∃ record,
      keepsRecord lower filters record = true ∧
      (firstRow query (keeps lower filters) row.field.name owners rows).map FieldRow.record =
        some record ∧
      (firstRow query (keeps lower Filters.all) row.field.name owners' rows').map FieldRow.record =
        some record := by
    intro row candidate
    obtain ⟨first, passes, named, prevails⟩ := unshadowed row candidate
    rw [← named]
    exact ⟨first.record, passes.declares.kept, prevails_first passes prevails owners rows,
      prevails_first (candidate_filters.mp passes).1 prevails owners' rows'⟩
  intro record
  rw [mem_keptFields, mem_keptFields]
  constructor
  · intro kept
    obtain ⟨row, found, shown⟩ := Option.map_eq_some_iff.mp kept
    obtain ⟨settledRecord, passes, one, other⟩ := settled row (firstRow_candidate found)
    rw [firstRow_name found] at one other
    rw [kept, Option.some_inj] at one
    rw [one]
    exact ⟨one ▸ other, passes⟩
  · rintro ⟨kept, passes⟩
    obtain ⟨row, found, shown⟩ := Option.map_eq_some_iff.mp kept
    have candidate : Candidate query (keeps lower filters) row := by
      refine candidate_filters.mpr ⟨firstRow_candidate found, ?_⟩
      rw [← shown] at passes
      exact passes
    obtain ⟨settledRecord, -, one, other⟩ := settled row candidate
    rw [firstRow_name found] at one other
    rw [kept, Option.some_inj] at other
    exact one.trans (congrArg some other.symm)

/-- The unfiltered list keeps a record of a name that the filters let through, whatever the
arrivals, when the filtered lists are restricted ones. -/
theorem shown_of_exact (exact : FilterExact query lower filters)
    (candidate : Candidate query (keeps lower filters) row) :
    ∃ record, keepsRecord lower filters record = true ∧ ∀ owners rows,
      (firstRow query (keeps lower Filters.all) row.field.name owners rows).map FieldRow.record =
        some record := by
  obtain ⟨owners, isRow⟩ := candidate.met
  obtain ⟨kept, first⟩ : ∃ kept, firstRow query (keeps lower filters) row.field.name owners
      Arrival.asGiven = some kept :=
    find_some_of listKey Arrival.asGiven isRow (by rw [decide_eq_true_eq])
  have named := firstRow_name first
  have listed : kept.record ∈ keptFields query lower filters owners Arrival.asGiven := by
    rw [mem_keptFields]
    change (firstRow query _ kept.field.name owners Arrival.asGiven).map FieldRow.record = _
    rw [named, first]
    rfl
  refine ⟨kept.record, (firstRow_candidate first).declares.kept, fun owners' rows' => ?_⟩
  have same := (exact owners owners' owners Arrival.asGiven rows').1
  have unfiltered := ((filtered_eq_iff.mp same) kept.record).mp listed
  have shown := mem_keptFields.mp unfiltered.1
  change (firstRow query _ kept.field.name owners' rows').map FieldRow.record = _ at shown
  rw [named] at shown
  exact shown

theorem unshadowed_of_exact (exact : FilterExact query lower filters) :
    Unshadowed query lower filters := by
  intro row candidate
  obtain ⟨record, passes, always⟩ := shown_of_exact exact candidate
  obtain ⟨first, found, shown⟩ :=
    Option.map_eq_some_iff.mp (always Arrival.asGiven Arrival.asGiven)
  have named := firstRow_name found
  obtain ⟨-, -, least⟩ := least_of_find found
  have passesFirst : keeps lower filters first.field = true := by
    rw [← shown] at passes
    exact passes
  refine ⟨first, candidate_filters.mpr ⟨firstRow_candidate found, passesFirst⟩, named, ?_⟩
  intro other isOther sameName differs
  -- under the arrival that meets the other row, some row of the shown record comes before it
  obtain ⟨owners, isRow⟩ := isOther.met
  obtain ⟨leading, isLeading, leadingName, -, before⟩ := leads_iff.mp (always owners)
  have earlier := before other isRow
    (by rw [decide_eq_true_eq, sameName, named]) (by rw [← shown]; exact differs)
  obtain ⟨again, isAgain, twin⟩ := met_again isLeading Arrival.asGiven
  rw [decide_eq_true_eq] at leadingName
  have bound := least again isAgain (by rw [decide_eq_true_eq, twin.field, leadingName])
  rw [listKey_twin twin] at bound
  exact lt_of_le_of_lt bound earlier

theorem modulesOf_ne_nil (query : Query) (field : FieldNode) :
    ∃ mod, mod ∈ modulesOf query field := by
  rw [modulesOf, optionalMatch]
  split
  · exact ⟨none, List.mem_singleton_self none⟩
  · rename_i some
    obtain ⟨mod, isModule⟩ := List.exists_mem_of_ne_nil _ (mt List.isEmpty_iff.mpr some)
    exact ⟨mod, List.mem_map_of_mem isModule⟩

theorem mem_counted {name : String} :
    name ∈ ((query.owners owners).flatMap fun owner =>
      (query.store.fields.filter fun field =>
        owner.ownerModel == some field.model && inView query field && keeps lower filters field &&
          field.module != "__unresolved__").map (·.name)) ↔
      ∃ row ∈ fieldRows query (keeps lower filters) (query.owners owners), row.field.name = name := by
  simp only [fieldRows, List.mem_flatMap, List.mem_map]
  constructor
  · rintro ⟨owner, isOwner, field, kept, named⟩
    obtain ⟨mod, joined⟩ := modulesOf_ne_nil query field
    exact ⟨⟨owner, field, mod⟩, ⟨owner, isOwner, field, kept, mod, joined, rfl⟩, named⟩
  · rintro ⟨row, ⟨owner, isOwner, field, kept, mod, joined, rfl⟩, named⟩
    exact ⟨owner, isOwner, field, kept, named⟩

theorem count_eq : countFieldsWithInherited query lower filters another =
    (keptFields query lower filters owners rows).length := by
  rw [countFieldsWithInherited, ← List.length_map FieldRecord.name, keptFields_names.length_eq]
  refine ((List.perm_ext_iff_of_nodup (List.nodup_dedup _) (heads_nodup _)).mpr ?_).length_eq
  intro name
  rw [List.mem_dedup, mem_counted, group_mem_heads, List.mem_map]
  simp only [mem_ordered]
  constructor
  · rintro ⟨row, isRow, named⟩
    obtain ⟨again, isAgain, twin⟩ := met_again isRow owners
    exact ⟨again, isAgain, by rw [twin.field, named]⟩
  · rintro ⟨row, isRow, named⟩
    obtain ⟨again, isAgain, twin⟩ := met_again isRow another
    exact ⟨again, isAgain, by rw [twin.field, named]⟩

end Filters

/-- A filtered list is the restricted one exactly when, of every field that the filters let
through, a row that they let through prevails over all rows with another record. -/
theorem filter_exact_iff (query : Query) (lower : String → String) (filters : Filters) :
    FilterExact query lower filters ↔ Unshadowed query lower filters := by
  constructor
  · exact unshadowed_of_exact
  · intro unshadowed owners owners' owners'' rows rows'
    exact ⟨exact_of_unshadowed unshadowed owners' rows', count_eq⟩

def orderNode : ModelNode := ⟨1, "sale.order", "17.0", none⟩
def threadNode : ModelNode := ⟨2, "mail.thread", "17.0", none⟩

def fieldNode (name model module ttype : String) : FieldNode :=
  ⟨name, model, module, "17.0", some ["acme"], some ttype, none, none, none, none, none, none, none,
    none⟩

/-- `sale.order` overrides the `note` of its mixin. -/
def overridden : Query where
  store :=
    { graph :=
        { models := [orderNode, threadNode]
          edges := [⟨orderNode, threadNode, .INHERITS, none⟩]
          closed := by decide }
      fields := [fieldNode "note" "sale.order" "sale" "html", fieldNode "note" "mail.thread" "mail" "text"]
      modules := [] }
  scope := ⟨none, []⟩
  model := "sale.order"
  version := "17.0"

def ownNote : FieldRow :=
  ⟨ownRow "sale.order", fieldNode "note" "sale.order" "sale" "html", none⟩

def mixinNote : FieldRow :=
  ⟨rowOf 1 ⟨orderNode, threadNode, .INHERITS, none⟩, fieldNode "note" "mail.thread" "mail" "text",
    none⟩

theorem ownNote_candidate (lower : String → String) :
    Candidate overridden (keeps lower Filters.all) ownNote where
  owner := Or.inl rfl
  declares := ⟨by decide, rfl, by decide, rfl, by decide, by decide⟩

theorem mixinNote_candidate (lower : String → String) :
    Candidate overridden (keeps lower ⟨some "mail", none, none⟩) mixinNote where
  owner := by
    refine Or.inr ⟨by decide, by decide, ⟨⟨orderNode, threadNode, .INHERITS, none⟩, ?_, rfl⟩, ?_⟩
    · exact OdooSemantic.Lib.NameWalks.Hops.Arrives.first
        ⟨⟨by decide, rfl, by decide⟩, rfl⟩ rfl
    · intro depth edge walked ends
      have positive := walked.pos
      simp only [mixinNote, rowOf, kindRank]
      omega
  declares := ⟨by decide, rfl, by decide, rfl, by decide, by decide⟩

theorem filter_unhides :
    ¬ ∀ (query : Query) (lower : String → String) (filters : Filters),
      FilterExact query lower filters := by
  intro always
  have exact := always overridden id ⟨some "mail", none, none⟩
  obtain ⟨first, passes, named, prevails⟩ := unshadowed_of_exact exact mixinNote
    (mixinNote_candidate id)
  have isMixin : first.field = mixinNote.field := by
    have stored : first.field ∈ [ownNote.field, mixinNote.field] := passes.declares.stored
    rw [List.mem_cons, List.mem_singleton] at stored
    rcases stored with own | mixin
    · have kept := passes.declares.kept
      rw [own] at kept
      exact absurd kept (by decide)
    · exact mixin
  have inherited : 0 < first.owner.depth := by
    have owned := passes.declares.owned
    rw [isMixin] at owned
    exact (passes.owner.nearest owned (by decide)).2.reached.choose_spec.1.pos
  have earlier := prevails ownNote (ownNote_candidate id) (by rw [isMixin]; rfl) (by
    intro same
    have types := congrArg FieldRecord.ttype same
    have mixed : first.record.ttype = mixinNote.field.ttype := congrArg FieldNode.ttype isMixin
    rw [mixed] at types
    exact absurd types (by decide))
  simp only [listKey, isMixin, Prod.Lex.lt_iff, ofLex_toLex] at earlier
  rcases earlier with before | ⟨-, nearer | ⟨same, -⟩⟩
  · exact absurd before (lt_irrefl _)
  · exact absurd nearer (Nat.not_lt_zero _)
  · exact absurd same inherited.ne'

end OdooSemantic.Mcp.FieldFilters
