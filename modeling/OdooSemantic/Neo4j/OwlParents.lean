import OdooSemantic.Neo4j.TestBases

/-!
# The parents of components

The superclass a component names is looked for in the module it is imported from, in the
component's own module and in the nearest dependency.  A reconcile writes the missing edges and
deletes the others; where one stops makes no difference to what the next one leaves.
-/

set_option autoImplicit false

namespace OdooSemantic.Neo4j.OwlParents

open Lib.Py TestBases

/-- A row of an `OWLComp` node; `parent` is its `extends`. -/
structure OwlComp where
  id : String
  name : String
  module : String
  parent : Option String
  extendsModule : Option String

/-- An empty string counts as no string. -/
def truthy (text : Option String) : Option String := text.filter (· ≠ "")

def parentRank (distances : List (String × Nat)) (child cand : OwlComp) : Option (Nat × Nat) :=
  if truthy child.extendsModule = some cand.module then some (0, 0)
  else if cand.module = child.module then some (1, 0)
  else (distances.lookup cand.module).map fun distance => (2, distance)

/-- `(rank, cand_module, cand_idx)`. -/
abbrev ParentKey := (Nat ×ₗ Nat) ×ₗ String ×ₗ Nat

def parentKey (rank : Nat × Nat) (cand : OwlComp × Nat) : ParentKey :=
  toLex (toLex rank, toLex (cand.1.module, cand.2))

section Resolve
variable (comps : List OwlComp) (depends : Depends)

def parentKeys (child : OwlComp × Nat) (parent : String) : List ParentKey :=
  (comps.zipIdx.filter fun cand => cand.1.name == parent && cand.2 != child.2).filterMap fun cand =>
    (parentRank (dependencyDistances child.1.module depends) child.1 cand.1).map fun rank =>
      parentKey rank cand

/-- The index in the least key, which `best` is after the loop. -/
def bestParent (child : OwlComp × Nat) : Option Nat :=
  (truthy child.1.parent).bind fun parent =>
    (parentKeys comps depends child parent).min?.map fun best => (ofLex (ofLex best).2).2

def undetermined (child : OwlComp × Nat) : Bool :=
  (truthy child.1.parent).isSome && (bestParent comps depends child).isNone &&
    (truthy child.1.extendsModule).isNone

def resolveOwlParents : List (Nat × Nat) × List Nat :=
  (comps.zipIdx.filterMap fun child =>
      (bestParent comps depends child).map fun parent => (child.2, parent),
    (comps.zipIdx.filter fun child => undetermined comps depends child).map Prod.snd)

/-- The ids of a child and its parent. -/
abbrev Edge := String ×ₗ String

def desired : List Edge :=
  (resolveOwlParents comps depends).1.filterMap fun pair =>
    match comps[pair.1]?, comps[pair.2]? with
    | some child, some parent => some (toLex (child.id, parent.id))
    | _, _ => none

def nameOf (id : String) : Option String := (comps.find? (·.id == id)).map (·.name)

/-- An edge to the name that is still declared, of a child whose parent nothing resolves. -/
def keeps (edge : Edge) : Bool :=
  (resolveOwlParents comps depends).2.any fun index =>
    match comps[index]? with
    | some child => child.id == (ofLex edge).1 && (nameOf comps (ofLex edge).2).isSome &&
        child.parent == nameOf comps (ofLex edge).2
    | none => false

inductive EdgeWrite where
  | create (edge : Edge)
  | delete (edge : Edge)

/-- `MERGE` and `DELETE`. -/
def perform (edges : List Edge) : EdgeWrite → List Edge
  | .create edge => if edge ∈ edges then edges else edge :: edges
  | .delete edge => edges.filter (· ≠ edge)

def edgeWrites (edges : List Edge) : List EdgeWrite :=
  let existing := edges.filter fun edge => !keeps comps depends edge
  let missing := (desired comps depends).dedup.filter (· ∉ existing)
  let extra := existing.filter (· ∉ desired comps depends)
  (sortedBy id missing).map .create ++ (sortedBy id extra).map .delete

/-- A run that stops after `written` of its writes. -/
def interrupted (edges : List Edge) (written : Nat) : List Edge :=
  ((edgeWrites comps depends edges).take written).foldl perform edges

def reconcileOwlEdges (edges : List Edge) : List Edge :=
  (edgeWrites comps depends edges).foldl perform edges

/-- The candidate at this place of the ranking: `Distance` is over the dependency closure. -/
inductive Place (child cand : OwlComp) : Nat × Nat → Prop
  | imported (isImport : truthy child.extendsModule = some cand.module) : Place child cand (0, 0)
  | own (silent : truthy child.extendsModule ≠ some cand.module)
      (same : cand.module = child.module) : Place child cand (1, 0)
  | dependency {distance : Nat} (silent : truthy child.extendsModule ≠ some cand.module)
      (other : cand.module ≠ child.module)
      (reached : Distance depends child.module cand.module distance) :
      Place child cand (2, distance)

def Stands (child cand : OwlComp × Nat) (rank : Nat × Nat) : Prop :=
  comps[cand.2]? = some cand.1 ∧ cand.2 ≠ child.2 ∧
    truthy child.1.parent = some cand.1.name ∧ Place depends child.1 cand.1 rank

/-- The first candidate, ties by module and by the order of the rows. -/
def First (child parent : OwlComp × Nat) : Prop :=
  ∃ rank, Stands comps depends child parent rank ∧
    ∀ other otherRank, Stands comps depends child other otherRank →
      parentKey rank parent ≤ parentKey otherRank other

def Derived (edge : Edge) : Prop :=
  ∃ child parent, comps[child.2]? = some child.1 ∧ First comps depends child parent ∧
    toLex (child.1.id, parent.1.id) = edge

/-- The child has no candidate and no import, and still names the end of the edge. -/
def StillNamed (edge : Edge) : Prop :=
  ∃ child : OwlComp × Nat, comps[child.2]? = some child.1 ∧ child.1.id = (ofLex edge).1 ∧
    truthy child.1.extendsModule = none ∧ (∀ cand rank, ¬ Stands comps depends child cand rank) ∧
      ∃ parent ∈ comps, parent.id = (ofLex edge).2 ∧ truthy child.1.parent = some parent.name

end Resolve

section Ranking
variable {comps : List OwlComp} {depends : Depends} {child : OwlComp × Nat}

theorem parentRank_iff {cand : OwlComp} {rank : Nat × Nat} :
    parentRank (dependencyDistances child.1.module depends) child.1 cand = some rank ↔
      Place depends child.1 cand rank := by
  rw [parentRank]
  constructor
  · intro found
    split at found
    · rename_i isImport
      cases found
      exact .imported isImport
    · rename_i silent
      split at found
      · rename_i same
        cases found
        exact .own silent same
      · rename_i other
        obtain ⟨distance, isDistance, rfl⟩ := Option.map_eq_some_iff.mp found
        exact .dependency silent other (lookup_dependencyDistances.mp isDistance)
  · intro place
    cases place with
    | imported isImport => rw [if_pos isImport]
    | own silent same => rw [if_neg silent, if_pos same]
    | dependency silent other reached =>
        rw [if_neg silent, if_neg other, lookup_dependencyDistances.mpr reached]
        rfl

theorem mem_parentKeys {parent : String} (named : truthy child.1.parent = some parent)
    (key : ParentKey) : key ∈ parentKeys comps depends child parent ↔
      ∃ cand rank, Stands comps depends child cand rank ∧ parentKey rank cand = key := by
  simp only [parentKeys, List.mem_filterMap, List.mem_filter, Bool.and_eq_true, beq_iff_eq,
    bne_iff_ne, Option.map_eq_some_iff, parentRank_iff, Stands, named, Option.some_inj]
  constructor
  · rintro ⟨cand, ⟨listed, called, apart⟩, rank, place, same⟩
    exact ⟨cand, rank, ⟨List.mem_zipIdx_iff_getElem?.mp listed, apart, called.symm, place⟩, same⟩
  · rintro ⟨cand, rank, ⟨listed, apart, called, place⟩, same⟩
    exact ⟨cand, ⟨List.mem_zipIdx_iff_getElem?.mpr listed, called.symm, apart⟩, rank, place, same⟩

theorem bestParent_iff {index : Nat} : bestParent comps depends child = some index ↔
    ∃ parent, First comps depends child parent ∧ parent.2 = index := by
  rw [bestParent, Option.bind_eq_some_iff]
  constructor
  · rintro ⟨name, named, found⟩
    obtain ⟨best, isBest, rfl⟩ := Option.map_eq_some_iff.mp found
    obtain ⟨listed, least⟩ := List.min?_eq_some_iff.mp isBest
    obtain ⟨parent, rank, stands, rfl⟩ := (mem_parentKeys named _).mp listed
    exact ⟨parent, ⟨rank, stands, fun other otherRank otherStands =>
      least _ ((mem_parentKeys named _).mpr ⟨other, otherRank, otherStands, rfl⟩)⟩, rfl⟩
  · rintro ⟨parent, ⟨rank, stands, first⟩, rfl⟩
    have named := stands.2.2.1
    refine ⟨parent.1.name, named, Option.map_eq_some_iff.mpr ⟨parentKey rank parent, ?_, rfl⟩⟩
    refine List.min?_eq_some_iff.mpr ⟨(mem_parentKeys named _).mpr ⟨parent, rank, stands, rfl⟩, ?_⟩
    intro key listed
    obtain ⟨other, otherRank, otherStands, rfl⟩ := (mem_parentKeys named key).mp listed
    exact first other otherRank otherStands

theorem bestParent_none {parent : String} (named : truthy child.1.parent = some parent) :
    bestParent comps depends child = none ↔
      ∀ cand rank, ¬ Stands comps depends child cand rank := by
  rw [bestParent, named, Option.bind_some, Option.map_eq_none_iff, List.min?_eq_none_iff]
  simp only [List.eq_nil_iff_forall_not_mem, mem_parentKeys named]
  constructor
  · intro noKey cand rank stands
    exact noKey _ ⟨cand, rank, stands, rfl⟩
  · rintro noCand key ⟨cand, rank, stands, -⟩
    exact noCand cand rank stands

theorem mem_desired (edge : Edge) : edge ∈ desired comps depends ↔ Derived comps depends edge := by
  simp only [desired, resolveOwlParents, List.mem_filterMap, Option.map_eq_some_iff, bestParent_iff]
  constructor
  · rintro ⟨_, ⟨child, listed, _, ⟨parent, first, rfl⟩, rfl⟩, isEdge⟩
    have isChild := List.mem_zipIdx_iff_getElem?.mp listed
    obtain ⟨rank, stands, -⟩ := id first
    simp only [isChild, stands.1, Option.some_inj] at isEdge
    exact ⟨child, parent, isChild, first, isEdge⟩
  · rintro ⟨child, parent, isChild, first, rfl⟩
    obtain ⟨rank, stands, -⟩ := id first
    refine ⟨(child.2, parent.2), ⟨child, List.mem_zipIdx_iff_getElem?.mpr isChild, _,
      ⟨parent, first, rfl⟩, rfl⟩, ?_⟩
    simp only [isChild, stands.1]

theorem nameOf_iff (distinct : (comps.map (·.id)).Nodup) {id name : String} :
    nameOf comps id = some name ↔ ∃ comp ∈ comps, comp.id = id ∧ comp.name = name := by
  rw [nameOf, Option.map_eq_some_iff]
  constructor
  · rintro ⟨comp, found, rfl⟩
    exact ⟨comp, List.mem_of_find?_eq_some found, by simpa using List.find?_some found, rfl⟩
  · rintro ⟨comp, listed, rfl, rfl⟩
    cases found : comps.find? (·.id == comp.id) with
    | none => exact absurd (beq_self_eq_true comp.id) (List.find?_eq_none.mp found comp listed)
    | some first =>
        have same : first.id = comp.id := by simpa using List.find?_some found
        refine ⟨first, rfl, ?_⟩
        rw [List.inj_on_of_nodup_map distinct (List.mem_of_find?_eq_some found) listed same]

theorem keeps_iff (distinct : (comps.map (·.id)).Nodup) (edge : Edge) :
    keeps comps depends edge = true ↔ StillNamed comps depends edge := by
  simp only [keeps, resolveOwlParents, List.any_eq_true, List.mem_map, List.mem_filter]
  constructor
  · rintro ⟨_, ⟨child, ⟨listed, open_⟩, rfl⟩, kept⟩
    have isChild := List.mem_zipIdx_iff_getElem?.mp listed
    simp only [undetermined, Bool.and_eq_true, Option.isSome_iff_exists,
      Option.isNone_iff_eq_none] at open_
    obtain ⟨⟨⟨parent, named⟩, unresolved⟩, silent⟩ := open_
    simp only [isChild, Bool.and_eq_true, beq_iff_eq] at kept
    have declared := (Option.filter_eq_some_iff.mp named).1
    rw [declared] at kept
    obtain ⟨comp, isComp, isEnd, called⟩ := (nameOf_iff distinct).mp kept.2.symm
    exact ⟨child, isChild, kept.1.1, silent, (bestParent_none named).mp unresolved, comp, isComp,
      isEnd, named.trans (congrArg some called.symm)⟩
  · rintro ⟨child, isChild, isStart, silent, noCand, comp, isComp, isEnd, named⟩
    refine ⟨child.2, ⟨child, ⟨List.mem_zipIdx_iff_getElem?.mpr isChild, ?_⟩, rfl⟩, ?_⟩
    · simp [undetermined, named, (bestParent_none named).mpr noCand, silent]
    · have found := (nameOf_iff distinct).mpr ⟨comp, isComp, isEnd, rfl⟩
      have declared := (Option.filter_eq_some_iff.mp named).1
      simp [isChild, isStart, found, declared]

/-- An edge that is derived is none that is only kept. -/
theorem keeps_of_desired (distinct : (comps.map (·.id)).Nodup) {edge : Edge}
    (isDesired : edge ∈ desired comps depends) : keeps comps depends edge = false := by
  rw [← Bool.not_eq_true, keeps_iff distinct]
  rintro ⟨child, isChild, isStart, -, noCand, -⟩
  obtain ⟨other, parent, isOther, ⟨rank, stands, -⟩, rfl⟩ := (mem_desired edge).mp isDesired
  have same : other.2 = child.2 := by
    have ids : (comps.map (·.id))[other.2]? = (comps.map (·.id))[child.2]? := by
      rw [List.getElem?_map, List.getElem?_map, isOther, isChild]
      exact congrArg some isStart.symm
    have within := (List.getElem?_eq_some_iff.mp isOther).1
    exact (List.getElem?_inj (by rwa [List.length_map]) distinct).mp ids
  have child_eq : other = child := by
    refine Prod.ext ?_ same
    rw [same, isChild] at isOther
    exact (Option.some_inj.mp isOther).symm
  exact noCand parent rank (child_eq ▸ stands)

end Ranking

section Writes
variable {comps : List OwlComp} {depends : Depends} {edges : List Edge} {edge : Edge}

theorem mem_performed (created deleted : List Edge) :
    edge ∈ (created.map EdgeWrite.create ++ deleted.map EdgeWrite.delete).foldl perform edges ↔
      (edge ∈ edges ∨ edge ∈ created) ∧ edge ∉ deleted := by
  induction created generalizing edges with
  | nil =>
      induction deleted generalizing edges with
      | nil => simp
      | cons first rest ih =>
          rw [List.map_nil, List.nil_append] at ih ⊢
          rw [List.map_cons, List.foldl_cons, ih]
          simp only [perform, List.mem_filter, decide_eq_true_eq, List.mem_cons]
          tauto
  | cons first rest ih =>
      rw [List.map_cons, List.cons_append, List.foldl_cons, ih, perform]
      split
      · rename_i listed
        constructor
        · exact fun shown => ⟨shown.1.imp_right (List.mem_cons_of_mem _), shown.2⟩
        · rintro ⟨old | new, kept⟩
          · exact ⟨Or.inl old, kept⟩
          · obtain rfl | later := List.mem_cons.mp new
            · exact ⟨Or.inl listed, kept⟩
            · exact ⟨Or.inr later, kept⟩
      · simp only [List.mem_cons]
        tauto

theorem mem_interrupted (written : Nat) : ∃ created deleted : List Edge,
    (∀ one ∈ created, one ∈ desired comps depends) ∧
      (∀ one ∈ deleted, one ∉ desired comps depends ∧ keeps comps depends one = false) ∧
        ∀ edge, edge ∈ interrupted comps depends edges written ↔
          (edge ∈ edges ∨ edge ∈ created) ∧ edge ∉ deleted := by
  rw [interrupted, edgeWrites]
  generalize isMissing : sortedBy id ((desired comps depends).dedup.filter _) = missing
  generalize isExtra : sortedBy id (List.filter (· ∉ desired comps depends) _) = extra
  rw [List.take_append, List.length_map, ← List.map_take, ← List.map_take]
  refine ⟨_, _, fun one listed => ?_, fun one listed => ?_, fun edge => mem_performed _ _⟩
  · have old := List.mem_of_mem_take listed
    rw [← isMissing, mem_sortedBy, List.mem_filter, List.mem_dedup] at old
    exact old.1
  · have old := List.mem_of_mem_take listed
    rw [← isExtra, mem_sortedBy, List.mem_filter, List.mem_filter] at old
    exact ⟨by simpa using old.2, by simpa using old.1.2⟩

theorem mem_reconciled (distinct : (comps.map (·.id)).Nodup) :
    edge ∈ reconcileOwlEdges comps depends edges ↔
      edge ∈ desired comps depends ∨ (edge ∈ edges ∧ keeps comps depends edge = true) := by
  rw [reconcileOwlEdges, edgeWrites, mem_performed]
  simp only [mem_sortedBy, List.mem_filter, List.mem_dedup, decide_eq_true_eq, Bool.not_eq_true',
    not_and, not_not, and_imp]
  have apart : edge ∈ desired comps depends → keeps comps depends edge = false :=
    keeps_of_desired distinct
  cases keeps comps depends edge <;> tauto

theorem mem_stopped (distinct : (comps.map (·.id)).Nodup) (stops : List Nat)
    (kept : keeps comps depends edge = true) :
    edge ∈ stops.foldl (interrupted comps depends) edges ↔ edge ∈ edges := by
  induction stops generalizing edges with
  | nil => rfl
  | cons written rest ih =>
      obtain ⟨created, deleted, derived, others, found⟩ :=
        @mem_interrupted comps depends edges written
      have notCreated : edge ∉ created := fun new => by
        simp [keeps_of_desired distinct (derived edge new)] at kept
      have notDeleted : edge ∉ deleted := fun gone => by
        simp [(others edge gone).2] at kept
      rw [List.foldl_cons, ih, found]
      simp only [notCreated, notDeleted, or_false, not_false_eq_true, and_true]

end Writes

/-- After any number of runs that stop anywhere, a complete one leaves the derived edges and those
of the start that are still named, and the next one writes nothing. -/
theorem owl_edges_settle (comps : List OwlComp) (depends : Depends)
    (distinct : (comps.map (·.id)).Nodup) (edges : List Edge) (stops : List Nat) :
    let settled := reconcileOwlEdges comps depends (stops.foldl (interrupted comps depends) edges)
    (∀ edge, edge ∈ settled ↔
        Derived comps depends edge ∨ (edge ∈ edges ∧ StillNamed comps depends edge)) ∧
      edgeWrites comps depends settled = [] := by
  intro settled
  have found : ∀ edge, edge ∈ settled ↔
      edge ∈ desired comps depends ∨ (edge ∈ edges ∧ keeps comps depends edge = true) := by
    intro edge
    rw [mem_reconciled distinct]
    constructor
    · rintro (derived | ⟨old, kept⟩)
      · exact Or.inl derived
      · exact Or.inr ⟨(mem_stopped distinct stops kept).mp old, kept⟩
    · rintro (derived | ⟨old, kept⟩)
      · exact Or.inl derived
      · exact Or.inr ⟨(mem_stopped distinct stops kept).mpr old, kept⟩
  constructor
  · intro edge
    rw [found, mem_desired, keeps_iff distinct]
  · have noMissing : (desired comps depends).dedup.filter
        (· ∉ settled.filter fun edge => !keeps comps depends edge) = [] := by
      refine List.filter_eq_nil_iff.mpr fun edge listed => ?_
      have derived := List.mem_dedup.mp listed
      simp [(found edge).mpr (Or.inl derived), keeps_of_desired distinct derived]
    have noExtra : (settled.filter fun edge => !keeps comps depends edge).filter
        (· ∉ desired comps depends) = [] := by
      refine List.filter_eq_nil_iff.mpr fun edge listed => ?_
      obtain ⟨old, kept⟩ := List.mem_filter.mp listed
      obtain derived | ⟨-, isKept⟩ := (found edge).mp old
      · simpa using derived
      · simp [isKept] at kept
    simp only [edgeWrites, noMissing, noExtra, sortedBy, List.insertionSort_nil, List.map_nil,
      List.append_nil]

def dialogs : List OwlComp :=
  [⟨"1", "Dialog", "sale", some "LegacyComponent", none⟩,
    ⟨"2", "LegacyComponent", "stock", none, none⟩, ⟨"3", "LegacyComponent", "web", none, none⟩]

/-- The edge to the component of an unrelated module goes, also when a run stops before that. -/
theorem dialogs_settle :
    let settled := reconcileOwlEdges dialogs [("sale", ["web"])]
      ([1].foldl (interrupted dialogs [("sale", ["web"])]) [toLex ("1", "2")])
    (∀ edge, edge ∈ settled ↔ Derived dialogs [("sale", ["web"])] edge ∨
        (edge ∈ [toLex ("1", "2")] ∧ StillNamed dialogs [("sale", ["web"])] edge)) ∧
      edgeWrites dialogs [("sale", ["web"])] settled = [] :=
  owl_edges_settle dialogs [("sale", ["web"])] (by decide) [toLex ("1", "2")] [1]

end OdooSemantic.Neo4j.OwlParents
