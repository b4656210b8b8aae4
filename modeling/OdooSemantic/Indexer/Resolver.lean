import OdooSemantic.Lib.Kahn
import OdooSemantic.Lib.OrderedDict
import OdooSemantic.Lib.Py

/-!
# The order in which modules are indexed

Base modules come before the modules that depend on them.  A dependency that is not among the
modules is skipped, and what is left because of a cycle follows in alphabetical order.
-/

set_option autoImplicit false

namespace OdooSemantic.Indexer.Resolver

open Lib.Kahn
open Lib.OrderedDict
open Lib.Py

/-- The column of `ModuleInfo` the order is read from. -/
structure ModuleInfo where
  depends : List String

structure ModuleMap where
  items : List (String × ModuleInfo)
  distinct : KeysDistinct items

def ModuleMap.names (modules : ModuleMap) : List String := modules.items.map Prod.fst

/-- `in_degree` and `dependents`. -/
structure Edges where
  inDegree : String → Int
  dependents : String → List String

def addEdge (names : List String) (name : String) (edges : Edges) (dep : String) : Edges :=
  if dep ∈ names then
    { inDegree := Function.update edges.inDegree name (edges.inDegree name + 1)
      dependents := Function.update edges.dependents dep (edges.dependents dep ++ [name]) }
  else edges

def addModule (names : List String) (edges : Edges) (item : String × ModuleInfo) : Edges :=
  item.2.depends.foldl (addEdge names item.1) edges

def edgesOf (modules : ModuleMap) : Edges :=
  modules.items.foldl (addModule modules.names) ⟨fun _ => 0, fun _ => []⟩

def sortLoop (modules : ModuleMap) : Waiting String × List String :=
  let edges := edgesOf modules
  let queue := sorted (modules.names.filter fun name => edges.inDegree name = 0)
  drain sorted edges.dependents modules.items.length ⟨edges.inDegree, queue⟩ []

def topologicalSort (modules : ModuleMap) : List String :=
  if modules.items.isEmpty then []
  else
    let result := (sortLoop modules).2
    if result.length < modules.items.length then
      result ++ sortedSet (modules.names.filter fun name => name ∉ result)
    else result

def presentDepends (names : List String) (items : List (String × ModuleInfo)) (name : String) :
    List String :=
  ((items.lookup name).elim [] ModuleInfo.depends).filter (· ∈ names)

def ModuleMap.DependsOn (modules : ModuleMap) (name dep : String) : Prop :=
  name ∈ modules.names ∧ dep ∈ presentDepends modules.names modules.items name

section Edges
variable {names : List String}

theorem addEdges (name : String) (depends : List String) : ∀ edges : Edges,
    (∀ one, (depends.foldl (addEdge names name) edges).inDegree one =
      edges.inDegree one + if one = name then ((depends.filter (· ∈ names)).length : Int) else 0) ∧
    ∀ one dep, ((depends.foldl (addEdge names name) edges).dependents dep).count one =
      (edges.dependents dep).count one +
        if one = name then (depends.filter (· ∈ names)).count dep else 0 := by
  induction depends with
  | nil =>
      intro edges
      constructor
      · intro one
        simp
      · intro one dep
        simp
  | cons first rest ih =>
      intro edges
      rw [List.foldl_cons]
      obtain ⟨degrees, counts⟩ := ih (addEdge names name edges first)
      by_cases present : first ∈ names
      · have kept : (first :: rest).filter (· ∈ names) = first :: rest.filter (· ∈ names) := by
          rw [List.filter_cons, if_pos (decide_eq_true present)]
        constructor
        · intro one
          rw [degrees, kept, addEdge, if_pos present]
          dsimp only
          by_cases same : one = name
          · rw [if_pos same, if_pos same, same, Function.update_self, List.length_cons]
            omega
          · rw [if_neg same, if_neg same, Function.update_of_ne same]
        · intro one dep
          rw [counts, kept, addEdge, if_pos present]
          dsimp only
          by_cases there : dep = first
          · rw [there, Function.update_self, List.count_append, count_cons_if, count_cons_if,
              List.count_nil, if_pos rfl]
            split <;> omega
          · rw [Function.update_of_ne there, count_cons_if, if_neg there, Nat.add_zero]
      · have kept : (first :: rest).filter (· ∈ names) = rest.filter (· ∈ names) := by
          rw [List.filter_cons, if_neg (by rw [decide_eq_true_iff]; exact present)]
        have skipped : addEdge names name edges first = edges := by
          rw [addEdge, if_neg present]
        rw [skipped] at degrees counts
        rw [kept, skipped]
        exact ⟨degrees, counts⟩

theorem addModules (items : List (String × ModuleInfo)) : ∀ edges : Edges, KeysDistinct items →
    (∀ one, (items.foldl (addModule names) edges).inDegree one =
      edges.inDegree one + (presentDepends names items one).length) ∧
    ∀ one dep, ((items.foldl (addModule names) edges).dependents dep).count one =
      (edges.dependents dep).count one + (presentDepends names items one).count dep := by
  induction items with
  | nil =>
      intro edges distinct
      constructor
      · intro one
        exact (Int.add_zero _).symm
      · intro one dep
        rfl
  | cons item rest ih =>
      intro edges distinct
      obtain ⟨fresh, distinctRest⟩ := List.nodup_cons.mp distinct
      rw [List.foldl_cons]
      obtain ⟨degrees, counts⟩ := ih (addModule names edges item) distinctRest
      obtain ⟨itemDegrees, itemCounts⟩ := @addEdges names item.1 item.2.depends edges
      have unlisted : presentDepends names rest item.1 = [] := by
        have absent : rest.lookup item.1 = none := by
          refine List.lookup_eq_none_iff.mpr fun other otherIn => ?_
          rw [bne_iff_ne]
          intro same
          exact fresh (same ▸ List.mem_map_of_mem (f := Prod.fst) otherIn)
        rw [presentDepends, absent]
        rfl
      have here : ∀ one, presentDepends names (item :: rest) one =
          if one = item.1 then item.2.depends.filter (· ∈ names)
          else presentDepends names rest one := by
        intro one
        rw [presentDepends, lookup_cons_if]
        by_cases same : one = item.1
        · rw [if_pos same, if_pos same]
          rfl
        · rw [if_neg same, if_neg same]
          rfl
      constructor
      · intro one
        rw [degrees, addModule, itemDegrees, here]
        by_cases same : one = item.1
        · rw [if_pos same, if_pos same, same, unlisted]
          simp
        · rw [if_neg same, if_neg same, Int.add_zero]
      · intro one dep
        rw [counts, addModule, itemCounts, here]
        by_cases same : one = item.1
        · rw [if_pos same, if_pos same, same, unlisted]
          rfl
        · rw [if_neg same, if_neg same, Nat.add_zero]

end Edges

section Loop
variable (modules : ModuleMap)

theorem edgesOf_inDegree (name : String) : (edgesOf modules).inDegree name =
    (presentDepends modules.names modules.items name).length := by
  rw [edgesOf, (addModules modules.items _ modules.distinct).1]
  exact Int.zero_add _

theorem edgesOf_count (name dep : String) : ((edgesOf modules).dependents dep).count name =
    (presentDepends modules.names modules.items name).count dep := by
  rw [edgesOf, (addModules modules.items _ modules.distinct).2]
  exact Nat.zero_add _

theorem presentDepends_outside {name : String} (outside : name ∉ modules.names) :
    presentDepends modules.names modules.items name = [] := by
  have absent : modules.items.lookup name = none := by
    refine List.lookup_eq_none_iff.mpr fun item itemIn => ?_
    rw [bne_iff_ne]
    intro same
    exact outside (same ▸ List.mem_map_of_mem (f := Prod.fst) itemIn)
  rw [presentDepends, absent]
  rfl

def ModuleMap.graph : Dependencies String where
  nodes := modules.names
  deps := presentDepends modules.names modules.items
  dependents := (edgesOf modules).dependents
  distinct := modules.distinct
  known name _ dep listed := of_decide_eq_true (List.mem_filter.mp listed).2
  mirrored name dep := by
    rw [edgesOf_count]
    by_cases inside : name ∈ modules.names
    · rw [if_pos inside]
    · rw [if_neg inside, presentDepends_outside modules inside, List.count_nil]

theorem sorted_perm (items : List String) : (sorted items).Perm items :=
  List.perm_insertionSort _ _

theorem start_ordered : Ordered modules.graph
    ⟨(edgesOf modules).inDegree,
      sorted (modules.names.filter fun name => (edgesOf modules).inDegree name = 0)⟩ [] := by
  have start : ∀ name, name ∈ sorted (modules.names.filter fun name =>
      (edgesOf modules).inDegree name = 0) ↔
        name ∈ modules.names ∧ (edgesOf modules).inDegree name = 0 := by
    intro name
    rw [mem_sorted, List.mem_filter, decide_eq_true_iff]
  refine ⟨?_, ?_, ?_, ?_, ?_⟩
  · rw [List.nil_append]
    exact (sorted_perm _).nodup_iff.mpr (modules.distinct.filter _)
  · intro name waits
    exact ((start name).mp waits).1
  · intro name listed
    have all : (modules.graph.deps name).countP (· ∉ ([] : List String)) =
        (presentDepends modules.names modules.items name).length := by
      simp [ModuleMap.graph]
    rw [all]
    exact edgesOf_inDegree modules name
  · intro name listed
    rw [List.nil_append, start]
    exact and_iff_right listed
  · intro name waits dep needed
    have none := ((start name).mp waits).2
    rw [edgesOf_inDegree] at none
    have empty : presentDepends modules.names modules.items name = [] :=
      List.eq_nil_of_length_eq_zero (by omega)
    rw [ModuleMap.graph] at needed
    dsimp only at needed
    rw [empty] at needed
    cases needed

theorem sortLoop_ends : (sortLoop modules).1.queue = [] ∧
    Ordered modules.graph ⟨(sortLoop modules).1.inDegree, []⟩ (sortLoop modules).2 := by
  have enough : modules.graph.nodes.length ≤ ([] : List String).length + modules.items.length := by
    rw [List.length_nil, Nat.zero_add]
    exact (List.length_map _).le
  obtain ⟨inDegree, order, ended, ordered⟩ :=
    (start_ordered modules).drain sorted_perm modules.items.length enough
  have same : sortLoop modules = (⟨inDegree, []⟩, order) := ended
  rw [same]
  exact ⟨rfl, ordered⟩

theorem remaining_of_full (full : ¬ (sortLoop modules).2.length < modules.items.length)
    (name : String) (listed : name ∈ modules.names) : name ∈ (sortLoop modules).2 := by
  obtain ⟨distinct, inNodes, -, -, -⟩ := (sortLoop_ends modules).2
  rw [List.append_nil] at distinct inNodes
  have room : modules.names.length = modules.items.length := List.length_map _
  exact ((distinct.subperm inNodes).perm_of_length_le (by
    show modules.names.length ≤ _
    omega)).mem_iff.mpr listed

/-- Taken by the loop first, then the others. -/
theorem topologicalSort_eq : topologicalSort modules = (sortLoop modules).2 ++
    sortedSet (modules.names.filter fun name => name ∉ (sortLoop modules).2) := by
  have noneLeft : (∀ name ∈ modules.names, name ∈ (sortLoop modules).2) →
      modules.names.filter (fun name => name ∉ (sortLoop modules).2) = [] := by
    intro all
    refine List.filter_eq_nil_iff.mpr fun name listed => ?_
    rw [decide_eq_true_iff, not_not]
    exact all name listed
  by_cases empty : modules.items.isEmpty = true
  · have nothing : modules.items = [] := List.isEmpty_iff.mp empty
    have noNames : modules.names = [] := by
      rw [ModuleMap.names, nothing, List.map_nil]
    have loop : (sortLoop modules).2 = [] := by
      rw [sortLoop, nothing]
      rfl
    rw [topologicalSort, if_pos empty, noNames, loop]
    rfl
  · rw [topologicalSort, if_neg empty]
    dsimp only
    by_cases short : (sortLoop modules).2.length < modules.items.length
    · rw [if_pos short]
    · rw [if_neg short, noneLeft (remaining_of_full modules short)]
      exact (List.append_nil _).symm

/-- The loop ends, and every module is in the order once.  A module that is neither on nor
downstream of a cycle comes after its present dependencies and before those that are. -/
theorem topologicalSort_order : (sortLoop modules).1.queue = [] ∧
    (topologicalSort modules).Perm modules.names ∧
    ∀ name ∈ modules.names, ¬ Tangled modules.DependsOn name →
      (∀ dep, modules.DependsOn name dep →
        (topologicalSort modules).idxOf dep < (topologicalSort modules).idxOf name) ∧
      ∀ other ∈ modules.names, Tangled modules.DependsOn other →
        (topologicalSort modules).idxOf name < (topologicalSort modules).idxOf other := by
  obtain ⟨ended, ordered⟩ := sortLoop_ends modules
  have taken : ∀ name ∈ modules.names,
      name ∈ (sortLoop modules).2 ↔ ¬ Tangled modules.DependsOn name :=
    fun name listed => ordered.mem_iff listed
  obtain ⟨distinct, inNodes, -, -, before⟩ := ordered
  simp only [List.append_nil] at distinct inNodes before
  have inRest : ∀ name, name ∈ sortedSet
      (modules.names.filter fun name => name ∉ (sortLoop modules).2) ↔
        name ∈ modules.names ∧ name ∉ (sortLoop modules).2 := by
    intro name
    rw [mem_sortedSet, List.mem_filter, decide_eq_true_iff]
  rw [topologicalSort_eq]
  refine ⟨ended, ?_, ?_⟩
  · have once : ((sortLoop modules).2 ++ sortedSet
        (modules.names.filter fun name => name ∉ (sortLoop modules).2)).Nodup := by
      refine List.Nodup.append distinct (sortedSet_nodup _) ?_
      intro name first later
      exact ((inRest name).mp later).2 first
    refine (List.perm_ext_iff_of_nodup once modules.distinct).mpr fun name => ?_
    rw [List.mem_append, inRest]
    constructor
    · intro member
      obtain first | later := member
      · exact inNodes name first
      · exact later.1
    · intro listed
      by_cases first : name ∈ (sortLoop modules).2
      · exact .inl first
      · exact .inr ⟨listed, first⟩
  · intro name listed untangled
    have first := (taken name listed).mpr untangled
    constructor
    · intro dep needed
      obtain ⟨depFirst, earlier⟩ := before name first dep needed.2
      rw [List.idxOf_append_of_mem depFirst, List.idxOf_append_of_mem first]
      exact earlier
    · intro other otherListed tangled
      have late : other ∉ (sortLoop modules).2 := fun early =>
        (taken other otherListed).mp early tangled
      rw [List.idxOf_append_of_mem first, List.idxOf_append_of_notMem late]
      have inside := List.idxOf_lt_length_of_mem first
      omega

end Loop

end OdooSemantic.Indexer.Resolver
