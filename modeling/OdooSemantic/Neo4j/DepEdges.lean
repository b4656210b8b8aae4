import OdooSemantic.Neo4j.DepStubs

/-!
# Edges that no manifest asks for

A dependency edge joins two nodes and was listed by a manifest that some run wrote its module
from.  A run that prunes a module leaves the edges it wrote itself and no others.
-/

set_option autoImplicit false

namespace OdooSemantic.Neo4j.DepStubs

open Lib.Run

/-- Every edge is declared, and leaves an indexed module for a node that is there. -/
def Founded (declared : String → String → Prop) (state : State) : Prop :=
  ∀ name dep, hasEdge state name dep = true →
    indexed state name = true ∧ (state.modules dep).isSome = true ∧ declared name dep

def Written (writes : List ModuleInfo) (name dep : String) : Prop :=
  ∃ module ∈ writes, module.name = name ∧ dep ∈ module.depends

def Declared (events : List Event) (name dep : String) : Prop :=
  ∃ run writes pruned, Event.indexRun run writes pruned ∈ events ∧ Written writes name dep

section Steps
variable {run : String} {state : State} {declared : String → String → Prop}

theorem indexed_mergeDeps (name other : String) (depends : List String) :
    indexed (depends.foldl (mergeDep run name) state) other = indexed state other := by
  induction depends generalizing state with
  | nil => rfl
  | cons dep rest ih =>
      rw [List.foldl_cons, ih]
      unfold indexed mergeDep
      by_cases same : other = dep
      · subst same
        cases state.modules other <;> simp
      · simp [Function.update_of_ne same]

theorem present_mergeDeps (name other : String) (depends : List String) :
    ((depends.foldl (mergeDep run name) state).modules other).isSome =
      (depends.contains other || (state.modules other).isSome) := by
  induction depends generalizing state with
  | nil => rfl
  | cons dep rest ih =>
      rw [List.foldl_cons, ih]
      by_cases same : other = dep
      · simp [mergeDep, same]
      · simp [mergeDep, same]

theorem indexed_writeModule (module : ModuleInfo) (other : String) :
    indexed (writeModule run state module) other =
      (other == module.name || indexed state other) := by
  rw [writeModule, indexed_mergeDeps]
  unfold indexed mergeModule
  by_cases same : other = module.name
  · simp [same]
  · simp [same]

theorem present_writeModule (module : ModuleInfo) (other : String) :
    ((writeModule run state module).modules other).isSome =
      (module.depends.contains other || (other == module.name || (state.modules other).isSome)) := by
  rw [writeModule, present_mergeDeps]
  by_cases same : other = module.name
  · simp [mergeModule, same]
  · simp [mergeModule, same, beq_false_of_ne same]

theorem indexed_pruneModule (name other : String) :
    indexed (pruneModule run state name) other = indexed state other := by
  unfold indexed pruneModule
  by_cases same : other = name
  · subst same
    cases state.modules other <;> simp
  · simp [Function.update_of_ne same]

theorem present_pruneModule (name other : String) :
    ((pruneModule run state name).modules other).isSome = (state.modules other).isSome := by
  unfold pruneModule
  by_cases same : other = name
  · subst same
    simp
  · simp [Function.update_of_ne same]

/-- The edges of the other runs go. -/
theorem dependsOn_prunes (names : List String) (other target : String) :
    (names.foldl (pruneModule run) state).dependsOn other target =
      if other ∈ names then (state.dependsOn other target).filter (· == run)
      else state.dependsOn other target := by
  induction names generalizing state with
  | nil => simp
  | cons name rest ih =>
      rw [List.foldl_cons, ih]
      unfold pruneModule
      by_cases same : other = name
      · subst same
        cases found : state.dependsOn other target with
        | none => simp [found]
        | some stamp => by_cases own : stamp = run <;> simp [found, own, Option.filter]
      · simp [same]

theorem Founded.write (founded : Founded declared state) {module : ModuleInfo}
    (lists : ∀ dep ∈ module.depends, declared module.name dep) :
    Founded declared (writeModule run state module) := by
  intro name dep edge
  rw [hasEdge, dependsOn_writeModule] at edge
  rw [indexed_writeModule, present_writeModule]
  by_cases own : name = module.name ∧ dep ∈ module.depends
  · obtain ⟨rfl, listed⟩ := own
    simp [listed, lists dep listed]
  · rw [if_neg own] at edge
    obtain ⟨isIndexed, present, isDeclared⟩ := founded name dep edge
    simp [isIndexed, present, isDeclared]

theorem Founded.prunes (founded : Founded declared state) (names : List String) :
    Founded declared (names.foldl (pruneModule run) state) := by
  induction names generalizing state with
  | nil => exact founded
  | cons name rest ih =>
      refine ih fun other dep edge => ?_
      have one := @dependsOn_prunes run state [name] other dep
      rw [List.foldl_cons, List.foldl_nil] at one
      rw [hasEdge, one] at edge
      rw [indexed_pruneModule, present_pruneModule]
      apply founded other dep
      split at edge
      · cases found : state.dependsOn other dep with
        | none => simp [found] at edge
        | some stamp => simp [hasEdge, found]
      · exact edge

theorem Founded.delete (founded : Founded declared state) (deletes : String → Bool) :
    Founded declared (deleteModules deletes state) := by
  intro name dep edge
  unfold hasEdge deleteModules at edge
  cases gone : deletes name || deletes dep with
  | true => simp [gone] at edge
  | false =>
      obtain ⟨nameStays, depStays⟩ := Bool.or_eq_false_iff.mp gone
      obtain ⟨isIndexed, present, isDeclared⟩ :=
        founded name dep (by simpa [hasEdge, gone] using edge)
      simpa [indexed, deleteModules, nameStays, depStays] using ⟨isIndexed, present, isDeclared⟩

theorem Founded.step (founded : Founded declared state) {event : Event}
    (lists : ∀ run writes pruned, event = .indexRun run writes pruned →
      ∀ name dep, Written writes name dep → declared name dep) :
    Founded declared (step state event) := by
  cases event with
  | indexRun run writes pruned =>
      have written : ∀ modules ⊆ writes, ∀ before, Founded declared before →
          Founded declared (modules.foldl (writeModule run) before) := by
        intro modules inWrites
        induction modules with
        | nil => exact fun before holds => holds
        | cons module rest ih =>
            intro before holds
            refine ih (List.subset_of_cons_subset inWrites) _ (holds.write fun dep listed => ?_)
            exact lists run writes pruned rfl _ _
              ⟨module, inWrites List.mem_cons_self, rfl, listed⟩
      exact (written writes (List.Subset.refl _) state founded).prunes _
  | retire names | gcNullRepoDepStubs => exact founded.delete _

end Steps

/-- In every history an edge is one that a manifest of the history lists, and joins nodes. -/
theorem edges_founded (events : List Event) :
    Founded (Declared events) (run step .empty events) := by
  refine history_induction step .empty (fun state events => Founded (Declared events) state)
    (fun name dep edge => by cases edge) (fun earlier event founded => ?_) events
  have kept : Founded (Declared (earlier ++ [event])) (run step .empty earlier) := by
    intro name dep edge
    obtain ⟨isIndexed, present, run, writes, pruned, member, written⟩ := founded name dep edge
    exact ⟨isIndexed, present, run, writes, pruned, List.mem_append_left _ member, written⟩
  exact kept.step fun run writes pruned same name dep written =>
    ⟨run, writes, pruned, List.mem_append_right _ (List.mem_singleton.mpr same.symm), written⟩

end OdooSemantic.Neo4j.DepStubs
