import OdooSemantic.Neo4j.Cascade

/-!
# Declared dependencies and the stub GC

An index run writes `DEPENDS_ON` edges from the modules it writes, and a stub
where the target is not indexed yet.  Retirements and the stub GC delete Module
nodes with their edges.  Everything here is at one version.
-/

set_option autoImplicit false

namespace OdooSemantic.Neo4j.DepStubs

open Lib.Run

/-- A `Module` node; `manifest` is the `depends` it was last written from, none on a stub, and
`children` the sources of its `DEFINED_IN` edges with the run that wrote them. -/
structure ModuleNode where
  repoId : Option Nat
  manifest : Option (List String)
  children : List (String × String)
  deriving DecidableEq

/-- `cut m d` is a history variable: the node of `d` was deleted since `m` was last written. -/
structure State where
  modules : String → Option ModuleNode
  dependsOn : String → String → Option String
  cut : String → String → Bool

def State.empty : State := ⟨fun _ => none, fun _ _ => none, fun _ _ => false⟩

structure ModuleInfo where
  name : String
  repoId : Option Nat
  depends : List String
  children : List String
  deriving DecidableEq

inductive Event where
  | indexRun (run : String) (writes : List ModuleInfo) (pruned : List String)
  | retire (names : List String)
  | gcNullRepoDepStubs
  deriving DecidableEq

section Statements
variable (run : String)

/-- `MERGE (d:Module)`, then `MERGE (m)-[r:DEPENDS_ON]->(d)` with the run's stamp. -/
def mergeDep (name : String) (state : State) (dep : String) : State :=
  { state with
    modules := Function.update state.modules dep
      (some ((state.modules dep).getD { repoId := none, manifest := none, children := [] }))
    dependsOn := Function.update state.dependsOn name
      (Function.update (state.dependsOn name) dep (some run)) }

/-- The Module statement of `_write_parse_result` and the children's `DEFINED_IN` edges. -/
def mergeModule (state : State) (module : ModuleInfo) : State :=
  let old := state.modules module.name
  { state with
    modules := Function.update state.modules module.name (some
      { repoId := module.repoId.or (old.bind (·.repoId))
        manifest := some module.depends
        children := module.children.map (·, run) ++
          ((old.map (·.children)).getD []).filter fun child => !module.children.contains child.1 })
    cut := Function.update state.cut module.name fun _ => false }

/-- `_write_parse_result`. -/
def writeModule (state : State) (module : ModuleInfo) : State :=
  module.depends.foldl (mergeDep run module.name) (mergeModule run state module)

def pruneModule (state : State) (name : String) : State :=
  { state with
    modules := Function.update state.modules name ((state.modules name).map fun node =>
      { node with children := node.children.filter fun child => child.2 == run })
    dependsOn := Function.update state.dependsOn name fun dep =>
      (state.dependsOn name dep).filter (· == run) }

end Statements

/-- `DETACH DELETE` of Module nodes. -/
def deleteModules (deletes : String → Bool) (state : State) : State :=
  { modules := fun name => if deletes name then none else state.modules name
    dependsOn := fun name dep => if deletes name || deletes dep then none else state.dependsOn name dep
    cut := fun name dep => state.cut name dep || deletes dep }

def isDepStub (state : State) (name : String) : Bool :=
  (state.modules name).any fun node => node.repoId.isNone && node.children.isEmpty

def step (state : State) : Event → State
  | .indexRun run writes pruned =>
      (pruned.filter fun name => (writes.map (·.name)).contains name).foldl (pruneModule run)
        (writes.foldl (writeModule run) state)
  | .retire names => deleteModules (fun name => (retirable names).contains name) state
  | .gcNullRepoDepStubs => deleteModules (isDepStub state) state

/-- The node was written from a manifest. -/
def indexed (state : State) (name : String) : Bool :=
  (state.modules name).any (·.manifest.isSome)

def lists (state : State) (name dep : String) : Bool :=
  (state.modules name).any fun node => node.manifest.any (·.contains dep)

def hasEdge (state : State) (name dep : String) : Bool := (state.dependsOn name dep).isSome

/-- Every declared dependency between indexed modules has its edge. -/
def Linked (state : State) : Prop :=
  ∀ name dep, indexed state name = true → indexed state dep = true →
    lists state name dep = true → hasEdge state name dep = true

/-- No indexed module is older than the deletion of an indexed module it lists. -/
def Uncut (state : State) : Prop :=
  ∀ name dep, indexed state name = true → indexed state dep = true →
    lists state name dep = true → state.cut name dep = false

/-! ## The invariant -/

/-- A declared dependency has its edge exactly when its target was not deleted since. -/
def EdgesTrack (state : State) : Prop :=
  ∀ name dep, lists state name dep = true →
    (hasEdge state name dep = true ↔ state.cut name dep = false)

def WrittenBy (run : String) (state : State) (name : String) : Prop :=
  ∀ dep, lists state name dep = true → state.dependsOn name dep = some run

section Steps
variable {run : String} {state : State}

theorem lists_mergeDep (name dep other target : String) :
    lists (mergeDep run name state dep) other target = lists state other target := by
  unfold lists mergeDep
  by_cases same : other = dep
  · subst same
    cases state.modules other <;> simp
  · simp [Function.update_of_ne same]

theorem dependsOn_mergeDep (name dep other target : String) :
    (mergeDep run name state dep).dependsOn other target =
      if other = name ∧ target = dep then some run else state.dependsOn other target := by
  unfold mergeDep
  by_cases sameName : other = name
  · subst sameName
    by_cases sameDep : target = dep
    · simp [sameDep]
    · simp [sameDep]
  · simp [sameName]

theorem lists_mergeDeps (name other target : String) (depends : List String) :
    lists (depends.foldl (mergeDep run name) state) other target = lists state other target := by
  induction depends generalizing state with
  | nil => rfl
  | cons dep rest ih =>
      rw [List.foldl_cons, ih]
      exact lists_mergeDep name dep other target

theorem cut_mergeDeps (name : String) (depends : List String) :
    (depends.foldl (mergeDep run name) state).cut = state.cut := by
  induction depends generalizing state with
  | nil => rfl
  | cons dep rest ih =>
      rw [List.foldl_cons, ih]
      rfl

theorem dependsOn_mergeDeps (name other target : String) (depends : List String) :
    (depends.foldl (mergeDep run name) state).dependsOn other target =
      if other = name ∧ target ∈ depends then some run else state.dependsOn other target := by
  induction depends generalizing state with
  | nil => simp
  | cons dep rest ih =>
      rw [List.foldl_cons, ih, dependsOn_mergeDep]
      by_cases sameName : other = name
      · by_cases inRest : target ∈ rest
        · simp [sameName, inRest]
        · simp [sameName, inRest]
      · simp [sameName]

theorem lists_mergeModule (module : ModuleInfo) (other target : String) :
    lists (mergeModule run state module) other target =
      if other = module.name then module.depends.contains target else lists state other target := by
  unfold lists mergeModule
  by_cases same : other = module.name
  · simp [same]
  · simp [same]

theorem lists_writeModule (module : ModuleInfo) (other target : String) :
    lists (writeModule run state module) other target =
      if other = module.name then module.depends.contains target else lists state other target := by
  rw [writeModule, lists_mergeDeps, lists_mergeModule]

theorem dependsOn_writeModule (module : ModuleInfo) (other target : String) :
    (writeModule run state module).dependsOn other target =
      if other = module.name ∧ target ∈ module.depends then some run
      else state.dependsOn other target := by
  rw [writeModule, dependsOn_mergeDeps]
  rfl

theorem cut_writeModule (module : ModuleInfo) (other target : String) :
    (writeModule run state module).cut other target =
      if other = module.name then false else state.cut other target := by
  rw [writeModule, cut_mergeDeps]
  by_cases same : other = module.name
  · simp [mergeModule, same]
  · simp [mergeModule, same]

theorem EdgesTrack.write (tracks : EdgesTrack state) (module : ModuleInfo) :
    EdgesTrack (writeModule run state module) := by
  intro name dep listed
  rw [lists_writeModule] at listed
  rw [cut_writeModule, hasEdge, dependsOn_writeModule]
  by_cases same : name = module.name
  · rw [if_pos same] at listed
    have member : dep ∈ module.depends := by simpa using listed
    simp [same, member]
  · rw [if_neg same] at listed
    rw [if_neg same, if_neg fun both => same both.1]
    exact tracks name dep listed

theorem writtenBy_write (module : ModuleInfo) :
    WrittenBy run (writeModule run state module) module.name := by
  intro dep listed
  rw [lists_writeModule, if_pos rfl] at listed
  have member : dep ∈ module.depends := by simpa using listed
  rw [dependsOn_writeModule, if_pos ⟨rfl, member⟩]

theorem WrittenBy.write {name : String} (written : WrittenBy run state name) (module : ModuleInfo) :
    WrittenBy run (writeModule run state module) name := by
  by_cases same : name = module.name
  · rw [same]
    exact writtenBy_write module
  · intro dep listed
    rw [lists_writeModule, if_neg same] at listed
    rw [dependsOn_writeModule, if_neg fun both => same both.1]
    exact written dep listed

theorem EdgesTrack.writes (tracks : EdgesTrack state) (modules : List ModuleInfo) :
    EdgesTrack (modules.foldl (writeModule run) state) := by
  induction modules generalizing state with
  | nil => exact tracks
  | cons module rest ih => exact ih (tracks.write module)

theorem writtenBy_writes (modules : List ModuleInfo) {name : String}
    (written : WrittenBy run state name ∨ name ∈ modules.map (·.name)) :
    WrittenBy run (modules.foldl (writeModule run) state) name := by
  induction modules generalizing state with
  | nil =>
      rcases written with before | inNone
      · exact before
      · cases inNone
  | cons module rest ih =>
      apply ih
      rcases written with before | member
      · exact Or.inl (before.write module)
      · rcases List.mem_cons.mp member with isFirst | later
        · rw [isFirst]
          exact Or.inl (writtenBy_write module)
        · exact Or.inr later

theorem lists_pruneModule (name other target : String) :
    lists (pruneModule run state name) other target = lists state other target := by
  unfold lists pruneModule
  by_cases same : other = name
  · subst same
    cases state.modules other <;> simp
  · simp [Function.update_of_ne same]

theorem dependsOn_pruneModule {name other target : String}
    (stamped : other = name → state.dependsOn other target = some run) :
    (pruneModule run state name).dependsOn other target = state.dependsOn other target := by
  unfold pruneModule
  by_cases same : other = name
  · have known := stamped same
    subst same
    simp [known]
  · simp [Function.update_of_ne same]

theorem EdgesTrack.prune (tracks : EdgesTrack state) {name : String}
    (written : WrittenBy run state name) : EdgesTrack (pruneModule run state name) := by
  intro other dep listed
  rw [lists_pruneModule] at listed
  have kept : (pruneModule run state name).dependsOn other dep = state.dependsOn other dep := by
    apply dependsOn_pruneModule
    intro same
    rw [same] at listed ⊢
    exact written dep listed
  rw [hasEdge, kept]
  exact tracks other dep listed

theorem WrittenBy.prune {other : String} (written : WrittenBy run state other) (name : String) :
    WrittenBy run (pruneModule run state name) other := by
  intro dep listed
  rw [lists_pruneModule] at listed
  rw [dependsOn_pruneModule fun _ => written dep listed]
  exact written dep listed

theorem EdgesTrack.prunes (tracks : EdgesTrack state) (names : List String)
    (written : ∀ name ∈ names, WrittenBy run state name) :
    EdgesTrack (names.foldl (pruneModule run) state) := by
  induction names generalizing state with
  | nil => exact tracks
  | cons name rest ih =>
      apply ih (tracks.prune (written name List.mem_cons_self))
      intro other member
      exact (written other (List.mem_cons_of_mem _ member)).prune name

theorem EdgesTrack.delete (tracks : EdgesTrack state) (deletes : String → Bool) :
    EdgesTrack (deleteModules deletes state) := by
  intro name dep listed
  have stays : deletes name = false := by
    by_contra gone
    simp only [Bool.not_eq_false] at gone
    simp [lists, deleteModules, gone] at listed
  have listedBefore : lists state name dep = true := by
    simpa [lists, deleteModules, stays] using listed
  have before := tracks name dep listedBefore
  unfold hasEdge at before ⊢
  cases gone : deletes dep with
  | true => simp [deleteModules, gone]
  | false => simpa [deleteModules, gone, stays] using before

theorem EdgesTrack.step (tracks : EdgesTrack state) (event : Event) :
    EdgesTrack (step state event) := by
  cases event with
  | indexRun run writes pruned =>
      apply (tracks.writes writes).prunes
      intro name member
      have written := (List.mem_filter.mp member).2
      exact writtenBy_writes writes (Or.inr (List.contains_iff_mem.mp written))
  | retire names | gcNullRepoDepStubs => exact tracks.delete _

end Steps

theorem edgesTrack_run (events : List Event) : EdgesTrack (run step .empty events) := by
  apply run_preserves step EdgesTrack
  · intro state event tracks
    exact tracks.step event
  · intro name dep listed
    cases listed

theorem linked_iff_uncut (events : List Event) :
    Linked (run step .empty events) ↔ Uncut (run step .empty events) := by
  have tracks := edgesTrack_run events
  constructor
  · intro linked name dep nameIndexed depIndexed listed
    exact (tracks name dep listed).mp (linked name dep nameIndexed depIndexed listed)
  · intro uncut name dep nameIndexed depIndexed listed
    exact (tracks name dep listed).mpr (uncut name dep nameIndexed depIndexed listed)

/-- In a history of index runs, retirements and stub GCs every declared dependency between
indexed modules has its edge in every state reached if and only if in none of them an indexed
module was last written before the last deletion of an indexed module it lists. -/
theorem declared_edges_iff (events : List Event) :
    (∀ earlier later, events = earlier ++ later → Linked (run step .empty earlier)) ↔
      ∀ earlier later, events = earlier ++ later → Uncut (run step .empty earlier) := by
  constructor
  · intro linked earlier later split
    exact (linked_iff_uncut earlier).mp (linked earlier later split)
  · intro uncut earlier later split
    exact (linked_iff_uncut earlier).mpr (uncut earlier later split)

/-- One hop of `find_dependent_modules`: the modules with an edge to the frontier. -/
def isDirectDependent (state : State) (frontier seen : List String) (name : String) : Bool :=
  (state.modules name).isSome && (frontier.any fun changed => hasEdge state name changed) &&
    !seen.contains name

def saleInfo : ModuleInfo :=
  { name := "sale", repoId := some 1, depends := ["web_x"], children := ["sale.order"] }

def webInfo : ModuleInfo :=
  { name := "web_x", repoId := some 2, depends := [], children := ["web.x"] }

/-- `sale` lists `web_x`, which no repository ships yet; the GC deletes its stub. -/
def stubCollected : List Event :=
  [.indexRun "r1" [saleInfo] ["sale"], .gcNullRepoDepStubs]

/-- `web_x` appears, and a later full run writes `sale` again, in one run. -/
def writtenTogether : List Event := stubCollected ++ [.indexRun "r2" [webInfo, saleInfo] []]

/-- `web_x` appears in a run that does not write `sale`. -/
def writtenAlone : List Event := stubCollected ++ [.indexRun "r2" [webInfo] ["web_x"]]

theorem written_alone_loses_edge :
    indexed (run step .empty writtenAlone) "sale" = true ∧
      indexed (run step .empty writtenAlone) "web_x" = true ∧
      lists (run step .empty writtenAlone) "sale" "web_x" = true ∧
      hasEdge (run step .empty writtenAlone) "sale" "web_x" = false ∧
      isDirectDependent (run step .empty writtenAlone) ["web_x"] ["web_x"] "sale" = false ∧
      hasEdge (run step .empty writtenTogether) "sale" "web_x" = true := by
  decide +kernel

end OdooSemantic.Neo4j.DepStubs
