import OdooSemantic.Lib.Breadth
import OdooSemantic.Lib.OrderedDict
import OdooSemantic.Lib.Py

/-!
# The modules that depend on changed ones

One query for each hop gives the modules that depend on the last hop's and were not seen
before.  The hops end when one finds nothing, whatever the graph is.
-/

set_option autoImplicit false

namespace OdooSemantic.Indexer.Dependents

open Lib.Breadth
open Lib.OrderedDict
open Lib.Py

structure ModuleNode where
  name : String
  odooVersion : String
  repo : Option String

structure Relationship where
  kind : String
  source : ModuleNode
  target : ModuleNode

abbrev Row := String × Option String

/-- The relationships between modules, and the order in which the rows of an answer come. -/
structure Driver where
  relationships : List Relationship
  deliver : List Row → List Row
  delivers : ∀ rows, (deliver rows).Perm rows

def directDependent (odooVersion : String) (frontier seen : List String) (rel : Relationship) :
    Bool :=
  rel.source.odooVersion = odooVersion ∧ rel.kind = "DEPENDS_ON" ∧
    rel.target.odooVersion = odooVersion ∧ rel.target.name ∈ frontier ∧ rel.source.name ∉ seen

/-- `_CYPHER_DIRECT_DEPENDENT_MODULES`. -/
def Driver.directDependents (driver : Driver) (odooVersion : String)
    (frontier seen : List String) : List Row :=
  driver.deliver ((driver.relationships.filter (directDependent odooVersion frontier seen)).map
    fun rel => (rel.source.name, rel.source.repo)).dedup

structure Walk where
  found : List (String × (Option String × Nat))
  seen : List String
  frontier : List String

def addRow (depth : Nat) (walk : Walk) (row : Row) : Walk :=
  if row.1 ∈ walk.seen then walk
  else
    { found := walk.found ++ [(row.1, (row.2, depth))]
      seen := row.1 :: walk.seen
      frontier := row.1 :: walk.frontier }

def hop (driver : Driver) (odooVersion : String) (depth : Nat) (walk : Walk) : Walk :=
  (driver.directDependents odooVersion (sortedSet walk.frontier) (sortedSet walk.seen)).foldl
    (addRow depth) { walk with frontier := [] }

/-- The loop over the hops; a hop that finds something finds the source of a relationship. -/
def walkFrom (driver : Driver) (odooVersion : String) : Nat → Nat → Walk → Walk
  | 0, _, walk => walk
  | left + 1, depth, walk =>
      if walk.frontier.isEmpty then walk
      else walkFrom driver odooVersion left (depth + 1) (hop driver odooVersion (depth + 1) walk)

def walkOf (driver : Driver) (odooVersion : String) (changedModuleNames : List String) : Walk :=
  walkFrom driver odooVersion (driver.relationships.length + 1) 0
    ⟨[], changedModuleNames, changedModuleNames⟩

def findDependentModules (driver : Driver) (odooVersion : String)
    (changedModuleNames : List String) : List (String × (Option String × Nat)) :=
  if changedModuleNames.isEmpty then []
  else (walkOf driver odooVersion changedModuleNames).found

/-- `DEPENDS_ON` between modules of a version, by name. -/
def DependsOn (driver : Driver) (odooVersion : String) (name dep : String) : Prop :=
  ∃ rel ∈ driver.relationships, rel.kind = "DEPENDS_ON" ∧
    rel.source.odooVersion = odooVersion ∧ rel.source.name = name ∧
    rel.target.odooVersion = odooVersion ∧ rel.target.name = dep

section Walk
variable {driver : Driver} {odooVersion : String}

theorem mem_directDependents {frontier seen : List String} {name : String} :
    (∃ repo, (name, repo) ∈ driver.directDependents odooVersion frontier seen) ↔
      (∃ dep ∈ frontier, DependsOn driver odooVersion name dep) ∧ name ∉ seen := by
  rw [Driver.directDependents]
  simp only [(driver.delivers _).mem_iff, List.mem_dedup, List.mem_map, List.mem_filter,
    directDependent, decide_eq_true_iff]
  constructor
  · intro row
    obtain ⟨repo, rel, ⟨listed, source, kind, target, dep, fresh⟩, same⟩ := row
    cases same
    exact ⟨⟨_, dep, rel, listed, kind, source, rfl, target, rfl⟩, fresh⟩
  · intro depends
    obtain ⟨⟨dep, inFrontier, rel, listed, kind, source, isName, target, isDep⟩, fresh⟩ := depends
    rw [← isDep] at inFrontier
    rw [← isName] at fresh ⊢
    exact ⟨rel.source.repo, rel, ⟨listed, source, kind, target, inFrontier, fresh⟩, rfl⟩

theorem addRows (depth : Nat) (rows : List Row) : ∀ walk : Walk,
    ∃ added : List Row, (rows.foldl (addRow depth) walk).found =
        walk.found ++ added.map (fun row => (row.1, (row.2, depth))) ∧
      (rows.foldl (addRow depth) walk).seen = (added.map Prod.fst).reverse ++ walk.seen ∧
      (rows.foldl (addRow depth) walk).frontier =
        (added.map Prod.fst).reverse ++ walk.frontier ∧
      (added.map Prod.fst).Nodup ∧ (∀ row ∈ added, row ∈ rows) ∧
      ∀ name, name ∈ added.map Prod.fst ↔ (∃ repo, (name, repo) ∈ rows) ∧ name ∉ walk.seen := by
  induction rows with
  | nil =>
      intro walk
      refine ⟨[], (List.append_nil _).symm, rfl, rfl, List.nodup_nil, ?_, ?_⟩
      · intro row listed
        cases listed
      · intro name
        simp
  | cons row rest ih =>
      intro walk
      rw [List.foldl_cons, addRow]
      by_cases known : row.1 ∈ walk.seen
      · rw [if_pos known]
        obtain ⟨added, found, seen, frontier, distinct, listed, names⟩ := ih walk
        refine ⟨added, found, seen, frontier, distinct, ?_, ?_⟩
        · intro one oneIn
          exact List.mem_cons_of_mem row (listed one oneIn)
        · intro name
          rw [names]
          refine and_congr_left fun fresh => ?_
          constructor
          · intro later
            obtain ⟨repo, repoIn⟩ := later
            exact ⟨repo, List.mem_cons_of_mem row repoIn⟩
          · intro some
            obtain ⟨repo, repoIn⟩ := some
            obtain same | later := List.mem_cons.mp repoIn
            · rw [← same] at known
              exact absurd known fresh
            · exact ⟨repo, later⟩
      · rw [if_neg known]
        obtain ⟨added, found, seen, frontier, distinct, listed, names⟩ := ih
          ⟨walk.found ++ [(row.1, (row.2, depth))], row.1 :: walk.seen, row.1 :: walk.frontier⟩
        refine ⟨row :: added, ?_, ?_, ?_, ?_, ?_, ?_⟩
        · rw [found, List.append_assoc, List.map_cons, List.singleton_append]
        · rw [seen, List.map_cons, List.reverse_cons, List.append_assoc, List.singleton_append]
        · rw [frontier, List.map_cons, List.reverse_cons, List.append_assoc,
            List.singleton_append]
        · refine List.nodup_cons.mpr ⟨?_, distinct⟩
          intro again
          exact ((names row.1).mp again).2 List.mem_cons_self
        · intro one oneIn
          obtain same | later := List.mem_cons.mp oneIn
          · rw [same]
            exact List.mem_cons_self
          · exact List.mem_cons_of_mem row (listed one later)
        · intro name
          rw [List.map_cons, List.mem_cons, names, List.mem_cons, not_or]
          constructor
          · intro member
            obtain same | ⟨⟨repo, repoIn⟩, other, fresh⟩ := member
            · rw [same]
              exact ⟨⟨row.2, List.mem_cons_self⟩, known⟩
            · exact ⟨⟨repo, List.mem_cons_of_mem row repoIn⟩, fresh⟩
          · intro member
            obtain ⟨⟨repo, repoIn⟩, fresh⟩ := member
            by_cases same : name = row.1
            · exact .inl same
            · obtain first | later := List.mem_cons.mp repoIn
              · exact absurd (congrArg Prod.fst first) same
              · exact .inr ⟨⟨repo, later⟩, same, fresh⟩

def FromNode (driver : Driver) (odooVersion : String) (name : String) (repo : Option String) :
    Prop :=
  ∃ rel ∈ driver.relationships, rel.source = ⟨name, odooVersion, repo⟩

theorem directDependents_fromNode {frontier seen : List String} {row : Row}
    (listed : row ∈ driver.directDependents odooVersion frontier seen) :
    FromNode driver odooVersion row.1 row.2 := by
  rw [Driver.directDependents, (driver.delivers _).mem_iff, List.mem_dedup, List.mem_map] at listed
  obtain ⟨rel, kept, same⟩ := listed
  obtain ⟨relIn, direct⟩ := List.mem_filter.mp kept
  have version := (of_decide_eq_true direct).1
  refine ⟨rel, relIn, ?_⟩
  rw [← same, ← version]

structure WalkAt (driver : Driver) (odooVersion : String) (seeds : Set String) (depth : Nat)
    (walk : Walk) : Prop where
  seen : ∀ name, name ∈ walk.seen ↔
    ∃ steps ≤ depth, Hops (DependsOn driver odooVersion) seeds steps name
  frontier : ∀ name, name ∈ walk.frontier ↔
    IsDistance (DependsOn driver odooVersion) seeds depth name
  found : ∀ name steps, (∃ repo, (name, (repo, steps)) ∈ walk.found) ↔
    0 < steps ∧ steps ≤ depth ∧ IsDistance (DependsOn driver odooVersion) seeds steps name
  distinct : KeysDistinct walk.found
  fromNode : ∀ item ∈ walk.found, FromNode driver odooVersion item.1 item.2.1

variable {seeds : Set String}

theorem start_at (changed : List String) :
    WalkAt driver odooVersion {name | name ∈ changed} 0 ⟨[], changed, changed⟩ := by
  refine ⟨?_, ?_, ?_, List.nodup_nil, ?_⟩
  · intro name
    constructor
    · intro seed
      exact ⟨0, Nat.le_refl 0, seed⟩
    · intro some
      obtain ⟨steps, bound, hops⟩ := some
      rw [Nat.le_zero.mp bound] at hops
      exact hops
  · intro name
    rw [isDistance_zero]
    rfl
  · intro name steps
    constructor
    · intro some
      obtain ⟨repo, listed⟩ := some
      cases listed
    · intro some
      obtain ⟨positive, bound, -⟩ := some
      omega
  · intro item listed
    cases listed

theorem WalkAt.hop {depth : Nat} {walk : Walk} (known : WalkAt driver odooVersion seeds depth walk) :
    WalkAt driver odooVersion seeds (depth + 1) (hop driver odooVersion (depth + 1) walk) ∧
      (hop driver odooVersion (depth + 1) walk).found.length =
        walk.found.length + (hop driver odooVersion (depth + 1) walk).frontier.length := by
  obtain ⟨added, found, seen, frontier, addedDistinct, addedRows, names⟩ := addRows (depth + 1)
    (driver.directDependents odooVersion (sortedSet walk.frontier) (sortedSet walk.seen))
    { walk with frontier := [] }
  have next : ∀ name, name ∈ added.map Prod.fst ↔
      IsDistance (DependsOn driver odooVersion) seeds (depth + 1) name := by
    intro name
    rw [names, mem_directDependents, isDistance_succ]
    simp only [mem_sortedSet, known.seen, known.frontier]
    constructor
    · intro fresh
      obtain ⟨⟨⟨dep, near, needed⟩, unmet⟩, -⟩ := fresh
      exact ⟨⟨dep, needed, near⟩, fun fewer bound hops => unmet ⟨fewer, bound, hops⟩⟩
    · intro fresh
      obtain ⟨⟨dep, needed, near⟩, unmet⟩ := fresh
      have unseen : ¬ ∃ steps ≤ depth, Hops (DependsOn driver odooVersion) seeds steps name := by
        intro met
        obtain ⟨steps, bound, hops⟩ := met
        exact unmet steps bound hops
      exact ⟨⟨⟨dep, near, needed⟩, unseen⟩, unseen⟩
  rw [Dependents.hop]
  refine ⟨⟨?_, ?_, ?_, ?_, ?_⟩, ?_⟩
  · intro name
    rw [seen, List.mem_append, List.mem_reverse, next]
    dsimp only
    rw [known.seen]
    constructor
    · intro some
      obtain distance | ⟨steps, bound, hops⟩ := some
      · exact ⟨depth + 1, Nat.le_refl _, distance.reached⟩
      · exact ⟨steps, by omega, hops⟩
    · intro some
      obtain ⟨steps, bound, hops⟩ := some
      obtain ⟨fewer, less, distance⟩ := hops.distance
      by_cases last : fewer = depth + 1
      · rw [last] at distance
        exact .inl distance
      · exact .inr ⟨fewer, by omega, distance.reached⟩
  · intro name
    rw [frontier, List.append_nil, List.mem_reverse, next]
  · intro name steps
    rw [found]
    have here : (∃ repo, (name, (repo, steps)) ∈ added.map fun row => (row.1, (row.2, depth + 1))) ↔
        steps = depth + 1 ∧ IsDistance (DependsOn driver odooVersion) seeds (depth + 1) name := by
      rw [← next, List.mem_map]
      simp only [List.mem_map, Prod.mk.injEq]
      constructor
      · intro some
        obtain ⟨repo, row, listed, same, -, last⟩ := some
        exact ⟨last.symm, row, listed, same⟩
      · intro some
        obtain ⟨last, row, listed, same⟩ := some
        exact ⟨row.2, row, listed, same, rfl, last.symm⟩
    have both : (∃ repo, (name, (repo, steps)) ∈ walk.found ++
        added.map fun row => (row.1, (row.2, depth + 1))) ↔
          (∃ repo, (name, (repo, steps)) ∈ walk.found) ∨
            ∃ repo, (name, (repo, steps)) ∈ added.map fun row => (row.1, (row.2, depth + 1)) := by
      simp only [List.mem_append, exists_or]
    rw [both, known.found, here]
    constructor
    · intro some
      obtain ⟨positive, bound, distance⟩ | ⟨last, distance⟩ := some
      · exact ⟨positive, by omega, distance⟩
      · rw [last]
        exact ⟨by omega, Nat.le_refl _, distance⟩
    · intro some
      obtain ⟨positive, bound, distance⟩ := some
      by_cases last : steps = depth + 1
      · rw [last] at distance
        exact .inr ⟨last, distance⟩
      · exact .inl ⟨positive, by omega, distance⟩
  · rw [found, KeysDistinct, List.map_append, List.map_map]
    refine List.Nodup.append known.distinct addedDistinct ?_
    intro name old new
    obtain ⟨item, listed, same⟩ := List.mem_map.mp old
    have seenBefore : name ∈ walk.seen := by
      obtain ⟨-, bound, distance⟩ :=
        (known.found item.1 item.2.2).mp ⟨item.2.1, listed⟩
      rw [← same]
      exact (known.seen item.1).mpr ⟨item.2.2, bound, distance.reached⟩
    exact ((names name).mp new).2 seenBefore
  · rw [found]
    intro item listed
    obtain old | new := List.mem_append.mp listed
    · exact known.fromNode item old
    · obtain ⟨row, rowIn, same⟩ := List.mem_map.mp new
      rw [← same]
      exact directDependents_fromNode (addedRows row rowIn)
  · rw [found, frontier]
    simp

theorem WalkAt.length_le {depth : Nat} {walk : Walk}
    (known : WalkAt driver odooVersion seeds depth walk) :
    walk.found.length ≤ driver.relationships.length := by
  have inside : walk.found.map Prod.fst ⊆
      driver.relationships.map fun rel => rel.source.name := by
    intro name listed
    obtain ⟨item, itemIn, same⟩ := List.mem_map.mp listed
    obtain ⟨rel, relIn, source⟩ := known.fromNode item itemIn
    refine List.mem_map.mpr ⟨rel, relIn, ?_⟩
    rw [source, same]
  have bound := (List.subperm_of_subset known.distinct inside).length_le
  rw [List.length_map, List.length_map] at bound
  exact bound

/-- The walk ends when a hop finds nothing. -/
theorem WalkAt.walkFrom (left : Nat) : ∀ {depth : Nat} {walk : Walk},
    WalkAt driver odooVersion seeds depth walk →
    (walk.frontier = [] ∨ driver.relationships.length < left + walk.found.length) →
    ∃ last, WalkAt driver odooVersion seeds last
        (walkFrom driver odooVersion left depth walk) ∧
      (walkFrom driver odooVersion left depth walk).frontier = [] := by
  induction left with
  | zero =>
      intro depth walk known room
      obtain empty | short := room
      · exact ⟨depth, known, empty⟩
      · have bound := known.length_le
        omega
  | succ left ih =>
      intro depth walk known room
      rw [Dependents.walkFrom]
      by_cases empty : walk.frontier.isEmpty = true
      · rw [if_pos empty]
        exact ⟨depth, known, List.isEmpty_iff.mp empty⟩
      · rw [if_neg empty]
        obtain ⟨after, longer⟩ := known.hop
        refine ih after ?_
        cases ahead : (Dependents.hop driver odooVersion (depth + 1) walk).frontier with
        | nil => exact .inl rfl
        | cons name rest =>
            have more : 0 < (Dependents.hop driver odooVersion (depth + 1) walk).frontier.length := by
              rw [ahead, List.length_cons]
              omega
            obtain none | short := room
            · rw [none] at empty
              exact absurd rfl empty
            · exact .inr (by omega)

end Walk

/-- The walk ends, and it found the modules that reach a changed one and are not changed
themselves, each with the repository of its node and the length of a shortest path. -/
theorem findDependentModules_exact (driver : Driver) (odooVersion : String)
    (changedModuleNames : List String) :
    (walkOf driver odooVersion changedModuleNames).frontier = [] ∧
      (∀ name depth, ((findDependentModules driver odooVersion changedModuleNames).lookup name).map
          Prod.snd = some depth ↔
        name ∉ changedModuleNames ∧
          IsDistance (DependsOn driver odooVersion) {seed | seed ∈ changedModuleNames} depth name) ∧
      ∀ name repo depth, (findDependentModules driver odooVersion changedModuleNames).lookup name =
        some (repo, depth) → FromNode driver odooVersion name repo := by
  obtain ⟨last, known, ended⟩ := (@start_at driver odooVersion
    changedModuleNames).walkFrom (driver.relationships.length + 1) (.inr (by simp))
  have result : findDependentModules driver odooVersion changedModuleNames =
      (walkOf driver odooVersion changedModuleNames).found := by
    rw [findDependentModules]
    by_cases empty : changedModuleNames.isEmpty = true
    · rw [if_pos empty, walkOf, walkFrom, if_pos empty]
    · rw [if_neg empty]
  rw [← walkOf] at known ended
  have beyond : ∀ depth name, IsDistance (DependsOn driver odooVersion)
      {seed | seed ∈ changedModuleNames} depth name → depth < last := by
    intro depth name distance
    by_contra far
    obtain ⟨more, split⟩ := Nat.exists_eq_add_of_le (Nat.le_of_not_lt far)
    rw [split] at distance
    refine IsDistance.gap ?_ more name distance
    intro one here
    have waits := (known.frontier one).mpr here
    rw [ended] at waits
    cases waits
  refine ⟨ended, ?_, ?_⟩
  · intro name depth
    rw [result]
    have read : ((walkOf driver odooVersion changedModuleNames).found.lookup name).map Prod.snd =
        some depth ↔ ∃ repo, (name, (repo, depth)) ∈
          (walkOf driver odooVersion changedModuleNames).found := by
      rw [Option.map_eq_some_iff]
      constructor
      · intro some
        obtain ⟨value, found, same⟩ := some
        refine ⟨value.1, ?_⟩
        rw [← same]
        exact lookup_mem found
      · intro some
        obtain ⟨repo, listed⟩ := some
        exact ⟨(repo, depth), lookup_of_mem known.distinct listed, rfl⟩
    rw [read, known.found]
    constructor
    · intro found
      obtain ⟨positive, -, distance⟩ := found
      exact ⟨distance.least 0 positive, distance⟩
    · intro reaches
      obtain ⟨fresh, distance⟩ := reaches
      have far := beyond depth name distance
      refine ⟨Nat.pos_of_ne_zero ?_, by omega, distance⟩
      intro zero
      rw [zero] at distance
      have seed : name ∈ {seed | seed ∈ changedModuleNames} := isDistance_zero.mp distance
      exact fresh seed
  · intro name repo depth found
    rw [result] at found
    exact known.fromNode _ (lookup_mem found)

def chainNode (name : String) : ModuleNode := ⟨name, "17.0", some "shop"⟩

/-- `sale` depends on `account`, which depends on `base`. -/
def chainDriver : Driver where
  relationships := [⟨"DEPENDS_ON", chainNode "sale", chainNode "account"⟩,
    ⟨"DEPENDS_ON", chainNode "account", chainNode "base"⟩]
  deliver rows := rows
  delivers rows := List.Perm.refl rows

/-- A dependent of a dependent is found although a bound of one hop would leave it out. -/
theorem dependents_past_bound : ¬ ∀ (driver : Driver) (odooVersion : String)
    (changedModuleNames : List String) (bound : Nat) (name : String) (depth : Nat),
    ((findDependentModules driver odooVersion changedModuleNames).lookup name).map
        Prod.snd = some depth ↔
      name ∉ changedModuleNames ∧ depth ≤ bound ∧
        IsDistance (DependsOn driver odooVersion) {seed | seed ∈ changedModuleNames} depth
          name := by
  intro bounded
  have found : ((findDependentModules chainDriver "17.0" ["base"]).lookup "sale").map
      Prod.snd = some 2 := by
    decide +kernel
  obtain ⟨-, near, -⟩ := (bounded chainDriver "17.0" ["base"] 1 "sale" 2).mp found
  exact absurd near (by decide)

end OdooSemantic.Indexer.Dependents
