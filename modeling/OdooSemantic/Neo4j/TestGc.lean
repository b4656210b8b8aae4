import OdooSemantic.Lifecycle.Gates

/-!
# Garbage collection of test nodes

An index run deletes the `TestClass` and `TestMethod` nodes of its repository that its scan or
its re-parse no longer has.  A node carries the basename of the checkout as its repository, so
the run also judges the nodes of another repository whose checkout has the same basename.
-/

set_option autoImplicit false

namespace OdooSemantic.Neo4j.TestGc

open Lib.Py
open Ledger.Rows Lifecycle.Gates

structure TestClassInfo where
  name : String
  module : String
  filePath : String
  odooVersion : String
  methods : List String

/-- The columns of `ModuleInfo` the writer and the collection read. -/
structure ParsedModule where
  name : String
  odooVersion : String
  repo : String

structure TestParseResult where
  module : ParsedModule
  testClasses : List TestClassInfo

/-- The `MERGE` key of a `TestMethod`, or of a `TestClass` when `testClass` is missing. -/
structure TestNode where
  name : String
  testClass : Option String
  module : String
  filePath : String
  repo : String
  odooVersion : String
  deriving DecidableEq

def classNode (repo : String) (testClass : TestClassInfo) : TestNode :=
  { name := testClass.name
    testClass := none
    module := testClass.module
    filePath := testClass.filePath
    repo
    odooVersion := testClass.odooVersion }

def methodNode (repo : String) (testClass : TestClassInfo) (method : String) : TestNode :=
  { classNode repo testClass with name := method, testClass := some testClass.name }

/-- The nodes `_write_test_classes_batch` merges. -/
def testNodes (result : TestParseResult) : List TestNode :=
  result.testClasses.flatMap fun testClass =>
    classNode result.module.repo testClass ::
      testClass.methods.map (methodNode result.module.repo testClass)

structure ParsedRepo where
  basename : String
  lastParse : List TestParseResult
  sameRepo : ∀ result ∈ lastParse, result.module.repo = basename

def ParsedRepo.nodes (repo : ParsedRepo) : List TestNode :=
  repo.lastParse.flatMap testNodes

theorem ParsedRepo.nodes_repo (repo : ParsedRepo) : ∀ node ∈ repo.nodes, node.repo = repo.basename := by
  intro node member
  obtain ⟨result, isResult, inResult⟩ := List.mem_flatMap.mp member
  obtain ⟨testClass, -, isNode⟩ := List.mem_flatMap.mp inResult
  rw [← repo.sameRepo result isResult]
  rcases List.mem_cons.mp isNode with rfl | isMethod
  · rfl
  · obtain ⟨method, -, rfl⟩ := List.mem_map.mp isMethod
    rfl

/-- What one index run hands to the collection.  `queriesRun` is how many of the four deletes
of a version run before the driver fails, if it does. -/
structure IndexRun where
  repoRootName : String
  retire : Bool
  scan : RegistryScan
  gates : GateResult
  modulesByVersion : List (String × List String)
  pruned : List (String × String)
  degraded : String × String → Bool
  testResults : List TestParseResult
  queriesRun : String → Nat
  versionsOnce : (scan.modules.map Prod.fst).Nodup

section Names
variable (run : IndexRun)

def liveModuleNamesByVersion : List (String × List String) :=
  run.scan.modules.map fun entry => (entry.1, entry.2.map Prod.fst)

/-- `live[version].update(names)` of a dict that has the version. -/
def updateVersion (live : List (String × List String)) (version : String) (names : List String) :
    List (String × List String) :=
  live.map fun entry => if entry.1 = version then (entry.1, entry.2 ++ names) else entry

/-- `live.setdefault(version, set())`. -/
def setDefault (live : List (String × List String)) (version : String) :
    List (String × List String) :=
  if version ∈ live.map Prod.fst then live else live ++ [(version, [])]

/-- One unproven drop against the graph baseline, `name@version`. -/
def keepUnproven (live : List (String × List String)) (item : String) :
    List (String × List String) :=
  match rpartition '@' item with
  | some (name, version) =>
      if name ≠ "" then updateVersion live version [name] else live
  | none => live

def testGcLiveNames : List (String × List String) :=
  let live := setDefault (liveModuleNamesByVersion run) run.scan.odooVersion
  let live := updateVersion live run.scan.odooVersion run.scan.unparseableNames
  let live := updateVersion live run.scan.odooVersion run.gates.keptNames
  if run.gates.baseline = .graph ∧ run.gates.allowUnproven = false then
    run.gates.unproven.foldl keepUnproven live
  else live

def testGcJudged : List (String × String) :=
  (run.modulesByVersion.flatMap fun entry => entry.2.map (entry.1, ·)).filter fun key =>
    run.pruned.contains key || run.degraded key

def unjudgedResults (version : String) : List TestParseResult :=
  run.testResults.filter fun result =>
    result.module.odooVersion == version &&
      !(testGcJudged run).contains (version, result.module.name)

def reparsed (version : String) : List String :=
  (unjudgedResults run version).map fun result => result.module.name

def liveTestFiles (version : String) : List String :=
  ((unjudgedResults run version).flatMap fun result =>
    result.testClasses.map TestClassInfo.filePath).filter (· ≠ "")

end Names

/-- `WHERE NOT n.module IN $live_modules`. -/
def moduleGone (version repo : String) (liveModules : List String) (node : TestNode) : Bool :=
  decide (node.odooVersion = version ∧ node.module ∉ liveModules ∧ node.repo = repo)

/-- `WHERE n.module IN $file_gc_modules AND NOT n.file_path IN $live_files`. -/
def fileGone (version repo : String) (fileGcModules liveFiles : List String) (node : TestNode) :
    Bool :=
  decide (node.odooVersion = version ∧ (node.module ∈ fileGcModules ∧ node.filePath ∉ liveFiles) ∧
    node.repo = repo)

def isMethod (node : TestNode) : Bool := node.testClass.isSome

/-- The deletes of `gc_stale_test_nodes`, in order. -/
def deletes (version repo : String) (liveModules fileGcModules liveFiles : List String) :
    List (TestNode → Bool) :=
  [fun node => isMethod node && moduleGone version repo liveModules node,
    fun node => !isMethod node && moduleGone version repo liveModules node,
    fun node => isMethod node && fileGone version repo fileGcModules liveFiles node,
    fun node => !isMethod node && fileGone version repo fileGcModules liveFiles node]

/-- A failing delete ends the call; the deletes before it stay. -/
def gcStaleTestNodes (queriesRun : Nat) (version repo : String)
    (liveModules fileGcModules liveFiles : List String) (graph : List TestNode) : List TestNode :=
  if liveModules = [] then graph
  else
    ((deletes version repo liveModules fileGcModules liveFiles).take queriesRun).foldl
      (fun graph delete => graph.filter fun node => !delete node) graph

/-- The collection of one run: `_index_repo` calls `_gc_stale_test_nodes` with a trusted and
complete scan that has a module, unless the run deletes nothing. -/
def gcOfRun (run : IndexRun) (graph : List TestNode) : List TestNode :=
  if run.retire ∧ run.gates.scanOk ∧ run.scan.presentNames ≠ [] then
    (testGcLiveNames run).foldl (fun graph entry =>
      gcStaleTestNodes (run.queriesRun entry.1) entry.1 run.repoRootName entry.2
        (reparsed run entry.1) (liveTestFiles run entry.1) graph) graph
  else graph

section Kept
variable {live : List (String × List String)} {version name : String}

def Covers (live : List (String × List String)) (version : String) : Prop :=
  version ∈ live.map Prod.fst

def NameIn (live : List (String × List String)) (version name : String) : Prop :=
  ∃ names, (version, names) ∈ live ∧ name ∈ names

theorem updateVersion_keys (changed : String) (names : List String) :
    (updateVersion live changed names).map Prod.fst = live.map Prod.fst := by
  rw [updateVersion, List.map_map]
  refine List.map_congr_left fun entry _ => ?_
  simp only [Function.comp_apply]
  split <;> rfl

theorem nameIn_updateVersion (changed : String) (names : List String) :
    NameIn (updateVersion live changed names) version name ↔
      NameIn live version name ∨ version = changed ∧ Covers live version ∧ name ∈ names := by
  simp only [NameIn, updateVersion, Covers, List.mem_map]
  constructor
  · rintro ⟨updated, ⟨entry, member, same⟩, isName⟩
    by_cases isChanged : entry.1 = changed
    · rw [if_pos isChanged] at same
      cases same
      rcases List.mem_append.mp isName with old | new
      · exact Or.inl ⟨entry.2, member, old⟩
      · exact Or.inr ⟨isChanged, ⟨entry, member, rfl⟩, new⟩
    · rw [if_neg isChanged] at same
      subst same
      exact Or.inl ⟨updated, member, isName⟩
  · rintro (⟨old, member, isName⟩ | ⟨rfl, ⟨entry, member, rfl⟩, isName⟩)
    · by_cases isChanged : version = changed
      · exact ⟨old ++ names, ⟨(version, old), member, by rw [if_pos isChanged]⟩,
          List.mem_append_left _ isName⟩
      · exact ⟨old, ⟨(version, old), member, by rw [if_neg isChanged]⟩, isName⟩
    · exact ⟨entry.2 ++ names, ⟨entry, member, by rw [if_pos rfl]⟩, List.mem_append_right _ isName⟩

theorem covers_setDefault (added : String) :
    Covers (setDefault live added) version ↔ Covers live version ∨ version = added := by
  unfold setDefault Covers
  by_cases known : added ∈ live.map Prod.fst
  · rw [if_pos known]
    constructor
    · exact Or.inl
    · rintro (old | rfl)
      · exact old
      · exact known
  · rw [if_neg known, List.map_append, List.mem_append]
    simp

theorem nameIn_setDefault (added : String) :
    NameIn (setDefault live added) version name ↔ NameIn live version name := by
  unfold setDefault NameIn
  split
  · rfl
  · simp only [List.mem_append, List.mem_singleton, Prod.mk.injEq]
    constructor
    · rintro ⟨names, old | ⟨rfl, rfl⟩, isName⟩
      · exact ⟨names, old, isName⟩
      · cases isName
    · rintro ⟨names, old, isName⟩
      exact ⟨names, Or.inl old, isName⟩

theorem setDefault_nodup (added : String) (nodup : (live.map Prod.fst).Nodup) :
    ((setDefault live added).map Prod.fst).Nodup := by
  unfold setDefault
  by_cases known : added ∈ live.map Prod.fst
  · rw [if_pos known]
    exact nodup
  · rw [if_neg known, List.map_append]
    exact nodup.append (List.nodup_singleton _) (by simpa using known)

theorem keepUnproven_keys (item : String) :
    (keepUnproven live item).map Prod.fst = live.map Prod.fst := by
  unfold keepUnproven
  split
  · split
    · exact updateVersion_keys _ _
    · rfl
  · rfl

theorem nameIn_keepUnproven (item : String) :
    NameIn (keepUnproven live item) version name ↔
      NameIn live version name ∨
        rpartition '@' item = some (name, version) ∧ name ≠ "" ∧ Covers live version := by
  unfold keepUnproven
  cases parts : rpartition '@' item with
  | none => simp
  | some pair =>
      obtain ⟨isName, isVersion⟩ := pair
      by_cases empty : isName = ""
      · subst empty
        simp only [ne_eq, not_true_eq_false, if_false, Option.some.injEq, Prod.mk.injEq]
        constructor
        · exact Or.inl
        · rintro (old | ⟨⟨rfl, -⟩, nonempty, -⟩)
          · exact old
          · exact absurd rfl nonempty
      · simp only [ne_eq, empty, not_false_eq_true, if_true, nameIn_updateVersion,
          List.mem_singleton, Option.some.injEq, Prod.mk.injEq]
        constructor
        · rintro (old | ⟨rfl, covered, rfl⟩)
          · exact Or.inl old
          · exact Or.inr ⟨⟨rfl, rfl⟩, empty, covered⟩
        · rintro (old | ⟨⟨rfl, rfl⟩, -, covered⟩)
          · exact Or.inl old
          · exact Or.inr ⟨rfl, covered, rfl⟩

theorem foldl_keepUnproven_keys (items : List String) : ∀ live,
    (items.foldl keepUnproven live).map Prod.fst = live.map Prod.fst := by
  induction items with
  | nil => exact fun live => rfl
  | cons item rest ih =>
      intro live
      rw [List.foldl_cons, ih, keepUnproven_keys]

theorem nameIn_foldl_keepUnproven (items : List String) : ∀ live,
    (NameIn (items.foldl keepUnproven live) version name ↔
      NameIn live version name ∨
        (∃ item ∈ items, rpartition '@' item = some (name, version)) ∧ name ≠ "" ∧
          Covers live version) := by
  induction items with
  | nil => intro live; simp
  | cons item rest ih =>
      intro live
      have covered : Covers (keepUnproven live item) version ↔ Covers live version := by
        rw [Covers, keepUnproven_keys, Covers]
      rw [List.foldl_cons, ih, nameIn_keepUnproven, covered, List.exists_mem_cons_iff]
      tauto

end Kept

section Endangered
variable (run : IndexRun)

def Visited (version : String) : Prop :=
  version ∈ run.scan.modules.map Prod.fst ∨ version = run.scan.odooVersion

def Keeps (version name : String) : Prop :=
  (∃ modules, (version, modules) ∈ run.scan.modules ∧ name ∈ modules.map Prod.fst) ∨
    version = run.scan.odooVersion ∧
      (name ∈ run.scan.unparseableNames ∨ name ∈ run.gates.keptNames) ∨
    (run.gates.baseline = .graph ∧ run.gates.allowUnproven = false) ∧
      (∃ item ∈ run.gates.unproven, rpartition '@' item = some (name, version)) ∧ name ≠ "" ∧
        Visited run version

/-- A module that was parsed in this run and that the entity prune did not judge. -/
def Reparsed (version name : String) : Prop :=
  ∃ result ∈ run.testResults, result.module.odooVersion = version ∧ result.module.name = name ∧
    (version, name) ∉ testGcJudged run

def Emits (version filePath : String) : Prop :=
  ∃ result ∈ run.testResults, result.module.odooVersion = version ∧
    (version, result.module.name) ∉ testGcJudged run ∧
      ∃ testClass ∈ result.testClasses, testClass.filePath = filePath ∧ filePath ≠ ""

/-- The place of the delete that reaches the node at the module level; at the file level it is
two later. -/
def stage (node : TestNode) : Nat := if isMethod node then 0 else 1

/-- The run deletes test nodes at all. -/
def Collects : Prop := run.retire ∧ run.gates.scanOk ∧ run.scan.presentNames ≠ []

/-- The run deletes the node if it carries the basename of the run's checkout. -/
def Endangered (node : TestNode) : Prop :=
  Collects run ∧ Visited run node.odooVersion ∧ (∃ name, Keeps run node.odooVersion name) ∧
    (¬ Keeps run node.odooVersion node.module ∧ stage node < run.queriesRun node.odooVersion ∨
      Reparsed run node.odooVersion node.module ∧ ¬ Emits run node.odooVersion node.filePath ∧
        stage node + 2 < run.queriesRun node.odooVersion)

variable {run} {version name : String} {node : TestNode}

theorem covers_scan :
    Covers (setDefault (liveModuleNamesByVersion run) run.scan.odooVersion) version ↔
      Visited run version := by
  rw [covers_setDefault, Visited, Covers, liveModuleNamesByVersion, List.map_map]
  rfl

theorem nameIn_scan :
    NameIn (liveModuleNamesByVersion run) version name ↔
      ∃ modules, (version, modules) ∈ run.scan.modules ∧ name ∈ modules.map Prod.fst := by
  simp only [NameIn, liveModuleNamesByVersion, List.mem_map (l := run.scan.modules)]
  constructor
  · rintro ⟨names, ⟨entry, member, same⟩, isName⟩
    cases same
    exact ⟨entry.2, member, isName⟩
  · rintro ⟨modules, member, isName⟩
    exact ⟨_, ⟨(version, modules), member, rfl⟩, isName⟩

theorem testGcLiveNames_keys : (testGcLiveNames run).map Prod.fst =
    (setDefault (liveModuleNamesByVersion run) run.scan.odooVersion).map Prod.fst := by
  simp only [testGcLiveNames]
  split
  · rw [foldl_keepUnproven_keys, updateVersion_keys, updateVersion_keys]
  · rw [updateVersion_keys, updateVersion_keys]

theorem nameIn_testGcLiveNames :
    NameIn (testGcLiveNames run) version name ↔ Keeps run version name := by
  have here : ∀ holds : Prop, (version = run.scan.odooVersion ∧ Visited run version ∧ holds) ↔
      version = run.scan.odooVersion ∧ holds :=
    fun holds => and_congr_right fun same => and_iff_right (Or.inr same)
  simp only [testGcLiveNames]
  have updated : NameIn (updateVersion (updateVersion
      (setDefault (liveModuleNamesByVersion run) run.scan.odooVersion) run.scan.odooVersion
        run.scan.unparseableNames) run.scan.odooVersion run.gates.keptNames) version name ↔
      (∃ modules, (version, modules) ∈ run.scan.modules ∧ name ∈ modules.map Prod.fst) ∨
        version = run.scan.odooVersion ∧
          (name ∈ run.scan.unparseableNames ∨ name ∈ run.gates.keptNames) := by
    have covered : Covers (updateVersion
        (setDefault (liveModuleNamesByVersion run) run.scan.odooVersion) run.scan.odooVersion
          run.scan.unparseableNames) version ↔ Visited run version := by
      rw [Covers, updateVersion_keys]
      exact covers_scan
    rw [nameIn_updateVersion, nameIn_updateVersion, nameIn_setDefault, nameIn_scan, covered,
      covers_scan, here, here, or_assoc, ← and_or_left]
  by_cases graph : run.gates.baseline = .graph ∧ run.gates.allowUnproven = false
  · rw [if_pos graph, nameIn_foldl_keepUnproven, updated, Covers, updateVersion_keys,
      updateVersion_keys]
    rw [show version ∈ (setDefault (liveModuleNamesByVersion run) run.scan.odooVersion).map Prod.fst ↔
      Visited run version from covers_scan, Keeps, and_iff_right graph, or_assoc]
  · rw [if_neg graph, updated]
    simp only [Keeps, graph, false_and, or_false]

theorem mem_testGcLiveNames {names : List String} (entry : (version, names) ∈ testGcLiveNames run) :
    ∀ name, name ∈ names ↔ Keeps run version name := by
  intro name
  have nodup : ((testGcLiveNames run).map Prod.fst).Nodup := by
    rw [testGcLiveNames_keys]
    refine setDefault_nodup _ ?_
    rw [liveModuleNamesByVersion, List.map_map]
    exact run.versionsOnce
  rw [← nameIn_testGcLiveNames]
  constructor
  · exact fun isName => ⟨names, entry, isName⟩
  · rintro ⟨names', entry', isName⟩
    have same := List.inj_on_of_nodup_map nodup entry' entry rfl
    cases same
    exact isName

theorem exists_testGcLiveNames :
    (∃ names, (version, names) ∈ testGcLiveNames run) ↔ Visited run version := by
  rw [← covers_scan, Covers, ← testGcLiveNames_keys, List.mem_map]
  constructor
  · rintro ⟨names, entry⟩
    exact ⟨(version, names), entry, rfl⟩
  · rintro ⟨entry, member, rfl⟩
    exact ⟨entry.2, member⟩

theorem mem_reparsed : name ∈ reparsed run version ↔ Reparsed run version name := by
  simp only [reparsed, unjudgedResults, Reparsed, List.mem_map, List.mem_filter,
    Bool.and_eq_true, beq_iff_eq, Bool.not_eq_true', contains_eq_false_iff]
  constructor
  · rintro ⟨result, ⟨member, isVersion, unjudged⟩, rfl⟩
    exact ⟨result, member, isVersion, rfl, unjudged⟩
  · rintro ⟨result, member, isVersion, rfl, unjudged⟩
    exact ⟨result, ⟨member, isVersion, unjudged⟩, rfl⟩

theorem mem_liveTestFiles {filePath : String} :
    filePath ∈ liveTestFiles run version ↔ Emits run version filePath := by
  simp only [liveTestFiles, unjudgedResults, Emits, List.mem_filter, List.mem_flatMap, List.mem_map,
    Bool.and_eq_true, beq_iff_eq, Bool.not_eq_true', contains_eq_false_iff, decide_eq_true_eq]
  constructor
  · rintro ⟨⟨result, ⟨member, isVersion, unjudged⟩, testClass, isClass, rfl⟩, nonempty⟩
    exact ⟨result, member, isVersion, unjudged, testClass, isClass, rfl, nonempty⟩
  · rintro ⟨result, member, isVersion, unjudged, testClass, isClass, rfl, nonempty⟩
    exact ⟨⟨result, ⟨member, isVersion, unjudged⟩, testClass, isClass, rfl⟩, nonempty⟩

theorem mem_foldl_filter {Item : Type} {item : Item} (drops : List (Item → Bool)) :
    ∀ items : List Item,
      (item ∈ drops.foldl (fun items drop => items.filter fun item => !drop item) items ↔
        item ∈ items ∧ ∀ drop ∈ drops, drop item = false) := by
  induction drops with
  | nil => intro items; simp
  | cons drop rest ih =>
      intro items
      rw [List.foldl_cons, ih, List.mem_filter, List.forall_mem_cons, Bool.not_eq_true', and_assoc]

theorem deletes_take {repo : String} {liveModules fileGcModules liveFiles : List String}
    (queriesRun : Nat) :
    (∀ delete ∈ (deletes version repo liveModules fileGcModules liveFiles).take queriesRun,
        delete node = false) ↔
      ¬ (moduleGone version repo liveModules node = true ∧ stage node < queriesRun ∨
        fileGone version repo fileGcModules liveFiles node = true ∧
          stage node + 2 < queriesRun) := by
  have four : queriesRun = 0 ∨ queriesRun = 1 ∨ queriesRun = 2 ∨ queriesRun = 3 ∨
      ∃ more, queriesRun = more + 4 := by
    rcases Nat.lt_or_ge queriesRun 4 with few | many
    · omega
    · exact Or.inr (Or.inr (Or.inr (Or.inr ⟨queriesRun - 4, by omega⟩)))
  cases kind : isMethod node with
  | true | false =>
      rcases four with rfl | rfl | rfl | rfl | ⟨more, rfl⟩ <;> simp [deletes, stage, kind]

theorem moduleGone_iff {repo : String} {names : List String} :
    moduleGone version repo names node = true ↔
      node.odooVersion = version ∧ node.module ∉ names ∧ node.repo = repo := by
  rw [moduleGone, decide_eq_true_eq]

theorem fileGone_iff : fileGone version run.repoRootName (reparsed run version)
      (liveTestFiles run version) node = true ↔
    node.odooVersion = version ∧ (Reparsed run version node.module ∧
      ¬ Emits run version node.filePath) ∧ node.repo = run.repoRootName := by
  rw [fileGone, decide_eq_true_eq, mem_reparsed, mem_liveTestFiles]

theorem mem_gcStaleTestNodes {names : List String} {graph : List TestNode}
    (collects : Collects run) (entry : (version, names) ∈ testGcLiveNames run) :
    node ∈ gcStaleTestNodes (run.queriesRun version) version run.repoRootName names
        (reparsed run version) (liveTestFiles run version) graph ↔
      node ∈ graph ∧ ¬ (node.odooVersion = version ∧ node.repo = run.repoRootName ∧
        Endangered run node) := by
  have keeps := mem_testGcLiveNames entry
  have visited : Visited run version := exists_testGcLiveNames.mp ⟨names, entry⟩
  unfold gcStaleTestNodes
  by_cases empty : names = []
  · rw [if_pos empty]
    have nothing : ∀ name, ¬ Keeps run version name := by
      intro name kept
      rw [← keeps, empty] at kept
      cases kept
    constructor
    · intro member
      refine ⟨member, ?_⟩
      rintro ⟨rfl, -, endangered⟩
      obtain ⟨name, kept⟩ := endangered.2.2.1
      exact nothing name kept
    · exact And.left
  · rw [if_neg empty, mem_foldl_filter, deletes_take, moduleGone_iff, fileGone_iff, keeps]
    refine and_congr_right fun _ => not_congr ?_
    obtain ⟨name, isName⟩ := List.exists_mem_of_ne_nil names empty
    constructor
    · rintro (⟨⟨rfl, gone, sameRepo⟩, early⟩ | ⟨⟨rfl, gone, sameRepo⟩, early⟩)
      · exact ⟨rfl, sameRepo, collects, visited, ⟨name, (keeps name).mp isName⟩,
          Or.inl ⟨gone, early⟩⟩
      · exact ⟨rfl, sameRepo, collects, visited, ⟨name, (keeps name).mp isName⟩,
          Or.inr ⟨gone.1, gone.2, early⟩⟩
    · rintro ⟨rfl, sameRepo, endangered⟩
      rcases endangered.2.2.2 with ⟨gone, early⟩ | ⟨isReparsed, gone, early⟩
      · exact Or.inl ⟨⟨rfl, gone, sameRepo⟩, early⟩
      · exact Or.inr ⟨⟨rfl, ⟨isReparsed, gone⟩, sameRepo⟩, early⟩

theorem mem_gcOfRun {graph : List TestNode} : node ∈ gcOfRun run graph ↔
    node ∈ graph ∧ ¬ (node.repo = run.repoRootName ∧ Endangered run node) := by
  unfold gcOfRun
  by_cases collects : run.retire ∧ run.gates.scanOk ∧ run.scan.presentNames ≠ []
  · rw [if_pos collects]
    have loop : ∀ entries : List (String × List String),
        (∀ entry ∈ entries, entry ∈ testGcLiveNames run) → ∀ graph : List TestNode,
        (node ∈ entries.foldl (fun graph entry =>
            gcStaleTestNodes (run.queriesRun entry.1) entry.1 run.repoRootName entry.2
              (reparsed run entry.1) (liveTestFiles run entry.1) graph) graph ↔
          node ∈ graph ∧ ∀ entry ∈ entries, ¬ (node.odooVersion = entry.1 ∧
            node.repo = run.repoRootName ∧ Endangered run node)) := by
      intro entries
      induction entries with
      | nil => intro _ graph; simp
      | cons entry rest ih =>
          intro inside graph
          rw [List.foldl_cons, ih fun other member => inside other (List.mem_cons_of_mem _ member),
            mem_gcStaleTestNodes collects (inside entry List.mem_cons_self), List.forall_mem_cons,
            and_assoc]
    rw [loop _ fun _ member => member]
    refine and_congr_right fun _ => ?_
    constructor
    · rintro spared ⟨sameRepo, endangered⟩
      obtain ⟨names, entry⟩ := exists_testGcLiveNames.mpr endangered.2.1
      exact spared _ entry ⟨rfl, sameRepo, endangered⟩
    · exact fun spared entry _ isEntry => spared isEntry.2
  · rw [if_neg collects]
    constructor
    · exact fun member => ⟨member, fun isEndangered => collects isEndangered.2.1⟩
    · exact And.left

end Endangered

/-- The collection of a run leaves the parsed test nodes of the other repositories exactly when
it endangers none of a repository whose checkout has the same basename. -/
theorem gcOfRun_spares_iff (run : IndexRun) (others : List ParsedRepo) (graph : List TestNode) :
    (∀ other ∈ others, ∀ node ∈ other.nodes, node ∈ graph → node ∈ gcOfRun run graph) ↔
      ∀ other ∈ others, other.basename = run.repoRootName →
        ∀ node ∈ other.nodes, node ∈ graph → ¬ Endangered run node := by
  refine forall₂_congr fun other _ => ?_
  constructor
  · intro spared sameName node isNode inGraph
    have kept := (mem_gcOfRun.mp (spared node isNode inGraph)).2
    exact fun endangered => kept ⟨(other.nodes_repo node isNode).trans sameName, endangered⟩
  · intro safe node isNode inGraph
    refine mem_gcOfRun.mpr ⟨inGraph, ?_⟩
    rintro ⟨sameRepo, endangered⟩
    exact safe ((other.nodes_repo node isNode).symm.trans sameRepo) node isNode inGraph endangered

def saleRun : IndexRun where
  repoRootName := "addons"
  retire := true
  scan :=
    { odooVersion := "17.0"
      branch := some "17.0"
      modules := [("17.0", [("sale", ⟨"sale", none, false⟩)])]
      excluded := []
      shadowed := []
      finderPaths := ["sale/__manifest__.py"]
      untracked := []
      missing := []
      unreadable := []
      complete := true }
  gates :=
    { scanOk := true
      massOk := true
      nSoftDrop := 0
      nPresentBefore := 1
      tripped := []
      bypassed := []
      reasons := []
      baseline := .ledger
      unproven := []
      allowUnproven := false }
  modulesByVersion := []
  pruned := []
  degraded _ := false
  testResults := []
  queriesRun _ := 4
  versionsOnce := by decide

def purchaseRepo : ParsedRepo where
  basename := "addons"
  lastParse := [⟨⟨"purchase", "17.0", "addons"⟩,
    [⟨"TestPurchase", "purchase", "purchase/tests/test_purchase.py", "17.0", []⟩]⟩]
  sameRepo := by decide

/-- A run without changes deletes the tests of the other repository. -/
theorem gcOfRun_other_repo :
    ¬ ∀ (run : IndexRun) (others : List ParsedRepo) (graph : List TestNode),
      ∀ other ∈ others, ∀ node ∈ other.nodes, node ∈ graph → node ∈ gcOfRun run graph := by
  intro spares
  have spared := spares saleRun [purchaseRepo] purchaseRepo.nodes purchaseRepo List.mem_cons_self
    ⟨"TestPurchase", none, "purchase", "purchase/tests/test_purchase.py", "addons", "17.0"⟩
    (by decide) (by decide)
  exact absurd spared (by decide)

end OdooSemantic.Neo4j.TestGc
