import Mathlib.Data.Prod.Lex
import Mathlib.Data.String.Basic
import OdooSemantic.Lib.Levels
import OdooSemantic.Lib.OrderedDict
import OdooSemantic.Lib.Picks

/-!
# The base classes of test classes

A declared base name is linked to the definition that Python would import: candidates are ranked
by the import, the child's module, the framework and the dependencies, and the first is linked
with all its copies.
-/

set_option autoImplicit false

namespace OdooSemantic.Neo4j.TestBases

open Lib.Breadth Lib.Levels Lib.OrderedDict
open Lib.Picks Lib.Py

/-- Module names with the names their manifest depends on. -/
abbrev Depends := List (String × List String)

def dependsOf (depends : Depends) (name : String) : List String :=
  (depends.lookup name).getD []

/-- `_IMPLICIT_DEPENDENCY_MODULE`. -/
def implicitDependency : String := "base"

/-- The breadth-first walk of `_dependency_distances`; `sorted(depends.get(name, ()))`. -/
def dependencyWalk (module : String) (depends : Depends) : List (String × Nat) :=
  (levels (fun name => sorted (dependsOf depends name)) ((depends.flatMap Prod.snd).length + 1) 0
    (start module)).found

def dependencyDistances (module : String) (depends : Depends) : List (String × Nat) :=
  let distances := dependencyWalk module depends
  if module != implicitDependency && (distances.lookup implicitDependency).isNone then
    distances ++ [(implicitDependency, 1)]
  else distances

/-- A row of a `TestClass` node; its identity is the name, the module and the file. -/
structure TestClassRow where
  id : String
  name : String
  module : String
  filePath : Option String
  bases : Option (List String)
  sources : Option (List String)
  deriving DecidableEq

/-- `row.get("file_path") or ""`. -/
def TestClassRow.file (row : TestClassRow) : String := row.filePath.getD ""

def importHint (source : String) : Option String × List String :=
  let parts := if source = "" then [] else (source.toList.splitOn '.').map String.ofList
  match parts with
  | "odoo" :: "addons" :: module :: rest =>
      if module = "" then (some "@framework", [])
      else
        let rel := join "/" (module :: rest)
        (some module, [rel ++ ".py", rel ++ "/__init__.py"])
  | "odoo" :: _ => (some "@framework", [])
  | _ => (none, [])

def fileMatches (filePath : String) (suffixes : List String) : Bool :=
  suffixes.any fun suffix => filePath == suffix || endsWithAny filePath ["/" ++ suffix]

/-- `(rank, module, file)`. -/
abbrev Key := (Int ×ₗ Nat) ×ₗ String ×ₗ String

def keyOf (rank : Int × Nat) (module file : String) : Key :=
  toLex (toLex rank, toLex (module, file))

def candidateKey (child : TestClassRow) (hint : Option String × List String)
    (distances : List (String × Nat)) (base : String) (cand : TestClassRow) : Option Key :=
  if cand.module = child.module ∧ cand.file = child.file ∧ base = child.name then none
  else if hint.1 = some cand.module then
    some (keyOf (if fileMatches cand.file hint.2 then (-1, 0) else (-1, 1)) cand.module cand.file)
  else if cand.module = child.module then
    some (keyOf (if cand.file = child.file then (0, 0) else (0, 1)) cand.module cand.file)
  else
    (distances.lookup cand.module).map fun distance =>
      keyOf (2, distance) cand.module cand.file

/-- `if best is None or key < best: best = key`. -/
def better (best : Option Key) (key : Key) : Option Key :=
  match best with
  | none => some key
  | some old => if key < old then some key else some old

def helperKey (frameworkNames : List String) (hint : Option String × List String) (base : String) :
    Option Key :=
  if frameworkNames.contains base then
    some (keyOf (if hint.1 = some "@framework" then (-1, 0) else (1, 0)) "" "")
  else none

section Resolve
variable (classes : List TestClassRow) (frameworkNames : List String) (depends : Depends)

def bestKey (child : TestClassRow) (base source : String) : Option Key :=
  ((classes.filter (·.name == base)).filterMap
    (candidateKey child (importHint source) (dependencyDistances child.module depends) base)).foldl
      better (helperKey frameworkNames (importHint source) base)

inductive Target where
  | cls (index : Nat)
  | helper (name : String)
  deriving DecidableEq

/-- The winning definition, through every copy of it. -/
def targetsOf (base : String) (best : Key) : List Target :=
  let module := (ofLex (ofLex best).2).1
  let file := (ofLex (ofLex best).2).2
  if module = "" then [.helper base]
  else classes.zipIdx.filterMap fun entry =>
    if entry.1.name = base ∧ entry.1.module = module ∧ entry.1.file = file then
      some (.cls entry.2)
    else none

/-- `sources[pos] if pos < len(sources) else ""`. -/
def withSources : List String → List String → List (String × String)
  | [], _ => []
  | base :: bases, [] => (base, "") :: withSources bases []
  | base :: bases, source :: sources => (base, source) :: withSources bases sources

def declaredBases (child : TestClassRow) : List (String × String) :=
  heads Prod.fst (withSources (child.bases.getD []) (child.sources.getD []))

/-- `pairs` of `resolve_test_base_targets`. -/
def resolvedPairs : List (Nat × Target) :=
  classes.zipIdx.flatMap fun entry =>
    (declaredBases entry.1).flatMap fun declared =>
      match bestKey classes frameworkNames depends entry.1 declared.1 declared.2 with
      | none => []
      | some best => (targetsOf classes declared.1 best).map fun target => (entry.2, target)

/-- `undetermined` of `resolve_test_base_targets`. -/
def undeterminedBases : List (Nat × String) :=
  classes.zipIdx.flatMap fun entry =>
    (declaredBases entry.1).flatMap fun declared =>
      match bestKey classes frameworkNames depends entry.1 declared.1 declared.2 with
      | none => if declared.2 = "" then [(entry.2, declared.1)] else []
      | some _ => []

def resolveTestBaseTargets : List (Nat × Target) × List (Nat × String) :=
  (resolvedPairs classes frameworkNames depends, undeterminedBases classes frameworkNames depends)

end Resolve

/-- The manifest of `before` lists the module. -/
def DependsOn (depends : Depends) (module before : String) : Prop :=
  module ∈ dependsOf depends before

/-- A module at this distance in the dependency closure of another; `base` is implied. -/
def Distance (depends : Depends) (module dep : String) (distance : Nat) : Prop :=
  0 < distance ∧ IsDistance (DependsOn depends) {module} distance dep ∨
    module ≠ implicitDependency ∧ dep = implicitDependency ∧ distance = 1 ∧
      ∀ steps, ¬ Hops (DependsOn depends) {module} steps implicitDependency

section Distances
variable {depends : Depends} {module dep : String} {distance : Nat}

theorem follows_sorted :
    Follows (fun name => sorted (dependsOf depends name)) = DependsOn depends := by
  funext name before
  exact propext (mem_sorted _ _)

theorem mem_dependencyWalk : (dep, distance) ∈ dependencyWalk module depends ↔
    0 < distance ∧ IsDistance (DependsOn depends) {module} distance dep := by
  rw [dependencyWalk, ← follows_sorted]
  refine levels_found (depends.flatMap Prod.snd) (fun name other listed => ?_) module dep distance
  rw [mem_sorted, dependsOf] at listed
  cases found : depends.lookup name with
  | none =>
      rw [found] at listed
      cases listed
  | some deps =>
      rw [found] at listed
      exact List.mem_flatMap.mpr ⟨(name, deps), lookup_mem found, listed⟩

theorem lookup_dependencyWalk : (dependencyWalk module depends).lookup dep = some distance ↔
    0 < distance ∧ IsDistance (DependsOn depends) {module} distance dep := by
  rw [← mem_dependencyWalk]
  refine ⟨lookup_mem, fun listed => ?_⟩
  cases found : (dependencyWalk module depends).lookup dep with
  | none => exact absurd (List.lookup_eq_none_iff.mp found _ listed) (by simp only [bne_self_eq_false, Bool.false_eq_true, not_false_eq_true])
  | some other =>
      have same := (mem_dependencyWalk.mp (lookup_mem found)).2.unique
        (mem_dependencyWalk.mp listed).2
      rw [same]

theorem dependencyWalk_base (other : module ≠ implicitDependency) :
    (dependencyWalk module depends).lookup implicitDependency = none ↔
      ∀ steps, ¬ Hops (DependsOn depends) {module} steps implicitDependency := by
  constructor
  · intro absent steps hops
    obtain ⟨least, -, isLeast⟩ := hops.distance
    cases least with
    | zero => exact other (isDistance_zero.mp isLeast).symm
    | succ least =>
        have found := lookup_dependencyWalk.mpr ⟨Nat.succ_pos least, isLeast⟩
        rw [absent] at found
        cases found
  · intro unreached
    cases found : (dependencyWalk module depends).lookup implicitDependency with
    | none => rfl
    | some steps => exact absurd (lookup_dependencyWalk.mp found).2.reached (unreached steps)

theorem lookup_dependencyDistances :
    (dependencyDistances module depends).lookup dep = some distance ↔
      Distance depends module dep distance := by
  rw [dependencyDistances, Distance, ← lookup_dependencyWalk]
  split
  case isTrue missing =>
      rw [Bool.and_eq_true, bne_iff_ne, Option.isNone_iff_eq_none] at missing
      have unreached := (dependencyWalk_base missing.1).mp missing.2
      rw [List.lookup_append, lookup_cons_if, List.lookup_nil]
      by_cases isBase : dep = implicitDependency
      · subst isBase
        rw [missing.2, if_pos rfl, Option.none_or, Option.some_inj]
        constructor
        · intro one
          exact Or.inr ⟨missing.1, rfl, one.symm, unreached⟩
        · rintro (found | ⟨-, -, one, -⟩)
          · cases found
          · exact one.symm
      · rw [if_neg isBase, Option.or_none]
        constructor
        · exact Or.inl
        · rintro (found | ⟨-, same, -⟩)
          · exact found
          · exact absurd same isBase
  case isFalse reached =>
      constructor
      · exact Or.inl
      · rintro (found | ⟨other, -, -, unreached⟩)
        · exact found
        · refine absurd ?_ reached
          rw [Bool.and_eq_true, bne_iff_ne, Option.isNone_iff_eq_none]
          exact ⟨other, (dependencyWalk_base other).mpr unreached⟩

end Distances

inductive Place where
  | importedFile
  | importedModule
  | ownFile
  | ownModule
  | framework
  | dependency (distance : Nat)

def Place.index : Place → Nat
  | .importedFile => 0
  | .importedModule => 1
  | .ownFile => 2
  | .ownModule => 3
  | .framework => 4
  | .dependency distance => 5 + distance

inductive Candidate where
  | helper
  | definition (module file : String)

def Candidate.module : Candidate → String
  | .helper => ""
  | .definition module _ => module

def Candidate.file : Candidate → String
  | .helper => ""
  | .definition _ file => file

def rankOf (candidate : Candidate) (place : Place) : Nat ×ₗ String ×ₗ String :=
  toLex (place.index, toLex (candidate.module, candidate.file))

def TestClassRow.Same (row other : TestClassRow) : Prop :=
  row.name = other.name ∧ row.module = other.module ∧ row.file = other.file

section Ranking
variable (classes : List TestClassRow) (frameworkNames : List String) (depends : Depends)
  (child : TestClassRow) (base source : String)

inductive Stands : Candidate → Place → Prop
  | byImport {row : TestClassRow} (isRow : row ∈ classes) (called : row.name = base)
      (apart : ¬ row.Same child) (imported : (importHint source).1 = some row.module) :
      Stands (.definition row.module row.file)
        (if fileMatches row.file (importHint source).2 then .importedFile else .importedModule)
  | own {row : TestClassRow} (isRow : row ∈ classes) (called : row.name = base)
      (apart : ¬ row.Same child) (silent : (importHint source).1 ≠ some row.module)
      (ownModule : row.module = child.module) :
      Stands (.definition row.module row.file)
        (if row.file = child.file then .ownFile else .ownModule)
  | helper (listed : base ∈ frameworkNames) :
      Stands .helper
        (if (importHint source).1 = some "@framework" then .importedFile else .framework)
  | dependency {row : TestClassRow} {distance : Nat} (isRow : row ∈ classes)
      (called : row.name = base) (apart : ¬ row.Same child)
      (silent : (importHint source).1 ≠ some row.module) (other : row.module ≠ child.module)
      (reached : Distance depends child.module row.module distance) :
      Stands (.definition row.module row.file) (.dependency distance)

def Leads (candidate : Candidate) (place : Place) : Prop :=
  Stands classes frameworkNames depends child base source candidate place ∧
    ∀ other otherPlace, Stands classes frameworkNames depends child base source other otherPlace →
      rankOf candidate place ≤ rankOf other otherPlace

def First (candidate : Candidate) : Prop :=
  ∃ place, Leads classes frameworkNames depends child base source candidate place

end Ranking

def Place.code : Place → Int × Nat
  | .importedFile => (-1, 0)
  | .importedModule => (-1, 1)
  | .ownFile => (0, 0)
  | .ownModule => (0, 1)
  | .framework => (1, 0)
  | .dependency distance => (2, distance)

def codeKey (candidate : Candidate) (place : Place) : Key :=
  keyOf place.code candidate.module candidate.file

theorem Place.code_lt (place other : Place) :
    toLex place.code < toLex other.code ↔ place.index < other.index := by
  cases place <;> cases other <;>
    simp only [Place.code, Place.index, Prod.Lex.toLex_lt_toLex, true_and] <;> omega

theorem Place.code_eq (place other : Place) :
    toLex place.code = toLex other.code ↔ place.index = other.index := by
  have before := Place.code_lt place other
  have after := Place.code_lt other place
  rcases lt_trichotomy (toLex place.code) (toLex other.code) with less | same | more
  · exact iff_of_false less.ne (before.mp less).ne
  · refine iff_of_true same ?_
    rw [same, lt_self_iff_false, false_iff] at before after
    omega
  · exact iff_of_false more.ne' (after.mp more).ne'

theorem codeKey_le (candidate other : Candidate) (place otherPlace : Place) :
    codeKey candidate place ≤ codeKey other otherPlace ↔
      rankOf candidate place ≤ rankOf other otherPlace := by
  simp only [codeKey, keyOf, rankOf]
  rw [Prod.Lex.toLex_le_toLex, Prod.Lex.toLex_le_toLex (x := (place.index, _)), Place.code_lt,
    Place.code_eq]

theorem foldl_better (keys : List Key) : ∀ old : Key,
    keys.foldl better (some old) = (old :: keys).min? := by
  induction keys with
  | nil => exact fun _ => rfl
  | cons key rest ih =>
      intro old
      rw [List.foldl_cons, better, List.min?_cons', List.foldl_cons]
      by_cases less : key < old
      · rw [if_pos less, ih, List.min?_cons', min_eq_right less.le]
      · rw [if_neg less, ih, List.min?_cons', min_eq_left (not_lt.mp less)]

theorem foldl_better_min (keys : List Key) (old : Option Key) :
    keys.foldl better old = (old.toList ++ keys).min? := by
  cases old with
  | some key => exact foldl_better keys key
  | none =>
      cases keys with
      | nil => rfl
      | cons key rest => exact foldl_better rest key

section Best
variable {classes : List TestClassRow} {frameworkNames : List String} {depends : Depends}
  {child : TestClassRow} {base source : String}

def keysOf (classes : List TestClassRow) (frameworkNames : List String) (depends : Depends)
    (child : TestClassRow) (base source : String) : List Key :=
  (helperKey frameworkNames (importHint source) base).toList ++
    (classes.filter (·.name == base)).filterMap
      (candidateKey child (importHint source) (dependencyDistances child.module depends) base)

theorem Stands.key {candidate : Candidate} {place : Place}
    (stands : Stands classes frameworkNames depends child base source candidate place) :
    codeKey candidate place ∈ keysOf classes frameworkNames depends child base source := by
  have among : ∀ row ∈ classes, row.name = base → ∀ key : Key,
      candidateKey child (importHint source) (dependencyDistances child.module depends) base row =
        some key → key ∈ keysOf classes frameworkNames depends child base source := by
    intro row isRow called key isKey
    refine List.mem_append_right _ (List.mem_filterMap.mpr ⟨row, ?_, isKey⟩)
    exact List.mem_filter.mpr ⟨isRow, beq_iff_eq.mpr called⟩
  cases stands with
  | @byImport row isRow called apart imported =>
      refine among row isRow called _ ?_
      rw [candidateKey, if_neg fun same => apart ⟨called.trans same.2.2, same.1, same.2.1⟩,
        if_pos imported, codeKey]
      split <;> rfl
  | @own row isRow called apart silent ownModule =>
      refine among row isRow called _ ?_
      rw [candidateKey, if_neg fun same => apart ⟨called.trans same.2.2, same.1, same.2.1⟩,
        if_neg silent, if_pos ownModule, codeKey]
      split <;> rfl
  | helper listed =>
      refine List.mem_append_left _ (Option.mem_toList.mpr ?_)
      rw [helperKey, if_pos (List.contains_iff_mem.mpr listed), codeKey]
      split <;> rfl
  | @dependency row distance isRow called apart silent other reached =>
      refine among row isRow called _ ?_
      rw [candidateKey, if_neg fun same => apart ⟨called.trans same.2.2, same.1, same.2.1⟩,
        if_neg silent, if_neg other, lookup_dependencyDistances.mpr reached]
      rfl

theorem stands_of_candidateKey {row : TestClassRow} {key : Key} (isRow : row ∈ classes)
    (called : row.name = base)
    (isKey : candidateKey child (importHint source) (dependencyDistances child.module depends) base
      row = some key) :
    ∃ place, Stands classes frameworkNames depends child base source
      (.definition row.module row.file) place ∧
        codeKey (.definition row.module row.file) place = key := by
  rw [candidateKey] at isKey
  split at isKey
  case isTrue same => cases isKey
  case isFalse differs =>
      have apart : ¬ row.Same child := fun same =>
        differs ⟨same.2.1, same.2.2, called.symm.trans same.1⟩
      split at isKey
      case isTrue imported =>
          refine ⟨_, .byImport isRow called apart imported, ?_⟩
          rw [← Option.some.inj isKey, codeKey]
          split <;> rfl
      case isFalse silent =>
          split at isKey
          case isTrue ownModule =>
              refine ⟨_, .own isRow called apart silent ownModule, ?_⟩
              rw [← Option.some.inj isKey, codeKey]
              split <;> rfl
          case isFalse other =>
              obtain ⟨distance, found, isKey⟩ := Option.map_eq_some_iff.mp isKey
              have reached := lookup_dependencyDistances.mp found
              exact ⟨_, .dependency isRow called apart silent other reached, isKey⟩

theorem mem_keysOf (key : Key) :
    key ∈ keysOf classes frameworkNames depends child base source ↔
      ∃ candidate place, Stands classes frameworkNames depends child base source candidate place ∧
        codeKey candidate place = key := by
  constructor
  · intro listed
    obtain isHelper | isClass := List.mem_append.mp listed
    · rw [Option.mem_toList, helperKey] at isHelper
      split at isHelper
      case isTrue listed =>
          refine ⟨.helper, _, .helper (List.contains_iff_mem.mp listed), ?_⟩
          rw [← Option.some.inj isHelper, codeKey]
          split <;> rfl
      case isFalse unlisted => cases isHelper
    · obtain ⟨row, kept, isKey⟩ := List.mem_filterMap.mp isClass
      obtain ⟨isRow, called⟩ := List.mem_filter.mp kept
      exact ⟨_, stands_of_candidateKey isRow (beq_iff_eq.mp called) isKey⟩
  · rintro ⟨candidate, place, stands, rfl⟩
    exact stands.key

theorem bestKey_iff (best : Key) :
    bestKey classes frameworkNames depends child base source = some best ↔
      ∃ candidate place, Leads classes frameworkNames depends child base source candidate place ∧
        codeKey candidate place = best := by
  have isMin : bestKey classes frameworkNames depends child base source =
      (keysOf classes frameworkNames depends child base source).min? := foldl_better_min _ _
  rw [isMin, List.min?_eq_some_iff, mem_keysOf]
  constructor
  · rintro ⟨⟨candidate, place, stands, rfl⟩, least⟩
    refine ⟨candidate, place, ⟨stands, fun other otherPlace otherStands => ?_⟩, rfl⟩
    exact (codeKey_le _ _ _ _).mp (least _ otherStands.key)
  · rintro ⟨candidate, place, ⟨stands, least⟩, rfl⟩
    refine ⟨⟨candidate, place, stands, rfl⟩, fun key listed => ?_⟩
    obtain ⟨other, otherPlace, otherStands, rfl⟩ := (mem_keysOf key).mp listed
    exact (codeKey_le _ _ _ _).mpr (least other otherPlace otherStands)

theorem bestKey_none :
    bestKey classes frameworkNames depends child base source = none ↔
      ∀ candidate place,
        ¬ Stands classes frameworkNames depends child base source candidate place := by
  have isMin : bestKey classes frameworkNames depends child base source =
      (keysOf classes frameworkNames depends child base source).min? := foldl_better_min _ _
  rw [isMin, List.min?_eq_none_iff]
  constructor
  · intro empty candidate place stands
    have listed := stands.key
    rw [empty] at listed
    cases listed
  · intro noneStands
    refine List.eq_nil_iff_forall_not_mem.mpr fun key listed => ?_
    obtain ⟨candidate, place, stands, -⟩ := (mem_keysOf key).mp listed
    exact noneStands candidate place stands

end Best

section Links
variable {classes other : List TestClassRow} {frameworkNames : List String} {depends : Depends}
  {child row : TestClassRow} {base source : String} {index target : Nat}

theorem Stands.defined {module file : String} {place : Place}
    (stands : Stands classes frameworkNames depends child base source (.definition module file)
      place) :
    ∃ row ∈ classes, row.name = base ∧ row.module = module ∧ row.file = file := by
  cases stands with
  | byImport isRow called | own isRow called | dependency isRow called => exact ⟨_, isRow, called, rfl, rfl⟩

theorem targetsOf_codeKey (candidate : Candidate) (place : Place)
    (defined : candidate.module ≠ "") :
    targetsOf classes base (codeKey candidate place) = classes.zipIdx.filterMap fun entry =>
      if entry.1.name = base ∧ entry.1.module = candidate.module ∧ entry.1.file = candidate.file
      then some (.cls entry.2) else none :=
  if_neg defined

theorem mem_targetsOf (candidate : Candidate) (place : Place) (defined : candidate.module ≠ "") :
    .cls target ∈ targetsOf classes base (codeKey candidate place) ↔
      ∃ row, classes[target]? = some row ∧ row.name = base ∧
        row.module = candidate.module ∧ row.file = candidate.file := by
  rw [targetsOf_codeKey _ _ defined, List.mem_filterMap]
  constructor
  · rintro ⟨⟨row, position⟩, listed, linked⟩
    split at linked
    case isTrue same =>
        cases linked
        exact ⟨row, List.mem_zipIdx_iff_getElem?.mp listed, same⟩
    case isFalse => cases linked
  · rintro ⟨row, isRow, same⟩
    exact ⟨(row, target), List.mem_zipIdx_iff_getElem?.mpr isRow, if_pos same⟩

theorem mem_resolvedPairs {link : Target} :
    (index, link) ∈ resolvedPairs classes frameworkNames depends ↔
      ∃ child base source candidate place, classes[index]? = some child ∧
        (base, source) ∈ declaredBases child ∧
        Leads classes frameworkNames depends child base source candidate place ∧
        link ∈ targetsOf classes base (codeKey candidate place) := by
  rw [resolvedPairs, List.mem_flatMap]
  constructor
  · rintro ⟨⟨child, position⟩, listed, linked⟩
    obtain ⟨⟨base, source⟩, declared, linked⟩ := List.mem_flatMap.mp linked
    dsimp only at linked
    cases found : bestKey classes frameworkNames depends child base source with
    | none =>
        rw [found] at linked
        cases linked
    | some best =>
        rw [found] at linked
        obtain ⟨link, isTarget, same⟩ := List.mem_map.mp linked
        cases same
        obtain ⟨candidate, place, leads, rfl⟩ := (bestKey_iff best).mp found
        exact ⟨child, base, source, candidate, place, List.mem_zipIdx_iff_getElem?.mp listed,
          declared, leads, isTarget⟩
  · rintro ⟨child, base, source, candidate, place, isChild, declared, leads, isTarget⟩
    refine ⟨(child, index), List.mem_zipIdx_iff_getElem?.mpr isChild, List.mem_flatMap.mpr
      ⟨(base, source), declared, ?_⟩⟩
    dsimp only
    rw [(bestKey_iff _).mpr ⟨candidate, place, leads, rfl⟩]
    exact List.mem_map.mpr ⟨link, isTarget, rfl⟩

theorem mem_undeterminedBases :
    (index, base) ∈ undeterminedBases classes frameworkNames depends ↔
      ∃ child, classes[index]? = some child ∧ (base, "") ∈ declaredBases child ∧
        ∀ candidate place, ¬ Stands classes frameworkNames depends child base "" candidate place := by
  rw [undeterminedBases, List.mem_flatMap]
  constructor
  · rintro ⟨⟨child, position⟩, listed, missing⟩
    obtain ⟨⟨name, source⟩, declared, missing⟩ := List.mem_flatMap.mp missing
    dsimp only at missing
    cases found : bestKey classes frameworkNames depends child name source with
    | some best =>
        rw [found] at missing
        cases missing
    | none =>
        rw [found] at missing
        dsimp only at missing
        split at missing
        case isTrue unknown =>
            cases List.mem_singleton.mp missing
            subst unknown
            exact ⟨child, List.mem_zipIdx_iff_getElem?.mp listed, declared, bestKey_none.mp found⟩
        case isFalse => cases missing
  · rintro ⟨child, isChild, declared, noneStands⟩
    refine ⟨(child, index), List.mem_zipIdx_iff_getElem?.mpr isChild, List.mem_flatMap.mpr
      ⟨(base, ""), declared, ?_⟩⟩
    dsimp only
    rw [bestKey_none.mpr noneStands]
    exact List.mem_singleton.mpr rfl

theorem links_class (defined : ∀ row ∈ classes, row.module ≠ "") :
    (index, .cls target) ∈ resolvedPairs classes frameworkNames depends ↔
      ∃ child row source, classes[index]? = some child ∧ classes[target]? = some row ∧
        (row.name, source) ∈ declaredBases child ∧
        First classes frameworkNames depends child row.name source
          (.definition row.module row.file) := by
  rw [mem_resolvedPairs]
  constructor
  · rintro ⟨child, base, source, candidate, place, isChild, declared, leads, isTarget⟩
    cases candidate with
    | helper => exact absurd (List.mem_singleton.mp isTarget) (by simp only [reduceCtorEq, not_false_eq_true])
    | definition module file =>
        obtain ⟨other, isOther, -, otherModule, -⟩ := leads.1.defined
        have named : module ≠ "" := otherModule ▸ defined other isOther
        obtain ⟨row, isRow, rfl, rfl, rfl⟩ := (mem_targetsOf (.definition module file) place named).mp isTarget
        exact ⟨child, row, source, isChild, isRow, declared, place, leads⟩
  · rintro ⟨child, row, source, isChild, isRow, declared, place, leads⟩
    have named := defined row (List.mem_of_getElem? isRow)
    exact ⟨child, row.name, source, _, place, isChild, declared, leads,
      (mem_targetsOf (.definition row.module row.file) place named).mpr ⟨row, isRow, rfl, rfl, rfl⟩⟩

theorem links_helper (defined : ∀ row ∈ classes, row.module ≠ "") :
    (index, .helper base) ∈ resolvedPairs classes frameworkNames depends ↔
      ∃ child source, classes[index]? = some child ∧ (base, source) ∈ declaredBases child ∧
        First classes frameworkNames depends child base source .helper := by
  rw [mem_resolvedPairs]
  constructor
  · rintro ⟨child, name, source, candidate, place, isChild, declared, leads, isTarget⟩
    cases candidate with
    | helper =>
        cases List.mem_singleton.mp isTarget
        exact ⟨child, source, isChild, declared, place, leads⟩
    | definition module file =>
        obtain ⟨other, isOther, -, otherModule, -⟩ := leads.1.defined
        have named : module ≠ "" := otherModule ▸ defined other isOther
        rw [targetsOf_codeKey (.definition module file) place named] at isTarget
        obtain ⟨entry, -, linked⟩ := List.mem_filterMap.mp isTarget
        split at linked <;> cases linked
  · rintro ⟨child, source, isChild, declared, place, leads⟩
    exact ⟨child, base, source, _, place, isChild, declared, leads, List.mem_singleton.mpr rfl⟩

theorem declared_once {second : String} (one : (base, source) ∈ declaredBases child)
    (two : (base, second) ∈ declaredBases child) : source = second := by
  have same := List.inj_on_of_nodup_map (heads_nodup _) one two rfl
  exact congrArg Prod.snd same

theorem First.stands {candidate : Candidate}
    (first : First classes frameworkNames depends child base source candidate) :
    ∃ place, Stands classes frameworkNames depends child base source candidate place := by
  obtain ⟨place, stands, -⟩ := first
  exact ⟨place, stands⟩

theorem Stands.evidence {place : Place}
    (stands : Stands classes frameworkNames depends child row.name source
      (.definition row.module row.file) place) :
    ¬ row.Same child ∧ ((importHint source).1 = some row.module ∨ row.module = child.module ∨
      ∃ distance, Distance depends child.module row.module distance) := by
  generalize isCandidate : Candidate.definition row.module row.file = candidate at stands
  generalize called : row.name = base at stands
  have same_of : ∀ copy : TestClassRow, copy.name = base → copy.module = row.module →
      copy.file = row.file → ¬ copy.Same child → ¬ row.Same child := by
    rintro copy sameName sameModule sameFile apart ⟨ofName, ofModule, ofFile⟩
    exact apart ⟨sameName.trans (called.symm.trans ofName), sameModule.trans ofModule,
      sameFile.trans ofFile⟩
  cases stands with
  | byImport isRow isNamed apart imported =>
      obtain ⟨sameModule, sameFile⟩ := Candidate.definition.inj isCandidate
      exact ⟨same_of _ isNamed sameModule.symm sameFile.symm apart,
        Or.inl (sameModule ▸ imported)⟩
  | own isRow isNamed apart silent ownModule =>
      obtain ⟨sameModule, sameFile⟩ := Candidate.definition.inj isCandidate
      exact ⟨same_of _ isNamed sameModule.symm sameFile.symm apart,
        Or.inr (Or.inl (sameModule.trans ownModule))⟩
  | helper => cases isCandidate
  | dependency isRow isNamed apart silent other reached =>
      obtain ⟨sameModule, sameFile⟩ := Candidate.definition.inj isCandidate
      exact ⟨same_of _ isNamed sameModule.symm sameFile.symm apart,
        Or.inr (Or.inr ⟨_, sameModule ▸ reached⟩)⟩

end Links

def Linked (classes : List TestClassRow) (frameworkNames : List String) (depends : Depends)
    (child row : TestClassRow) : Prop :=
  ∃ index target, classes[index]? = some child ∧ classes[target]? = some row ∧
    (index, .cls target) ∈ (resolveTestBaseTargets classes frameworkNames depends).1

def LinkedHelper (classes : List TestClassRow) (frameworkNames : List String) (depends : Depends)
    (child : TestClassRow) (base : String) : Prop :=
  ∃ index, classes[index]? = some child ∧
    (index, .helper base) ∈ (resolveTestBaseTargets classes frameworkNames depends).1

section Results
variable (classes : List TestClassRow) (frameworkNames : List String) (depends : Depends)

structure Resolves (pairs : List (Nat × Target)) (undetermined : List (Nat × String)) : Prop where
  /-- The rows linked are all copies of the first candidate, when it is a definition. -/
  classLinks : ∀ index target, (index, .cls target) ∈ pairs ↔
    ∃ child row source, classes[index]? = some child ∧ classes[target]? = some row ∧
      (row.name, source) ∈ declaredBases child ∧
      First classes frameworkNames depends child row.name source
        (.definition row.module row.file)
  /-- A framework helper is linked where it is the first candidate. -/
  helperLinks : ∀ index base, (index, .helper base) ∈ pairs ↔
    ∃ child source, classes[index]? = some child ∧ (base, source) ∈ declaredBases child ∧
      First classes frameworkNames depends child base source .helper
  /-- Where there are candidates, one is the first. -/
  first : ∀ child base source candidate place,
    Stands classes frameworkNames depends child base source candidate place →
      ∃ best, First classes frameworkNames depends child base source best
  /-- A link leads to another definition, which is imported or in the closure. -/
  evidence : ∀ index target child row, (index, .cls target) ∈ pairs →
    classes[index]? = some child → classes[target]? = some row →
    ¬ row.Same child ∧ ∃ source, (row.name, source) ∈ declaredBases child ∧
      ((importHint source).1 = some row.module ∨ row.module = child.module ∨
        ∃ distance, Distance depends child.module row.module distance)
  /-- What is undetermined is of unknown origin and has no candidate. -/
  unknown : ∀ index base, (index, base) ∈ undetermined ↔
    ∃ child, classes[index]? = some child ∧ (base, "") ∈ declaredBases child ∧
      ∀ candidate place, ¬ Stands classes frameworkNames depends child base "" candidate place
  classOrUndetermined : ∀ index target row, (index, .cls target) ∈ pairs →
    classes[target]? = some row → (index, row.name) ∉ undetermined
  helperOrUndetermined : ∀ index base, (index, .helper base) ∈ pairs →
    (index, base) ∉ undetermined

end Results

section Results
variable {classes other : List TestClassRow} {frameworkNames : List String} {depends : Depends}

theorem first_congr (same : ∀ row, row ∈ classes ↔ row ∈ other) :
    First classes frameworkNames depends = First other frameworkNames depends := by
  have stands : ∀ (first second : List TestClassRow), (∀ row, row ∈ first → row ∈ second) →
      ∀ child base source candidate place,
        Stands first frameworkNames depends child base source candidate place →
        Stands second frameworkNames depends child base source candidate place := by
    intro first second sub child base source candidate place stands
    cases stands with
    | byImport isRow called apart imported =>
        exact .byImport (sub _ isRow) called apart imported
    | own isRow called apart silent ownModule =>
        exact .own (sub _ isRow) called apart silent ownModule
    | helper listed => exact .helper listed
    | dependency isRow called apart silent other reached =>
        exact .dependency (sub _ isRow) called apart silent other reached
  have standsSame : Stands classes frameworkNames depends = Stands other frameworkNames depends := by
    funext child base source candidate place
    exact propext ⟨stands _ _ (fun row => (same row).mp) _ _ _ _ _,
      stands _ _ (fun row => (same row).mpr) _ _ _ _ _⟩
  unfold First Leads
  rw [standsSame]

theorem linked_iff (defined : ∀ row ∈ classes, row.module ≠ "") (child row : TestClassRow) :
    Linked classes frameworkNames depends child row ↔ child ∈ classes ∧ row ∈ classes ∧
      ∃ source, (row.name, source) ∈ declaredBases child ∧
        First classes frameworkNames depends child row.name source
          (.definition row.module row.file) := by
  constructor
  · rintro ⟨index, target, isChild, isRow, linked⟩
    obtain ⟨sameChild, sameRow, source, foundChild, foundRow, declared, first⟩ :=
      (links_class defined).mp linked
    cases isChild.symm.trans foundChild
    cases isRow.symm.trans foundRow
    exact ⟨List.mem_of_getElem? isChild, List.mem_of_getElem? isRow, source, declared, first⟩
  · rintro ⟨isChild, isRow, source, declared, first⟩
    obtain ⟨index, foundChild⟩ := List.getElem?_of_mem isChild
    obtain ⟨target, foundRow⟩ := List.getElem?_of_mem isRow
    exact ⟨index, target, foundChild, foundRow, (links_class defined).mpr
      ⟨child, row, source, foundChild, foundRow, declared, first⟩⟩

theorem linkedHelper_iff (defined : ∀ row ∈ classes, row.module ≠ "") (child : TestClassRow)
    (base : String) :
    LinkedHelper classes frameworkNames depends child base ↔ child ∈ classes ∧
      ∃ source, (base, source) ∈ declaredBases child ∧
        First classes frameworkNames depends child base source .helper := by
  constructor
  · rintro ⟨index, isChild, linked⟩
    obtain ⟨sameChild, source, foundChild, declared, first⟩ := (links_helper defined).mp linked
    cases isChild.symm.trans foundChild
    exact ⟨List.mem_of_getElem? isChild, source, declared, first⟩
  · rintro ⟨isChild, source, declared, first⟩
    obtain ⟨index, foundChild⟩ := List.getElem?_of_mem isChild
    exact ⟨index, foundChild, (links_helper defined).mpr
      ⟨child, source, foundChild, declared, first⟩⟩

/-- Every declared base is linked to all copies of the first candidate of the ranking. -/
theorem resolveTestBaseTargets_resolves
    (named : ∀ row ∈ classes, row.name ≠ "" ∧ row.module ≠ "") :
    Resolves classes frameworkNames depends
        (resolveTestBaseTargets classes frameworkNames depends).1
        (resolveTestBaseTargets classes frameworkNames depends).2 ∧
      ∀ other : List TestClassRow, classes.Perm other → ∀ child,
        (∀ row, Linked other frameworkNames depends child row ↔
          Linked classes frameworkNames depends child row) ∧
        ∀ base, LinkedHelper other frameworkNames depends child base ↔
          LinkedHelper classes frameworkNames depends child base := by
  have defined : ∀ row ∈ classes, row.module ≠ "" := fun row isRow => (named row isRow).2
  have apart : ∀ index child base source candidate place, classes[index]? = some child →
      (base, source) ∈ declaredBases child →
      Stands classes frameworkNames depends child base source candidate place →
      (index, base) ∉ undeterminedBases classes frameworkNames depends := by
    intro index child base source candidate place isChild declared stands listed
    obtain ⟨same, found, unknown, noneStands⟩ := mem_undeterminedBases.mp listed
    cases isChild.symm.trans found
    cases declared_once declared unknown
    exact noneStands _ _ stands
  constructor
  · refine ⟨fun index target => links_class defined, fun index base => links_helper defined,
      ?_, ?_, fun index base => mem_undeterminedBases, ?_, ?_⟩
    · intro child base source candidate place stands
      cases found : bestKey classes frameworkNames depends child base source with
      | none => exact absurd stands (bestKey_none.mp found candidate place)
      | some best =>
          obtain ⟨candidate, place, leads, -⟩ := (bestKey_iff best).mp found
          exact ⟨candidate, place, leads⟩
    · intro index target child row linked isChild isRow
      obtain ⟨sameChild, sameRow, source, foundChild, foundRow, declared, first⟩ :=
        (links_class defined).mp linked
      cases isChild.symm.trans foundChild
      cases isRow.symm.trans foundRow
      obtain ⟨place, stands⟩ := first.stands
      exact ⟨stands.evidence.1, source, declared, stands.evidence.2⟩
    · intro index target row linked isRow
      obtain ⟨child, sameRow, source, isChild, foundRow, declared, first⟩ :=
        (links_class defined).mp linked
      cases isRow.symm.trans foundRow
      obtain ⟨place, stands⟩ := first.stands
      exact apart index child row.name source _ place isChild declared stands
    · intro index base linked
      obtain ⟨child, source, isChild, declared, first⟩ := (links_helper defined).mp linked
      obtain ⟨place, stands⟩ := first.stands
      exact apart index child base source _ place isChild declared stands
  · intro other perm child
    have definedOther : ∀ row ∈ other, row.module ≠ "" :=
      fun row isRow => defined row (perm.mem_iff.mpr isRow)
    have same : First classes frameworkNames depends = First other frameworkNames depends :=
      first_congr fun row => perm.mem_iff
    constructor
    · intro row
      rw [linked_iff definedOther, linked_iff defined, ← same, perm.mem_iff, perm.mem_iff]
    · intro base
      rw [linkedHelper_iff definedOther, linkedHelper_iff defined, ← same, perm.mem_iff]

/-- A class of two addons, and one that extends it from another module without an import. -/
theorem sharedBase_resolves :
    Resolves
        [⟨"1", "Common", "sale", some "sale/tests/common.py", none, none⟩,
          ⟨"2", "TestOrders", "stock", some "stock/tests/test_orders.py", some ["Common"], none⟩] []
        [("stock", ["sale"])]
        (resolveTestBaseTargets
          [⟨"1", "Common", "sale", some "sale/tests/common.py", none, none⟩,
            ⟨"2", "TestOrders", "stock", some "stock/tests/test_orders.py", some ["Common"], none⟩]
          [] [("stock", ["sale"])]).1
        (resolveTestBaseTargets
          [⟨"1", "Common", "sale", some "sale/tests/common.py", none, none⟩,
            ⟨"2", "TestOrders", "stock", some "stock/tests/test_orders.py", some ["Common"], none⟩]
          [] [("stock", ["sale"])]).2 :=
  (resolveTestBaseTargets_resolves (by decide)).1

example : resolveTestBaseTargets
    [⟨"1", "Common", "sale", none, none, none⟩,
      ⟨"2", "TestOrders", "stock", none, some ["Common", "Lost"], none⟩] []
    [("stock", ["sale"])] = ([(1, .cls 0)], [(1, "Lost")]) := by
  decide +kernel

end Results

end OdooSemantic.Neo4j.TestBases
