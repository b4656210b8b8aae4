import OdooSemantic.Prune.Growth
import OdooSemantic.Prune.Judge

/-!
# Verdicts with more text

What a source finds, a source with more text finds too.  Some verdicts look in fewer places
once a file, a manifest or the models of a class are found, so text that is added can take a
verdict back.
-/

set_option autoImplicit false

namespace OdooSemantic.Prune

open Lib.Py Lib.Regex Lib.Runs

/-! ## What is found -/

section Found
variable {oracle : Oracle} {source more : ModuleSource}

variable {form : Form} {ident : String} {path : String}

variable {suffixes files others : Option (List String)} {ident path : String}

theorem mem_hits {suffixes files : Option (List String)} :
    path ∈ oracle.hits source form ident suffixes files ↔
      ∃ text, source.text? path = some text ∧ hasSuffix suffixes path = true ∧
        inScope files path = true ∧
        search (form.pattern oracle.tables ident) text.toList = true := by
  rw [Oracle.hits, find_eq, ModuleSource.searchAll, List.mem_filter, mem_sortedSet]
  simp only [Bool.and_eq_true, ModuleSource.shows, Option.any_eq_true]
  constructor
  · intro given
    obtain ⟨-, ⟨suffix, scope⟩, text, isText, found⟩ := given
    exact ⟨text, isText, suffix, scope, found⟩
  · intro given
    obtain ⟨text, isText, suffix, scope, found⟩ := given
    exact ⟨ModuleSource.text?_paths isText, ⟨suffix, scope⟩, text, isText, found⟩

theorem shown_iff {suffixes files : Option (List String)} :
    oracle.shown source form ident suffixes files = true ↔
      ∃ path, path ∈ oracle.hits source form ident suffixes files := by
  rw [Oracle.shown, Bool.not_eq_true', List.isEmpty_eq_false_iff_exists_mem]

variable (moreText : MoreText source more)
include moreText

theorem hits_mono
    (scopes : ∀ path, inScope files path = true → inScope others path = true)
    (listed : path ∈ oracle.hits source form ident suffixes files) :
    path ∈ oracle.hits more form ident suffixes others := by
  obtain ⟨text, isText, suffix, scope, found⟩ := mem_hits.mp listed
  exact mem_hits.mpr ⟨text, moreText.texts path text isText, suffix, scopes path scope, found⟩

theorem shown_mono
    (scopes : ∀ path, inScope files path = true → inScope others path = true)
    (shown : oracle.shown source form ident suffixes files = true) :
    oracle.shown more form ident suffixes others = true := by
  obtain ⟨path, listed⟩ := shown_iff.mp shown
  exact shown_iff.mpr ⟨path, hits_mono moreText scopes listed⟩

theorem hasFile_mono (has : source.hasFile path = true) :
    more.hasFile path = true := by
  obtain ⟨text, isText⟩ := Option.isSome_iff_exists.mp has
  exact Option.isSome_iff_exists.mpr ⟨text, moreText.texts path text isText⟩

theorem fileShows_mono {pattern : Pattern Char}
    (shows_ : source.fileShows pattern path = true) : more.fileShows pattern path = true := by
  obtain ⟨text, isText, found⟩ := (Option.any_eq_true _ _).mp shows_
  exact (Option.any_eq_true _ _).mpr ⟨text, moreText.texts path text isText, found⟩

theorem maps_mono (maps : source.maps path = true) : more.maps path = true := by
  rw [ModuleSource.maps, Bool.or_eq_true, List.any_eq_true, List.contains_iff_mem] at maps ⊢
  obtain ⟨home, listed, inside⟩ | root := maps
  · refine Or.inl ⟨home, ?_, inside⟩
    exact List.mem_append.mpr ((List.mem_append.mp listed).imp
      (fun current => moreText.prefixes current) fun absent => moreText.absentPrefixes absent)
  · exact Or.inr (moreText.prefixes root)

theorem relPath_mono {repo : Repository} {path : Option String} {inside : String}
    (mapped : source.relPath repo path = some inside) : more.relPath repo path = some inside := by
  rw [ModuleSource.relPath, Option.filter_eq_some_iff] at mapped ⊢
  exact ⟨mapped.1, maps_mono moreText mapped.2⟩

theorem foreignPathAbsent_anti {repo : Repository} {path : Option String}
    (foreign : more.foreignPathAbsent repo path = true) :
    source.foreignPathAbsent repo path = true := by
  rw [ModuleSource.foreignPathAbsent, Bool.and_eq_true] at foreign ⊢
  refine ⟨moreText.available foreign.1, ?_⟩
  obtain ⟨below, isBelow, absent⟩ := (Option.any_eq_true _ _).mp foreign.2
  refine (Option.any_eq_true _ _).mpr ⟨below, isBelow, ?_⟩
  rw [Bool.and_eq_true] at absent ⊢
  refine ⟨?_, absent.2⟩
  cases mapped : source.relPath repo (some below) with
  | none => rfl
  | some inside =>
      rw [relPath_mono moreText mapped] at absent
      exact absurd absent.1 Bool.false_ne_true

theorem candidates_mono {tables : CharTables}
    {suffixes : Option (List String)} (listed : path ∈ source.candidates tables ident suffixes) :
    path ∈ more.candidates tables ident suffixes := by
  rw [candidates_eq, List.mem_filter, mem_sortedSet] at listed ⊢
  refine ⟨?_, listed.2⟩
  have indexedIn := listed.1
  rw [ModuleSource.indexedFiles] at indexedIn ⊢
  cases parts : tokens tables ident with
  | nil =>
      rw [parts] at indexedIn
      exact grown_paths moreText indexedIn
  | cons run rest =>
      rw [parts] at indexedIn
      refine mem_narrow_all.mpr fun other otherIn => ?_
      obtain ⟨text, isText, inText⟩ := (mem_indexed tables).mp
        (mem_narrow_all.mp indexedIn other otherIn)
      exact (mem_indexed tables).mpr ⟨text, moreText.texts path text isText, inText⟩

theorem manifests_mono (listed : path ∈ source.manifests) :
    path ∈ more.manifests := by
  obtain ⟨home, isHome, inHome⟩ := List.mem_flatMap.mp listed
  obtain ⟨named, has⟩ := List.mem_filter.mp inHome
  exact List.mem_flatMap.mpr ⟨home, moreText.prefixes isHome,
    List.mem_filter.mpr ⟨named, hasFile_mono moreText has⟩⟩

theorem methodRegions_mono {name : String} {region : List Char}
    (listed : region ∈ methodRegions oracle.tables oracle.reader source name) :
    region ∈ methodRegions oracle.tables oracle.reader more name := by
  obtain ⟨⟨path, text, cut⟩, cutIn, same⟩ := List.mem_map.mp listed
  obtain ⟨other, found, ofFile⟩ := List.mem_flatMap.mp cutIn
  have foundMore : other ∈ oracle.hits more .method name pythonSuffix none :=
    hits_mono moreText (fun _ inside => inside) found
  cases isOther : source.text? other with
  | none =>
      rw [isOther] at ofFile
      cases ofFile
  | some content =>
      rw [isOther] at ofFile
      refine List.mem_map.mpr ⟨(path, text, cut), List.mem_flatMap.mpr ⟨other, foundMore, ?_⟩, same⟩
      rw [moreText.texts other content isOther]
      exact ofFile

theorem dottedPresent_mono
    (scopes : ∀ path, inScope files path = true → inScope others path = true)
    (present : oracle.dottedPresent source suffixes files ident = true) :
    oracle.dottedPresent more suffixes others ident = true := by
  rw [Oracle.dottedPresent, Bool.or_eq_true, Bool.and_eq_true] at present ⊢
  rw [moreText.module]
  exact present.imp (shown_mono moreText scopes)
    (And.imp_right (shown_mono moreText scopes))

end Found

structure Improves (given more : Option Bool) : Prop where
  undecided : given = none → more = none
  found : given = some true → more = some true

theorem improves_same (given : Option Bool) : Improves given given := ⟨id, id⟩

theorem Improves.kept {given more : Option Bool} (improves : Improves given more)
    (standing : given ≠ some false) : more ≠ some false := by
  cases given with
  | none =>
      rw [improves.undecided rfl]
      exact Option.some_ne_none _ |>.symm
  | some present =>
      cases present with
      | false => exact absurd rfl standing
      | true =>
          rw [improves.found rfl]
          exact fun same => Bool.false_ne_true (Option.some.inj same).symm

theorem improves_some {given more : Bool} (found : given = true → more = true) :
    Improves (some given) (some more) where
  undecided isNone := by cases isNone
  found isTrue := congrArg some (found (Option.some.inj isTrue))

theorem improves_map {Item : Type} {item : Option Item} {given more : Item → Bool}
    (found : ∀ value, given value = true → more value = true) :
    Improves (item.map given) (item.map more) := by
  cases item with
  | none => exact improves_same _
  | some value => exact improves_some (found value)

theorem inScope_of_mem {files : Option (List String)} {paths : List String} {path : String}
    (listed : path ∈ files.getD paths) : inScope files path = true := by
  cases files with
  | none => rfl
  | some wanted => exact List.contains_iff_mem.mpr listed

section Improve
variable {oracle : Oracle} {source more : ModuleSource} (moreText : MoreText source more)
include moreText

theorem usesPresent_improves (rel : StaleRel) :
    Improves (usesPresent oracle.tables oracle.reader source rel)
      (usesPresent oracle.tables oracle.reader more rel) := by
  rw [usesPresent, usesPresent]
  cases given rel.startName with
  | none => exact improves_same _
  | some name =>
      cases rel.symbol with
      | none => exact improves_same _
      | some ident =>
          refine improves_some fun found => ?_
          obtain ⟨region, listed, inRegion⟩ := List.any_eq_true.mp found
          exact List.any_eq_true.mpr ⟨region, methodRegions_mono moreText listed, inRegion⟩

theorem endIdentPresent_improves (rel : StaleRel) {suffixes files others : Option (List String)}
    (scopes : ∀ path, inScope files path = true → inScope others path = true) :
    Improves (oracle.endIdentPresent source rel suffixes files)
      (oracle.endIdentPresent more rel suffixes others) := by
  rw [Oracle.endIdentPresent, Oracle.endIdentPresent]
  cases if rel.endLabels.contains .model then given rel.endName else none with
  | some name => exact improves_some (shown_mono moreText scopes)
  | none =>
      cases (given rel.endXmlid).or
          (if rel.endLabels.contains .assetBundle then given rel.endName else none) with
      | some dotted =>
          refine improves_some fun found => ?_
          obtain ⟨ident, listed, present⟩ := List.any_eq_true.mp found
          exact List.any_eq_true.mpr ⟨ident, listed, dottedPresent_mono moreText scopes present⟩
      | none =>
          cases if rel.endLabels.contains .stylesheet then given rel.endFile else none with
          | some file =>
              by_cases noStem : unpartial (stem file) = ""
              · simp only [if_pos noStem]
                exact improves_same _
              · simp only [if_neg noStem]
                refine improves_some fun found => ?_
                obtain ⟨path, listed, shows_⟩ := List.any_eq_true.mp found
                refine List.any_eq_true.mpr ⟨path, ?_, fileShows_mono moreText shows_⟩
                have inside := scopes path (inScope_of_mem listed)
                obtain ⟨text, isText, -⟩ := (Option.any_eq_true _ _).mp shows_
                cases others with
                | none => exact ModuleSource.text?_paths (moreText.texts path text isText)
                | some wanted => exact List.contains_iff_mem.mp inside
          | none => exact improves_map fun _ => shown_mono moreText scopes

theorem patchPresent_mono {node : StaleNode} {path : String}
    (present : oracle.patchPresent source node path = true) :
    oracle.patchPresent more node path = true := by
  rw [Oracle.patchPresent, Bool.and_eq_true, Bool.and_eq_true] at present ⊢
  refine ⟨⟨hasFile_mono moreText present.1.1, ?_⟩, fileShows_mono moreText present.2⟩
  cases target : given node.target with
  | none => rfl
  | some target =>
      have ok := present.1.2
      simp only [target, Bool.or_eq_true] at ok ⊢
      exact ok.imp id (fileShows_mono moreText)

theorem violationPresent_improves (node : StaleNode) (path : String) :
    Improves (oracle.violationPresent source node path)
      (oracle.violationPresent more node path) := by
  rw [Oracle.violationPresent, Oracle.violationPresent]
  cases has : source.hasFile path with
  | false =>
      constructor
      · intro isNone
        cases isNone
      · intro isTrue
        cases isTrue
  | true =>
      rw [hasFile_mono moreText has]
      cases node.parentLive with
      | true => exact improves_same _
      | false => exact improves_map fun xmlid => shown_mono moreText fun _ => id

theorem filePresent_improves (node : StaleNode) (path : String) :
    Improves (oracle.filePresent source node path) (oracle.filePresent more node path) := by
  rw [Oracle.filePresent, Oracle.filePresent]
  split
  · exact improves_some (patchPresent_mono moreText)
  · exact violationPresent_improves moreText node path
  · exact improves_some (hasFile_mono moreText)

end Improve

inductive StaleItem where
  | node (node : StaleNode)
  | rel (rel : StaleRel)

section Verdicts
variable (oracle : Oracle)

def Oracle.verdict (source : ModuleSource) : StaleItem → Verdict
  | .node node => oracle.node source node
  | .rel rel => oracle.rel source rel

theorem node_present {source : ModuleSource} (node : StaleNode)
    (available : source.available = true) : oracle.node source node = .present ↔
      oracle.nodePresent source node = none ∨
        oracle.nodePresent source node = some true ∧ oracle.replaced source node = false := by
  rw [Oracle.node, available]
  cases oracle.nodePresent source node with
  | none => simp
  | some present =>
      cases present <;> cases oracle.replaced source node <;> simp

theorem rel_present {source : ModuleSource} (rel : StaleRel)
    (available : source.available = true) : oracle.rel source rel = .present ↔
      rel.replaced = false ∧ oracle.relPresent source rel ≠ some false := by
  rw [Oracle.rel, available]
  cases rel.replaced with
  | true => simp
  | false =>
      cases oracle.relPresent source rel with
      | none => simp
      | some present => cases present <;> simp

variable (source more : ModuleSource)

def MemberKept (kind : MemberKind) (name model : String) : Prop :=
  (∃ path ∈ oracle.hits source kind.form name pythonSuffix none,
    ∃ cls ∈ (oracle.index source).byPath path, name ∈ cls.members kind ∧
      (oracle.index source).effectiveModels cls = none) →
  ∃ path ∈ oracle.hits more kind.form name pythonSuffix none,
    path ∈ (oracle.index more).unparsed ∨
      ∃ cls ∈ (oracle.index more).byPath path,
        (oracle.index more).declares kind name model cls = true

/-- The path is of no directory of the module, and nothing proves that its file is gone. -/
def Unplaced (node : StaleNode) : Prop :=
  source.relPath oracle.repo node.filePath = none ∧
    source.foreignPathAbsent oracle.repo node.filePath = false

def TestKept (node : StaleNode) : Prop :=
  Unplaced oracle source node → ∀ path, more.relPath oracle.repo node.filePath = some path →
    more.hasFile path = true ∧ oracle.testDefinedIn more node path = true

/-- The file has what is keyed by it. -/
def HeldIn (node : StaleNode) (path : String) : Prop :=
  match node.label with
  | .jsPatch => node.twin = false ∧ oracle.patchPresent more node path = true
  | .lintViolation =>
      more.hasFile path = true ∧ node.parentLive = false ∧ ∀ xmlid, given node.xmlid = some xmlid →
        node.twin = false ∧ oracle.shown more .token (localPart xmlid) none none = true
  | _ => node.twin = false ∧ more.hasFile path = true

def FileKept (node : StaleNode) : Prop :=
  Unplaced oracle source node → ∀ path, more.relPath oracle.repo node.filePath = some path →
    HeldIn oracle more node path

def ParentKept (rel : StaleRel) : Prop :=
  (oracle.index source).hasUnresolved = true →
    oracle.endIdentPresent more rel pythonSuffix none ≠ some false ∨
      (oracle.index more).hasUnresolved = true

def NodeKept (node : StaleNode) : Prop :=
  match node.label with
  | .model => node.twin = false → ∀ name, given node.name = some name →
      (oracle.index source).hasUnresolved = true →
        oracle.shown more .model name none none = true ∨
          (oracle.index more).hasUnresolved = true
  | .field => node.twin = false → ∀ name model, given node.name = some name →
      given node.model = some model → MemberKept oracle source more .field name model
  | .method => node.twin = false → ∀ name model, given node.name = some name →
      given node.model = some model → MemberKept oracle source more .method name model
  | .testClass => node.twin = true → ∀ name, given node.name = some name →
      oracle.shown source .cls name pythonSuffix none = true → TestKept oracle source more node
  | .testMethod => node.twin = true → ∀ name testClass, given node.name = some name →
      given node.testClass = some testClass →
      oracle.shown source .method name none
        (some (oracle.hits source .cls testClass pythonSuffix none)) = true →
      TestKept oracle source more node
  | .jsPatch => FileKept oracle source more node
  | .jsTestSuite => FileKept oracle source more node
  | .stylesheet => FileKept oracle source more node
  | .lintViolation => FileKept oracle source more node
  | _ => True

def RelKept (rel : StaleRel) : Prop :=
  match rel.type with
  | .dependsOn => ∀ name, given rel.endName = some name → source.manifests = [] →
      more.manifests ≠ [] → oracle.shown more .token name none (some more.manifests) = true
  | .delegatesTo => source.candidates oracle.tables "_inherits" pythonSuffix ≠ [] →
      ParentKept oracle source more rel
  | .inherits => ParentKept oracle source more rel
  | .imports => oracle.importScope source rel = none → ∀ scope,
      oracle.importScope more rel = some scope →
      oracle.endIdentPresent source rel none none ≠ some false →
        oracle.endIdentPresent more rel none (some scope) ≠ some false
  | _ => True

def TextKeeps : StaleItem → Prop
  | .node node => more.available = true → NodeKept oracle source more node
  | .rel rel => more.available = true → rel.replaced = false → RelKept oracle source more rel

variable {oracle source more}
variable (moreText : MoreText source more) (available : more.available = true)

variable {node : StaleNode} {kind : MemberKind}

theorem replaced_eq (noClass : node.label ≠ .testClass)
    (noMethod : node.label ≠ .testMethod) : oracle.replaced source node =
      (node.twin || node.label == .lintViolation && node.parentLive) := by
  rw [Oracle.replaced, beq_eq_false_iff_ne.mpr noClass, beq_eq_false_iff_ne.mpr noMethod]
  cases node.twin <;> rfl

variable {name model : String}

theorem declares_unknown {index : PyIndex} {cls : PyClass}
    (isMember : name ∈ cls.members kind) (unknown : index.effectiveModels cls = none) :
    index.declares kind name model cls = true := by
  rw [PyIndex.declares, unknown, List.contains_iff_mem.mpr isMember]
  rfl

theorem memberPresent_text {name : String}
    (noModel : given node.model = none) : oracle.memberPresent source kind node name = true ↔
      ∃ path, path ∈ oracle.hits source kind.form name pythonSuffix none := by
  rw [Oracle.memberPresent, noModel]
  exact shown_iff

theorem memberPresent_iff
    (isModel : given node.model = some model) :
    oracle.memberPresent source kind node name = true ↔
      ∃ path ∈ oracle.hits source kind.form name pythonSuffix none,
        path ∈ (oracle.index source).unparsed ∨
          ∃ cls ∈ (oracle.index source).byPath path,
            (oracle.index source).declares kind name model cls = true := by
  rw [Oracle.memberPresent, isModel]
  simp only [PyIndex.memberPresent, List.any_eq_true]
  refine exists_congr fun path => and_congr_right fun listed => ?_
  obtain ⟨text, isText, suffix, -, -⟩ := mem_hits.mp listed
  have isPython : path ∈ source.pythonFiles := List.mem_filter.mpr
    ⟨(mem_sorted _ _).mpr (ModuleSource.text?_paths isText), suffix⟩
  rw [Oracle.index, python_inTrees isPython, Bool.or_eq_true, Bool.not_true, Bool.or_false,
    List.contains_iff_mem, List.any_eq_true]

theorem member_mono (moreText : MoreText source more)
    (kept : MemberKept oracle source more kind name model)
    (found : ∃ path ∈ oracle.hits source kind.form name pythonSuffix none,
      path ∈ (oracle.index source).unparsed ∨
        ∃ cls ∈ (oracle.index source).byPath path,
          (oracle.index source).declares kind name model cls = true) :
    ∃ path ∈ oracle.hits more kind.form name pythonSuffix none,
      path ∈ (oracle.index more).unparsed ∨
        ∃ cls ∈ (oracle.index more).byPath path,
          (oracle.index more).declares kind name model cls = true := by
  obtain ⟨path, listed, unparsed | ⟨cls, inPath, declares⟩⟩ := found
  · exact ⟨path, hits_mono moreText (fun _ => id) listed, Or.inl (grown_unparsed moreText unparsed)⟩
  · rw [PyIndex.declares, Bool.and_eq_true, List.contains_iff_mem] at declares
    cases known : (oracle.index source).effectiveModels cls with
    | none => exact kept ⟨path, listed, cls, inPath, declares.1, known⟩
    | some models =>
        have grows := @pyIndex_grows oracle.python _ _ moreText
        obtain ⟨inClasses, isPath⟩ := List.mem_filter.mp inPath
        have wider := wider_effectiveModels grows (pyIndex_distinct oracle.python more)
          (fun _ => pyIndex_indexed) inClasses
        refine ⟨path, hits_mono moreText (fun _ => id) listed, Or.inr ⟨cls, ?_, ?_⟩⟩
        · exact List.mem_filter.mpr ⟨grown_classes grows inClasses, isPath⟩
        · rw [PyIndex.declares, Bool.and_eq_true, List.contains_iff_mem]
          refine ⟨declares.1, ?_⟩
          have inModels := declares.2
          simp only [known, List.contains_iff_mem] at inModels
          cases knownMore : (oracle.index more).effectiveModels cls with
          | none => rfl
          | some others =>
              exact List.contains_iff_mem.mpr (wider models known others knownMore inModels)

theorem heldIn_iff {path : String} (label : node.label = .jsPatch ∨
      node.label = .jsTestSuite ∨ node.label = .stylesheet ∨ node.label = .lintViolation) :
    HeldIn oracle more node path ↔
      oracle.filePresent more node path = none ∨ oracle.filePresent more node path = some true ∧
        (node.twin || node.label == .lintViolation && node.parentLive) = false := by
  obtain label | label | label | label := label
  · simp [HeldIn, Oracle.filePresent, label, and_comm]
  · simp [HeldIn, Oracle.filePresent, label, and_comm]
  · simp [HeldIn, Oracle.filePresent, label, and_comm]
  · simp only [HeldIn, Oracle.filePresent, label, Oracle.violationPresent]
    cases more.hasFile path <;> cases node.parentLive <;> cases given node.xmlid <;>
      simp [and_comm]

include moreText available

theorem node_kept
    (improves : Improves (oracle.nodePresent source node) (oracle.nodePresent more node))
    (replaced : oracle.nodePresent source node = some true →
      oracle.replaced source node = false → oracle.replaced more node = false)
    (kept : oracle.node source node = .present) : oracle.node more node = .present := by
  obtain undecided | found := (node_present oracle node (moreText.available available)).mp kept
  · exact (node_present oracle node available).mpr (Or.inl (improves.undecided undecided))
  · exact (node_present oracle node available).mpr
      (Or.inr ⟨improves.found found.1, replaced found.1 found.2⟩)

theorem model_kept (label : node.label = .model) :
    (oracle.node source node = .present → oracle.node more node = .present) ↔
      NodeKept oracle source more node := by
  have before := node_present oracle node (moreText.available available)
  have after := node_present oracle node available
  have noClass : node.label ≠ .testClass := by simp [label]
  have noMethod : node.label ≠ .testMethod := by simp [label]
  rw [before, after, replaced_eq noClass noMethod, replaced_eq noClass noMethod]
  simp only [NodeKept, Oracle.nodePresent, label]
  cases given node.name with
  | none => simp
  | some name =>
      cases node.twin with
      | true => simp
      | false =>
          simp only [Option.map_some, Option.some.injEq, reduceCtorEq, false_or, Bool.false_or,
            Bool.or_eq_true, forall_const, forall_eq']
          constructor
          · intro kept unresolved
            exact (kept ⟨Or.inr unresolved, rfl⟩).1
          · intro kept found
            refine ⟨?_, rfl⟩
            obtain shown | unresolved := found.1
            · exact Or.inl (shown_mono moreText (fun _ => id) shown)
            · exact kept unresolved

theorem member_kept (kind : MemberKind)
    (present : ∀ source, oracle.nodePresent source node =
      (given node.name).map (oracle.memberPresent source kind node))
    (label : node.label = .field ∨ node.label = .method) :
    (oracle.node source node = .present → oracle.node more node = .present) ↔
      (node.twin = false → ∀ name model, given node.name = some name →
        given node.model = some model → MemberKept oracle source more kind name model) := by
  have before := node_present oracle node (moreText.available available)
  have after := node_present oracle node available
  have noClass : node.label ≠ .testClass := by
    obtain label | label := label <;> simp [label]
  have noMethod : node.label ≠ .testMethod := by
    obtain label | label := label <;> simp [label]
  have noLint : (node.label == .lintViolation) = false := by
    obtain label | label := label <;> simp [label]
  rw [before, after, replaced_eq noClass noMethod, replaced_eq noClass noMethod, present, present,
    noLint]
  cases given node.name with
  | none => simp
  | some name =>
      cases node.twin with
      | true => simp
      | false =>
          simp only [Option.map_some, Option.some.injEq, reduceCtorEq, false_or, Bool.false_or,
            Bool.false_and, and_true, forall_const]
          cases isModel : given node.model with
          | none =>
              rw [memberPresent_text isModel, memberPresent_text isModel]
              constructor
              · intro _ _ _ _ noModel
                cases noModel
              · intro _ found
                obtain ⟨path, listed⟩ := found
                exact ⟨path, hits_mono moreText (fun _ => id) listed⟩
          | some model =>
              rw [memberPresent_iff isModel, memberPresent_iff isModel]
              constructor
              · intro kept other otherModel sameName sameModel unknown
                rw [← sameName] at unknown ⊢
                rw [← Option.some.inj sameModel]
                obtain ⟨path, listed, cls, inPath, isMember, unknown⟩ := unknown
                refine kept ⟨path, listed, Or.inr ⟨cls, inPath, ?_⟩⟩
                exact declares_unknown isMember unknown
              · intro kept found
                exact member_mono moreText (kept name model rfl rfl) found

omit available in
theorem testDefinedIn_mono {path : String}
    (defined : oracle.testDefinedIn source node path = true) :
    oracle.testDefinedIn more node path = true := by
  rw [Oracle.testDefinedIn] at defined ⊢
  split at defined
  · rw [Bool.and_eq_true, Bool.or_eq_true] at defined ⊢
    exact ⟨shown_mono moreText (fun _ => id) defined.1,
      defined.2.imp id (shown_mono moreText fun _ => id)⟩
  · rfl

omit available in
theorem testMethod_improves {name testClass : Option String} :
    Improves (match name, testClass with
      | some name, some testClass =>
          some (!(oracle.hits source .cls testClass pythonSuffix none).isEmpty &&
            oracle.shown source .method name none
              (some (oracle.hits source .cls testClass pythonSuffix none)))
      | _, _ => none)
      (match name, testClass with
      | some name, some testClass =>
          some (!(oracle.hits more .cls testClass pythonSuffix none).isEmpty &&
            oracle.shown more .method name none
              (some (oracle.hits more .cls testClass pythonSuffix none)))
      | _, _ => none) := by
  cases name with
  | none => exact improves_same _
  | some name =>
      cases testClass with
      | none => exact improves_same _
      | some testClass =>
          refine improves_some fun found => ?_
          rw [Bool.and_eq_true] at found ⊢
          refine ⟨shown_mono moreText (fun _ => id) found.1, shown_mono moreText ?_ found.2⟩
          intro path inHomes
          exact List.contains_iff_mem.mpr
            (hits_mono moreText (fun _ => id) (List.contains_iff_mem.mp inHomes))

omit available in
theorem testInOwnFile_mono (kept : TestKept oracle source more node)
    (own : oracle.testInOwnFile source node = true) :
    oracle.testInOwnFile more node = true := by
  rw [Oracle.testInOwnFile] at own ⊢
  cases mapped : source.relPath oracle.repo node.filePath with
  | some path =>
      rw [mapped, Bool.and_eq_true] at own
      rw [relPath_mono moreText mapped, Bool.and_eq_true]
      exact ⟨hasFile_mono moreText own.1, testDefinedIn_mono moreText own.2⟩
  | none =>
      simp only [mapped, Bool.not_eq_true'] at own
      cases mappedMore : more.relPath oracle.repo node.filePath with
      | some path =>
          obtain ⟨has, defined⟩ := kept ⟨mapped, own⟩ path mappedMore
          simp only [has, defined, Bool.and_self]
      | none =>
          cases foreign : more.foreignPathAbsent oracle.repo node.filePath with
          | false => rfl
          | true =>
              rw [foreignPathAbsent_anti moreText foreign] at own
              cases own

theorem test_kept (label : node.label = .testClass ∨ node.label = .testMethod)
    (improves : Improves (oracle.nodePresent source node) (oracle.nodePresent more node)) :
    (oracle.node source node = .present → oracle.node more node = .present) ↔
      (node.twin = true → oracle.nodePresent source node = some true →
        TestKept oracle source more node) := by
  have before := node_present oracle node (moreText.available available)
  have after := node_present oracle node available
  have isTest : (node.label == .testClass || node.label == .testMethod) = true := by
    obtain label | label := label <;> simp [label]
  rw [before, after, Oracle.replaced, Oracle.replaced, isTest]
  cases twin : node.twin with
  | false =>
      have noLint : (node.label == .lintViolation) = false := by
        obtain label | label := label <;> simp [label]
      simp only [noLint]
      constructor
      · intro _ isTwin
        cases isTwin
      · intro _ given
        exact given.imp improves.undecided (And.imp_left improves.found)
  | true =>
      simp only [if_true, Bool.true_and, Bool.not_eq_false', forall_const]
      constructor
      · intro kept found unplaced path mapped
        have own : oracle.testInOwnFile source node = true := by
          rw [Oracle.testInOwnFile, unplaced.1, unplaced.2]
          rfl
        obtain undecided | found := kept (Or.inr ⟨found, own⟩)
        · rw [improves.found found] at undecided
          cases undecided
        · have ownMore := found.2
          rw [Oracle.testInOwnFile, mapped, Bool.and_eq_true] at ownMore
          exact ownMore
      · intro kept given
        obtain undecided | found := given
        · exact Or.inl (improves.undecided undecided)
        · exact Or.inr ⟨improves.found found.1,
            testInOwnFile_mono moreText (kept found.1) found.2⟩

theorem file_kept (label : node.label = .jsPatch ∨
      node.label = .jsTestSuite ∨ node.label = .stylesheet ∨ node.label = .lintViolation)
    (present : ∀ source, oracle.nodePresent source node = oracle.keyedPresent source node) :
    (oracle.node source node = .present → oracle.node more node = .present) ↔
      FileKept oracle source more node := by
  have before := node_present oracle node (moreText.available available)
  have after := node_present oracle node available
  have noClass : node.label ≠ .testClass := by
    obtain label | label | label | label := label <;> simp [label]
  have noMethod : node.label ≠ .testMethod := by
    obtain label | label | label | label := label <;> simp [label]
  rw [before, after, replaced_eq noClass noMethod, replaced_eq noClass noMethod, present, present,
    FileKept, Unplaced]
  simp only [Oracle.keyedPresent]
  cases mapped : source.relPath oracle.repo node.filePath with
  | some path =>
      rw [relPath_mono moreText mapped]
      have improves : Improves (oracle.filePresent source node path)
          (oracle.filePresent more node path) := filePresent_improves moreText node path
      constructor
      · intro _ unplaced
        cases unplaced.1
      · intro _ given
        exact given.imp improves.undecided (And.imp_left improves.found)
  | none =>
      simp only [Oracle.foreignFileGone]
      cases foreign : source.foreignPathAbsent oracle.repo node.filePath with
      | true => simp
      | false =>
          cases mappedMore : more.relPath oracle.repo node.filePath with
          | none =>
              have notForeign : more.foreignPathAbsent oracle.repo node.filePath = false := by
                rw [← Bool.not_eq_true]
                intro isForeign
                rw [foreignPathAbsent_anti moreText isForeign] at foreign
                cases foreign
              simp [notForeign]
          | some path =>
              simp only [Bool.false_eq_true, if_false, true_or, forall_const, and_self,
                Option.some.injEq, forall_eq']
              exact (heldIn_iff label).symm

theorem node_keeps (node : StaleNode) :
    (oracle.node source node = .present → oracle.node more node = .present) ↔
      NodeKept oracle source more node := by
  have free : Improves (oracle.nodePresent source node) (oracle.nodePresent more node) →
      node.label ≠ .testClass → node.label ≠ .testMethod →
      ((oracle.node source node = .present → oracle.node more node = .present) ↔ True) := by
    intro improves noClass noMethod
    refine iff_true_intro (node_kept moreText available improves fun _ same => ?_)
    rw [replaced_eq noClass noMethod] at same ⊢
    exact same
  cases label : node.label with
  | model => exact model_kept moreText available label
  | field =>
      refine (member_kept moreText available .field (fun source => ?_) (Or.inl label)).trans ?_
      · rw [Oracle.nodePresent, label]
      · rw [NodeKept, label]
  | method =>
      refine (member_kept moreText available .method (fun source => ?_) (Or.inr label)).trans ?_
      · rw [Oracle.nodePresent, label]
      · rw [NodeKept, label]
  | testClass =>
      have improves : Improves (oracle.nodePresent source node) (oracle.nodePresent more node) := by
        rw [Oracle.nodePresent, Oracle.nodePresent, label]
        exact improves_map fun _ => shown_mono moreText fun _ => id
      refine (test_kept moreText available (Or.inl label) improves).trans ?_
      rw [NodeKept, Oracle.nodePresent, label]
      cases given node.name <;> simp
  | testMethod =>
      have improves : Improves (oracle.nodePresent source node) (oracle.nodePresent more node) := by
        rw [Oracle.nodePresent, Oracle.nodePresent, label]
        exact testMethod_improves moreText
      refine (test_kept moreText available (Or.inr label) improves).trans ?_
      rw [NodeKept, Oracle.nodePresent, label]
      cases given node.name with
      | none => simp
      | some name =>
          cases given node.testClass with
          | none => simp
          | some testClass =>
              constructor
              · intro kept isTwin otherName otherClass sameName sameClass shown
                rw [← Option.some.inj sameName, ← Option.some.inj sameClass] at shown
                refine kept isTwin (congrArg some (Bool.and_eq_true_iff.mpr ⟨?_, shown⟩))
                obtain ⟨path, listed⟩ := shown_iff.mp shown
                obtain ⟨text, isText, suffix, scope, found⟩ := mem_hits.mp listed
                exact shown_iff.mpr ⟨path, List.contains_iff_mem.mp scope⟩
              · intro kept isTwin found
                exact kept isTwin name testClass rfl rfl
                  (Bool.and_eq_true_iff.mp (Option.some.inj found)).2
  | testHelper | view | qwebTmpl | report | owlComp =>
      refine (free ?_ (by simp [label]) (by simp [label])).trans (by rw [NodeKept, label])
      rw [Oracle.nodePresent, Oracle.nodePresent, label]
      exact improves_map fun _ => shown_mono moreText fun _ => id
  | jsPatch =>
      refine (file_kept moreText available (Or.inl label) fun source => ?_).trans ?_
      · rw [Oracle.nodePresent, label]
      · rw [NodeKept, label]
  | jsTestSuite =>
      refine (file_kept moreText available (Or.inr (Or.inl label)) fun source => ?_).trans ?_
      · rw [Oracle.nodePresent, label]
      · rw [NodeKept, label]
  | stylesheet =>
      refine (file_kept moreText available (Or.inr (Or.inr (Or.inl label))) fun source => ?_).trans ?_
      · rw [Oracle.nodePresent, label]
      · rw [NodeKept, label]
  | lintViolation =>
      refine (file_kept moreText available (Or.inr (Or.inr (Or.inr label))) fun source => ?_).trans ?_
      · rw [Oracle.nodePresent, label]
      · rw [NodeKept, label]
  | assetBundle | other name =>
      refine (free ?_ (by simp [label]) (by simp [label])).trans (by rw [NodeKept, label])
      rw [Oracle.nodePresent, Oracle.nodePresent, label]
      exact improves_same _

omit available in
theorem importScope_mono {rel : StaleRel} {files : List String}
    (scope : oracle.importScope source rel = some files) :
    oracle.importScope more rel = some files := by
  rw [Oracle.importScope, Option.map_eq_some_iff] at scope ⊢
  obtain ⟨path, isPath, same⟩ := scope
  obtain ⟨mapped, has⟩ := (Option.filter_eq_some_iff).mp isPath
  exact ⟨path, Option.filter_eq_some_iff.mpr ⟨relPath_mono moreText mapped,
    hasFile_mono moreText has⟩, same⟩

omit available in
theorem parent_kept {rel : StaleRel} :
    (oracle.parentPresent source rel ≠ some false → oracle.parentPresent more rel ≠ some false) ↔
      ParentKept oracle source more rel := by
  have improves : Improves (oracle.endIdentPresent source rel pythonSuffix none)
      (oracle.endIdentPresent more rel pythonSuffix none) :=
    endIdentPresent_improves moreText rel fun _ => id
  rw [ParentKept, Oracle.parentPresent, Oracle.parentPresent]
  cases named : oracle.endIdentPresent source rel pythonSuffix none with
  | none => simp [improves.undecided named]
  | some isNamed =>
      cases isNamed with
      | true => simp [improves.found named]
      | false =>
          cases oracle.endIdentPresent more rel pythonSuffix none with
          | none => simp
          | some namedMore =>
              cases namedMore <;> simp

theorem rel_keeps (rel : StaleRel) :
    (oracle.rel source rel = .present → oracle.rel more rel = .present) ↔
      (rel.replaced = false → RelKept oracle source more rel) := by
  rw [rel_present oracle rel (moreText.available available), rel_present oracle rel available]
  cases rel.replaced with
  | true => simp
  | false =>
      simp only [true_and, forall_const]
      have free : Improves (oracle.relPresent source rel) (oracle.relPresent more rel) →
          ((oracle.relPresent source rel ≠ some false → oracle.relPresent more rel ≠ some false) ↔
            True) := by
        intro improves
        exact iff_true_intro improves.kept
      cases type : rel.type with
      | dependsOn =>
          rw [RelKept, Oracle.relPresent, Oracle.relPresent, type]
          cases given rel.endName with
          | none => simp
          | some name =>
              cases listed : source.manifests with
              | nil =>
                  cases more.manifests with
                  | nil | cons first rest => simp
              | cons first rest =>
                  have inMore : ∀ path, inScope (some source.manifests) path = true →
                      inScope (some more.manifests) path = true := fun path inside =>
                    List.contains_iff_mem.mpr
                      (manifests_mono moreText (List.contains_iff_mem.mp inside))
                  have nonempty : more.manifests.isEmpty = false :=
                    List.isEmpty_eq_false_iff_exists_mem.mpr ⟨first, manifests_mono moreText
                      (by rw [listed]; exact List.mem_cons_self)⟩
                  rw [listed] at inMore
                  have improves : Improves
                      (some (oracle.shown source .token name none (some (first :: rest))))
                      (some (oracle.shown more .token name none (some more.manifests))) :=
                    improves_some (shown_mono moreText inMore)
                  simp only [nonempty, List.isEmpty_cons, Bool.false_eq_true, if_false,
                    List.cons_ne_nil, false_implies, implies_true, iff_true]
                  exact improves.kept
      | delegatesTo =>
          rw [RelKept, Oracle.relPresent, Oracle.relPresent, type]
          cases listed : source.candidates oracle.tables "_inherits" pythonSuffix with
          | nil => simp
          | cons first rest =>
              have nonempty :
                  (more.candidates oracle.tables "_inherits" pythonSuffix).isEmpty = false :=
                List.isEmpty_eq_false_iff_exists_mem.mpr ⟨first, candidates_mono moreText
                  (by rw [listed]; exact List.mem_cons_self)⟩
              simp only [nonempty, List.isEmpty_cons, Bool.false_eq_true, if_false]
              refine (parent_kept moreText).trans ?_
              simp
      | usesField | dependsOnField | usesCoreSymbol =>
          refine (free ?_).trans (by rw [RelKept, type])
          rw [Oracle.relPresent, Oracle.relPresent, type]
          exact usesPresent_improves moreText rel
      | imports =>
          rw [RelKept, Oracle.relPresent, Oracle.relPresent, type]
          cases scope : oracle.importScope source rel with
          | some files =>
              rw [importScope_mono moreText scope]
              have improves : Improves (oracle.endIdentPresent source rel none (some files))
                  (oracle.endIdentPresent more rel none (some files)) :=
                endIdentPresent_improves moreText rel fun _ => id
              simp only [reduceCtorEq, false_implies, iff_true]
              exact improves.kept
          | none =>
              cases oracle.importScope more rel with
              | none =>
                  have improves : Improves (oracle.endIdentPresent source rel none none)
                      (oracle.endIdentPresent more rel none none) :=
                    endIdentPresent_improves moreText rel fun _ => id
                  simp only [reduceCtorEq, false_implies, implies_true, iff_true]
                  exact improves.kept
              | some files => simp
      | inherits =>
          rw [RelKept, Oracle.relPresent, Oracle.relPresent, type]
          exact parent_kept moreText
      | other name =>
          refine (free ?_).trans (by rw [RelKept, type])
          rw [Oracle.relPresent, Oracle.relPresent, type]
          exact endIdentPresent_improves moreText rel fun _ => id

omit moreText available in
/-- Text that is added takes no kept item away exactly where what stood open before is found
in it, or still stands open. -/
theorem more_text_keeps (oracle : Oracle) {source more : ModuleSource}
    (moreText : MoreText source more) (item : StaleItem) :
    (oracle.verdict source item = .present → oracle.verdict more item = .present) ↔
      TextKeeps oracle source more item := by
  cases read : more.available with
  | true =>
      cases item with
      | node node =>
          refine (node_keeps moreText read node).trans ?_
          simp only [TextKeeps, read, forall_const]
      | rel rel =>
          refine (rel_keeps moreText read rel).trans ?_
          simp only [TextKeeps, read, forall_const]
  | false =>
      cases item with
      | node node => simp [TextKeeps, Oracle.verdict, Oracle.node, read]
      | rel rel => simp [TextKeeps, Oracle.verdict, Oracle.rel, read]

end Verdicts

def headSource : ModuleSource where
  module := "sale"
  prefixes := ["sale/"]
  available := true
  absentPrefixes := []
  files := [("sale/a.py", "from .c import N\nclass A(Model):\n    _inherit = N\n    x = Char()\n"),
    ("sale/c/__init__.py", "from odoo.addons.base.c import N\n")]
  distinct := by decide

/-- The directory it was indexed from before has a file that binds the constant. -/
def driftSource : ModuleSource where
  module := "sale"
  prefixes := ["sale/", "addons/sale/"]
  available := true
  absentPrefixes := []
  files := headSource.files ++ [("addons/sale/c.py", "N = \"sale.order\"\n")]
  distinct := by decide

def driftPython : Python where
  tree text :=
    if text == "N = \"sale.order\"\n" then
      some [.assign 1 [.name "N"] (.text "sale.order")]
    else if text == "from odoo.addons.base.c import N\n" then
      some [.importFrom 1 0 (some "odoo.addons.base.c") [⟨"N", none⟩]]
    else
      some [.importFrom 1 1 (some "c") [⟨"N", none⟩],
        .cls 2 "A" [.name "Model"] [.assign 3 [.name "_inherit"] (.name "N"),
          .assign 4 [.name "x"] (.call (.name "Char") [])]]
  metaUnresolvable _ := false

def driftOracle : Oracle where
  tables := asciiTables
  python := driftPython
  reader := ⟨fun _ => true, fun _ => []⟩
  repo := ⟨fun _ => none, fun path => !driftSource.hasFile path⟩

def driftField : StaleNode where
  label := .field
  name := some "x"
  model := some "res.partner"
  xmlid := none
  filePath := none
  testClass := none
  target := none
  twin := false
  parentLive := false

theorem drift_moreText : MoreText headSource driftSource where
  module := rfl
  available _ := rfl
  prefixes := List.subset_append_left _ _
  absentPrefixes := List.Subset.refl _
  texts _ _ isText :=
    ModuleSource.text?_eq.mpr (List.mem_append_left _ (ModuleSource.text?_eq.mp isText))

/-- A test helper is searched in every file, so it stays. -/
theorem drift_keeps_helper : driftOracle.verdict driftSource
    (.node { driftField with label := .testHelper, name := some "A" }) = .present :=
  (more_text_keeps driftOracle drift_moreText _).mpr (fun _ => trivial) (by decide +kernel)

/-- The added binding makes the class known on another model only: a kept field is gone. -/
theorem drift_loses_field : MoreText headSource driftSource ∧
    driftOracle.verdict headSource (.node driftField) = .present ∧
    driftOracle.verdict driftSource (.node driftField) = .gone :=
  ⟨drift_moreText, by decide +kernel, by decide +kernel⟩

end OdooSemantic.Prune
