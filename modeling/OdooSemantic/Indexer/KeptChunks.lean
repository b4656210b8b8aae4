import OdooSemantic.Indexer.EmbeddingChunks

/-!
# The rows of kept children

A child the prune keeps although the parse no longer produces it keeps its rows of
the embeddings table: the filters of the kept children name them again, next to the
makers that named them first.
-/

namespace OdooSemantic.Indexer.KeptChunks

open Lib.Windows Lib.Py Lib.Runs
open Indexer.JsChunks (Text Era JSChunk)
open Indexer.EmbeddingChunks
open Prune (StaleNode ItemLabel given pathParts)

structure ChunkFilter where
  chunkType : ChunkType
  entityName : Option String
  filePath : Option String

def ChunkFilter.matches (filter : ChunkFilter) (row : EmbeddingChunk) : Bool :=
  filter.chunkType == row.chunkType &&
    filter.entityName.all (· == row.entityName) && filter.filePath.all (· == row.filePath)

def jsChunkTypes : List ChunkType := [.js .era1, .js .era2, .js .era3]

def styleChunkTypes : List ChunkType := [.css, .scss, .less]

/-- `f"{model}.{name}"`, when both are there. -/
def memberFilter (chunkType : ChunkType) (node : StaleNode) : List ChunkFilter :=
  match given node.name, given node.model with
  | some name, some model => [⟨chunkType, some (model ++ "." ++ name), none⟩]
  | _, _ => []

def xmlidFilter (chunkType : ChunkType) (node : StaleNode) : List ChunkFilter :=
  match given node.xmlid with
  | some xmlid => [⟨chunkType, some xmlid, none⟩]
  | none => []

def fileFilters (chunkTypes : List ChunkType) (node : StaleNode) : List ChunkFilter :=
  match given node.filePath with
  | some file => chunkTypes.map fun chunkType => ⟨chunkType, none, some file⟩
  | none => []

def nodeFilters (node : StaleNode) : List ChunkFilter :=
  match node.label with
  | .field => memberFilter .field node
  | .method => memberFilter .method node
  | .view => xmlidFilter .view node
  | .qwebTmpl => xmlidFilter .qweb node
  | .testClass =>
      match given node.name with
      | some name => [⟨.testClass, some (name ++ ".__class__"), none⟩]
      | none => []
  | .testMethod =>
      match given node.name, given node.testClass with
      | some name, some testClass => [⟨.testMethod, some (testClass ++ "." ++ name), none⟩]
      | _, _ => []
  | .jsTestSuite => fileFilters [.jsTest] node
  | .stylesheet => fileFilters styleChunkTypes node
  | .jsPatch => fileFilters jsChunkTypes node
  | .owlComp => fileFilters jsChunkTypes node
  | _ => []

def keptEntityChunkFilters (nodes : List StaleNode) : List ChunkFilter :=
  nodes.flatMap nodeFilters

structure StoredRow where
  chunk : EmbeddingChunk
  profileName : String
  indexedAt : Nat

/-- `ux_embeddings_chunk` within a module, version and profile. -/
abbrev ChunkKey := ChunkType × String × String × Nat

def chunkKey (chunk : EmbeddingChunk) : ChunkKey :=
  (chunk.chunkType, chunk.entityName, chunk.filePath, chunk.chunkIdx)

def globalProfile : String := "__global__"

/-- A filter with neither an entity name nor a file path is ignored. -/
def alsoKept (alsoKeep : List ChunkFilter) (row : EmbeddingChunk) : Bool :=
  alsoKeep.any fun filter =>
    (filter.entityName.isSome || filter.filePath.isSome) && filter.matches row

def keyKept (keepKeys : List ChunkKey) (byEntity : Bool) (row : EmbeddingChunk) : Bool :=
  keepKeys.any fun key => key.1 == row.chunkType && key.2.1 == row.entityName &&
    (byEntity || (key.2.2.1 == row.filePath && key.2.2.2 == row.chunkIdx))

def deleteModuleEmbeddingsExcept (table : List StoredRow) (module version profileName : String)
    (keepKeys : List ChunkKey) (byEntity : Bool) (alsoKeep : List ChunkFilter) :
    List StoredRow :=
  if profileName = "" ∨ profileName = globalProfile then table
  else table.filter fun row =>
    !(row.chunk.module == module && row.chunk.odooVersion == version &&
        row.profileName == profileName) ||
      keyKept keepKeys byEntity row.chunk || alsoKept alsoKeep row.chunk

def ownerLive (table : List StoredRow) (owners : List (String × Nat)) (row : StoredRow) : Bool :=
  table.any fun live => owners.any fun owner =>
    live.profileName == owner.1 && decide (owner.2 ≤ live.indexedAt) &&
      live.chunk.module == row.chunk.module &&
      live.chunk.odooVersion == row.chunk.odooVersion &&
      decide (chunkKey live.chunk = chunkKey row.chunk)

def sharedModuleStaleEmbeddings (table : List StoredRow) (module version : String)
    (owners : List (String × Nat)) (alsoKeep : List ChunkFilter) : List StoredRow :=
  let pairs := owners.filter fun owner => owner.1 != "" && owner.1 != globalProfile
  table.filter fun row =>
    !(row.chunk.module == module && row.chunk.odooVersion == version &&
        pairs.any (fun owner => owner.1 == row.profileName)) ||
      ownerLive table pairs row || alsoKept alsoKeep row.chunk

structure JSPatchInfo where
  target : String
  patchName : String
  filePath : String

structure OWLCompInfo where
  name : String
  filePath : String

structure ModuleParse where
  info : ModuleInfo
  root : RepoRoot
  rooted : info.repoRoot = some root
  models : List ModelInfo
  views : List ViewInfo
  qweb : List QWebInfo
  jsChunks : List JSChunk
  patches : List JSPatchInfo
  components : List OWLCompInfo
  cssChunks : List CSSChunk
  scssChunks : List SCSSChunk
  lessChunks : List SCSSChunk
  testClasses : List TestClassInfo
  suites : List JsTestSuiteInfo
  modelNames : ∀ model ∈ models, model.name ≠ ""
  methodNames : ∀ model ∈ models, ∀ method ∈ model.methods, method.name ≠ ""
  fieldNames : ∀ model ∈ models, ∀ fld ∈ model.fields, fld.name ≠ ""
  viewXmlids : ∀ view ∈ views, view.xmlid ≠ ""
  qwebXmlids : ∀ template ∈ qweb, template.xmlid ≠ ""
  jsFiles : ∀ chunk ∈ jsChunks, chunk.filePath ≠ ""
  styleFiles : ∀ chunk ∈ cssChunks ++ scssChunks ++ lessChunks, chunk.filePath ≠ ""
  classNames : ∀ tc ∈ testClasses, tc.name ≠ ""
  testNames : ∀ tc ∈ testClasses, ∀ method ∈ tc.methods, method.name ≠ ""
  suiteFiles : ∀ suite ∈ suites, ∃ path, path ≠ "" ∧ suite.filePath = toRepoRelative root path

/-- A child of a module by what its node is merged on. -/
inductive Child where
  | field (model name : String)
  | method (model name : String)
  | view (xmlid : String)
  | qwebTmpl (xmlid : String)
  | testClass (name : String)
  | testMethod (testClass name : String)
  | jsTestSuite (file : String)
  | stylesheet (file : String)
  | jsPatch (target patchName : String)
  | owlComp (name : String)

def Child.Describes (child : Child) (node : StaleNode) : Prop :=
  match child with
  | .field model name =>
      node.label = .field ∧ node.name = some name ∧ node.model = some model
  | .method model name =>
      node.label = .method ∧ node.name = some name ∧ node.model = some model
  | .view xmlid => node.label = .view ∧ node.xmlid = some xmlid
  | .qwebTmpl xmlid => node.label = .qwebTmpl ∧ node.xmlid = some xmlid
  | .testClass name => node.label = .testClass ∧ node.name = some name
  | .testMethod inClass name =>
      node.label = .testMethod ∧ node.name = some name ∧ node.testClass = some inClass
  | .jsTestSuite file => node.label = .jsTestSuite ∧ node.filePath = some file
  | .stylesheet file => node.label = .stylesheet ∧ node.filePath = some file
  | .jsPatch target _ => node.label = .jsPatch ∧ node.target = some target
  | .owlComp name => node.label = .owlComp ∧ node.name = some name

section Rows
variable (settings : TokenSettings) (py : PyText) (module version : String)

def ModuleParse.chunks (parse : ModuleParse) : List EmbeddingChunk :=
  makeChunks settings py module version ⟨parse.info, parse.models⟩
      (some ⟨parse.views, parse.qweb⟩) parse.jsChunks ++
    makeCssChunks settings (some parse.info) parse.cssChunks ++
    makeScssChunks settings (some parse.info) parse.scssChunks ++
    makeLessChunks settings (some parse.info) parse.lessChunks ++
    makeTestChunks settings py module version ⟨parse.info, parse.testClasses⟩ ++
    makeJsTestChunks settings module version parse.suites parse.info.repo parse.info.repoId

def ModuleParse.jsRows (parse : ModuleParse) (files : List String) : List EmbeddingChunk :=
  (parse.jsChunks.filter fun chunk => files.contains chunk.filePath).flatMap
    (jsChunkChunks settings module version parse.info)

def ModuleParse.rowsOf (parse : ModuleParse) : Child → List EmbeddingChunk
  | .field model name =>
      (parse.models.filter (·.name == model)).flatMap fun found =>
        (found.fields.filter (·.name == name)).flatMap
          (fieldChunks settings py module version parse.info found)
  | .method model name =>
      (parse.models.filter (·.name == model)).flatMap fun found =>
        (found.methods.filter (·.name == name)).flatMap
          (methodChunks settings module version parse.info found)
  | .view xmlid =>
      (parse.views.filter (·.xmlid == xmlid)).flatMap
        (viewChunks settings module version parse.info)
  | .qwebTmpl xmlid =>
      (parse.qweb.filter (·.xmlid == xmlid)).flatMap
        (qwebChunks settings module version parse.info)
  | .testClass name =>
      (parse.testClasses.filter (·.name == name)).flatMap
        (testClassChunks settings py module version parse.info)
  | .testMethod testClass name =>
      (parse.testClasses.filter (·.name == testClass)).flatMap fun tc =>
        (tc.methods.filter (·.name == name)).flatMap
          (testMethodChunks settings py module version parse.info tc)
  | .jsTestSuite file =>
      (parse.suites.filter (·.filePath == file)).flatMap
        (suiteChunks settings module version parse.info.repo parse.info.repoId)
  | .stylesheet file =>
      let there : StyleChunk → Bool := fun chunk => parse.info.relativePath chunk.filePath == file
      makeCssChunks settings (some parse.info) (parse.cssChunks.filter there) ++
        makeScssChunks settings (some parse.info) (parse.scssChunks.filter there) ++
        makeLessChunks settings (some parse.info) (parse.lessChunks.filter there)
  | .jsPatch target patchName =>
      parse.jsRows settings module version
        ((parse.patches.filter fun patch =>
          patch.target == target && patch.patchName == patchName).map JSPatchInfo.filePath)
  | .owlComp name =>
      parse.jsRows settings module version
        ((parse.components.filter (·.name == name)).map OWLCompInfo.filePath)

end Rows

def keptNode (root : RepoRoot) (node : StaleNode) : StaleNode :=
  { node with filePath := node.filePath.map (toRepoRelative root) }

section Paths
variable (root : RepoRoot)

theorem pathParts_plain {path part : List Char} (inPath : part ∈ pathParts path) :
    part ≠ [] ∧ '/' ∉ part := by
  obtain ⟨before, after, split, nonempty, all, bounded⟩ :=
    (mem_runs _).mp (List.mem_filter.mp inPath).1
  refine ⟨nonempty, fun slash => ?_⟩
  have word := all '/' slash
  simp at word

theorem join_relative {first : List Char} {others : List String} (nonempty : first ≠ [])
    (plain : '/' ∉ first) :
    join "/" (String.ofList first :: others) ≠ "" ∧
      startsWith (join "/" (String.ofList first :: others)) "/" = false := by
  obtain ⟨char, rest, rfl⟩ := List.exists_cons_of_ne_nil nonempty
  have other : char ≠ '/' := fun same => plain (same ▸ List.mem_cons_self)
  obtain ⟨tail, letters⟩ : ∃ tail,
      (join "/" (String.ofList (char :: rest) :: others)).toList = char :: tail := by
    have whole := join_toList '/' (String.ofList (char :: rest) :: others)
    rw [List.map_cons, String.toList_ofList] at whole
    cases others with
    | nil =>
        rw [List.map_nil] at whole
        exact ⟨rest, whole.trans (by simp [List.intercalate])⟩
    | cons next more =>
        rw [List.map_cons, List.intercalate_cons_cons] at whole
        exact ⟨_, whole⟩
  constructor
  · intro none
    rw [none] at letters
    cases letters
  · rw [startsWith, letters]
    have slash : "/".toList = ['/'] := rfl
    rw [slash, List.isPrefixOf, beq_false_of_ne other.symm, Bool.false_and]

theorem toRepoRelative_cases (path : String) :
    toRepoRelative root path = path ∨
      (toRepoRelative root path ≠ "" ∧ startsWith (toRepoRelative root path) "/" = false) := by
  by_cases under : (startsWith path "/" &&
      root.parts.isPrefixOf ((pathParts path.toList).map String.ofList)) = true
  · refine .inr ?_
    cases below : ((pathParts path.toList).map String.ofList).drop root.parts.length with
    | nil =>
        simp only [toRepoRelative, under, below, reduceIte]
        decide
    | cons first others =>
        have inPath : first ∈ (pathParts path.toList).map String.ofList :=
          List.mem_of_mem_drop (below ▸ List.mem_cons_self)
        obtain ⟨part, partIn, same⟩ := List.mem_map.mp inPath
        obtain ⟨nonempty, plain⟩ := pathParts_plain partIn
        simp only [toRepoRelative, under, below, ← same]
        exact join_relative nonempty plain
  · refine .inl ?_
    simp only [toRepoRelative, if_neg under]

theorem toRepoRelative_nonempty {path : String} (nonempty : path ≠ "") :
    toRepoRelative root path ≠ "" := by
  obtain same | ⟨other, -⟩ := toRepoRelative_cases root path
  · rwa [same]
  · exact other

theorem toRepoRelative_again (path : String) :
    toRepoRelative root (toRepoRelative root path) = toRepoRelative root path := by
  obtain same | ⟨-, relative⟩ := toRepoRelative_cases root path
  · rw [same, same]
  · rw [toRepoRelative]
    simp only [relative, Bool.false_and]
    rfl

end Paths

def Child.InFile (child : Child) (root : RepoRoot) (node : StaleNode) (row : EmbeddingChunk) :
    Prop :=
  match child with
  | .jsPatch _ _ => (keptNode root node).filePath = some row.filePath
  | .owlComp _ => (keptNode root node).filePath = some row.filePath
  | _ => True

theorem given_some {text : String} (nonempty : text ≠ "") : given (some text) = some text := by
  rw [given, Option.filter_some, if_pos (by simpa using nonempty)]

variable {chunkType : ChunkType} {node : StaleNode}

theorem named_matches {name : String} {base : EmbeddingChunk}
    (chunkIdx : Nat) (text : Text) (typed : base.chunkType = chunkType)
    (named : base.entityName = name) :
    ChunkFilter.matches ⟨chunkType, some name, none⟩ (base.at chunkIdx text) = true := by
  simp [ChunkFilter.matches, EmbeddingChunk.at, typed, named]

theorem filed_matches {file : String} {base : EmbeddingChunk}
    (chunkIdx : Nat) (text : Text) (typed : base.chunkType = chunkType)
    (filed : base.filePath = file) :
    ChunkFilter.matches ⟨chunkType, none, some file⟩ (base.at chunkIdx text) = true := by
  simp [ChunkFilter.matches, EmbeddingChunk.at, typed, filed]

theorem memberFilter_eq {name model : String}
    (named : node.name = some name) (modelled : node.model = some model) (nonempty : name ≠ "")
    (given' : model ≠ "") :
    memberFilter chunkType node = [⟨chunkType, some (model ++ "." ++ name), none⟩] := by
  rw [memberFilter, named, modelled, given_some nonempty, given_some given']

theorem xmlidFilter_eq {xmlid : String}
    (named : node.xmlid = some xmlid) (nonempty : xmlid ≠ "") :
    xmlidFilter chunkType node = [⟨chunkType, some xmlid, none⟩] := by
  rw [xmlidFilter, named, given_some nonempty]

theorem fileFilters_eq {chunkTypes : List ChunkType} {file : String}
    (filed : node.filePath = some file) (nonempty : file ≠ "") :
    fileFilters chunkTypes node = chunkTypes.map fun chunkType =>
      (⟨chunkType, none, some file⟩ : ChunkFilter) := by
  rw [fileFilters, filed, given_some nonempty]

section Matches
variable {settings : TokenSettings} {py : PyText} {module version : String}
variable {parse : ModuleParse} {node : StaleNode}

variable {files : List String} {row : EmbeddingChunk}

theorem jsRows_shape
    (made : row ∈ parse.jsRows settings module version files) :
    ∃ era base chunkIdx text, row = EmbeddingChunk.at base chunkIdx text ∧
      base.chunkType = .js era ∧ base.filePath ≠ "" := by
  obtain ⟨chunk, chunkIn, rowIn⟩ := List.mem_flatMap.mp made
  obtain ⟨chunkIdx, text, same⟩ := mem_tokenSplitChunk rowIn
  refine ⟨chunk.era, _, chunkIdx, text, same, rfl, ?_⟩
  show parse.info.relativePath chunk.filePath ≠ ""
  rw [ModuleInfo.relativePath, parse.rooted]
  exact toRepoRelative_nonempty parse.root (parse.jsFiles chunk (List.mem_filter.mp chunkIn).1)

theorem jsRows_match
    (made : row ∈ parse.jsRows settings module version files)
    (filed : (keptNode parse.root node).filePath = some row.filePath) :
    ∃ filter ∈ fileFilters jsChunkTypes (keptNode parse.root node),
      filter.matches row = true := by
  obtain ⟨era, base, chunkIdx, text, same, typed, nonempty⟩ := jsRows_shape made
  rw [same] at filed
  rw [fileFilters_eq filed nonempty, same]
  refine ⟨⟨.js era, none, some base.filePath⟩, ?_, filed_matches chunkIdx text typed rfl⟩
  refine List.mem_map.mpr ⟨.js era, ?_, rfl⟩
  cases era with
  | era1 => exact .head _
  | era2 => exact .tail _ (.head _)
  | era3 => exact .tail _ (.tail _ (.head _))

theorem styleRows_match {chunkType : ChunkType} {entity : StyleChunk → String}
    {chunks : List StyleChunk} {file : String}
    (made : row ∈ (chunks.filter fun chunk => parse.info.relativePath chunk.filePath == file).flatMap
      fun chunk => styleChunkChunks settings chunkType (some parse.info) (entity chunk) chunk)
    (typed : chunkType ∈ styleChunkTypes) (filed : node.filePath = some file)
    (named : ∀ chunk ∈ chunks, chunk.filePath ≠ "") :
    ∃ filter ∈ fileFilters styleChunkTypes (keptNode parse.root node),
      filter.matches row = true := by
  obtain ⟨chunk, chunkIn, rowIn⟩ := List.mem_flatMap.mp made
  obtain ⟨listed, there⟩ := List.mem_filter.mp chunkIn
  rw [beq_iff_eq, ModuleInfo.relativePath, parse.rooted] at there
  obtain ⟨chunkIdx, text, same⟩ := mem_tokenSplitChunk rowIn
  have again : (keptNode parse.root node).filePath = some file := by
    rw [keptNode, filed, Option.map_some, ← there, toRepoRelative_again]
  have nonempty : file ≠ "" := by
    rw [← there]
    exact toRepoRelative_nonempty parse.root (named chunk listed)
  rw [fileFilters_eq again nonempty, same]
  refine ⟨_, List.mem_map.mpr ⟨chunkType, typed, rfl⟩, filed_matches chunkIdx text rfl ?_⟩
  show parse.info.relativePath chunk.filePath = file
  rw [ModuleInfo.relativePath, parse.rooted]
  exact there

theorem rowsOf_match {child : Child} (describes : child.Describes node)
    (made : row ∈ parse.rowsOf settings py module version child)
    (inFile : child.InFile parse.root node row) :
    ∃ filter ∈ nodeFilters (keptNode parse.root node), filter.matches row = true := by
  cases child with
  | field model name =>
      obtain ⟨label, named, modelled⟩ := describes
      obtain ⟨found, foundIn, rowIn⟩ := List.mem_flatMap.mp made
      obtain ⟨fld, fldIn, rowIn⟩ := List.mem_flatMap.mp rowIn
      obtain ⟨listed, sameModel⟩ := List.mem_filter.mp foundIn
      obtain ⟨fldListed, sameName⟩ := List.mem_filter.mp fldIn
      rw [beq_iff_eq] at sameModel sameName
      obtain ⟨chunkIdx, text, same⟩ := mem_sliding rowIn
      have filters := @memberFilter_eq .field (keptNode parse.root node) _ _
        named modelled (sameName ▸ parse.fieldNames found listed fld fldListed)
        (sameModel ▸ parse.modelNames found listed)
      have here : nodeFilters (keptNode parse.root node) =
          memberFilter .field (keptNode parse.root node) := by
        rw [nodeFilters, show (keptNode parse.root node).label = .field from label]
      rw [here, filters, same]
      refine ⟨_, List.mem_singleton_self _, named_matches chunkIdx text rfl ?_⟩
      rw [sameModel, sameName]
  | method model name =>
      obtain ⟨label, named, modelled⟩ := describes
      obtain ⟨found, foundIn, rowIn⟩ := List.mem_flatMap.mp made
      obtain ⟨method, methodIn, rowIn⟩ := List.mem_flatMap.mp rowIn
      obtain ⟨listed, sameModel⟩ := List.mem_filter.mp foundIn
      obtain ⟨methodListed, sameName⟩ := List.mem_filter.mp methodIn
      rw [beq_iff_eq] at sameModel sameName
      obtain ⟨chunkIdx, text, same⟩ := mem_sliding rowIn
      have filters := @memberFilter_eq .method (keptNode parse.root node) _ _
        named modelled (sameName ▸ parse.methodNames found listed method methodListed)
        (sameModel ▸ parse.modelNames found listed)
      have here : nodeFilters (keptNode parse.root node) =
          memberFilter .method (keptNode parse.root node) := by
        rw [nodeFilters, show (keptNode parse.root node).label = .method from label]
      rw [here, filters, same]
      refine ⟨_, List.mem_singleton_self _, named_matches chunkIdx text rfl ?_⟩
      rw [sameModel, sameName]
  | view xmlid =>
      obtain ⟨label, named⟩ := describes
      obtain ⟨view, viewIn, rowIn⟩ := List.mem_flatMap.mp made
      obtain ⟨listed, sameXmlid⟩ := List.mem_filter.mp viewIn
      rw [beq_iff_eq] at sameXmlid
      obtain ⟨chunkIdx, text, same⟩ := mem_sliding rowIn
      have filters := @xmlidFilter_eq .view (keptNode parse.root node) _
        named (sameXmlid ▸ parse.viewXmlids view listed)
      have here : nodeFilters (keptNode parse.root node) =
          xmlidFilter .view (keptNode parse.root node) := by
        rw [nodeFilters, show (keptNode parse.root node).label = .view from label]
      rw [here, filters, same]
      exact ⟨_, List.mem_singleton_self _, named_matches chunkIdx text rfl sameXmlid⟩
  | qwebTmpl xmlid =>
      obtain ⟨label, named⟩ := describes
      obtain ⟨template, templateIn, rowIn⟩ := List.mem_flatMap.mp made
      obtain ⟨listed, sameXmlid⟩ := List.mem_filter.mp templateIn
      rw [beq_iff_eq] at sameXmlid
      obtain ⟨chunkIdx, text, same⟩ := mem_sliding rowIn
      have filters := @xmlidFilter_eq .qweb (keptNode parse.root node) _
        named (sameXmlid ▸ parse.qwebXmlids template listed)
      have here : nodeFilters (keptNode parse.root node) =
          xmlidFilter .qweb (keptNode parse.root node) := by
        rw [nodeFilters, show (keptNode parse.root node).label = .qwebTmpl from label]
      rw [here, filters, same]
      exact ⟨_, List.mem_singleton_self _, named_matches chunkIdx text rfl sameXmlid⟩
  | testClass name =>
      obtain ⟨label, named⟩ := describes
      obtain ⟨tc, tcIn, rowIn⟩ := List.mem_flatMap.mp made
      obtain ⟨listed, sameName⟩ := List.mem_filter.mp tcIn
      rw [beq_iff_eq] at sameName
      obtain ⟨chunkIdx, text, same⟩ := mem_sliding rowIn
      have there : (keptNode parse.root node).name = some name := named
      have here : nodeFilters (keptNode parse.root node) =
          [⟨.testClass, some (name ++ ".__class__"), none⟩] := by
        rw [nodeFilters, show (keptNode parse.root node).label = .testClass from label, there,
          given_some (sameName ▸ parse.classNames tc listed)]
      rw [here, same]
      refine ⟨_, List.mem_singleton_self _, named_matches chunkIdx text rfl ?_⟩
      rw [sameName]
  | testMethod inClass name =>
      obtain ⟨label, named, classed⟩ := describes
      obtain ⟨tc, tcIn, rowIn⟩ := List.mem_flatMap.mp made
      obtain ⟨method, methodIn, rowIn⟩ := List.mem_flatMap.mp rowIn
      obtain ⟨listed, sameClass⟩ := List.mem_filter.mp tcIn
      obtain ⟨methodListed, sameName⟩ := List.mem_filter.mp methodIn
      rw [beq_iff_eq] at sameClass sameName
      rw [testMethodChunks] at rowIn
      split at rowIn
      · obtain ⟨chunkIdx, text, same⟩ := mem_sliding rowIn
        have there : (keptNode parse.root node).name = some name := named
        have inside : (keptNode parse.root node).testClass = some inClass := classed
        have here : nodeFilters (keptNode parse.root node) =
            [⟨.testMethod, some (inClass ++ "." ++ name), none⟩] := by
          rw [nodeFilters, show (keptNode parse.root node).label = .testMethod from label, there,
            inside, given_some (sameName ▸ parse.testNames tc listed method methodListed),
            given_some (sameClass ▸ parse.classNames tc listed)]
        rw [here, same]
        refine ⟨_, List.mem_singleton_self _, named_matches chunkIdx text rfl ?_⟩
        rw [sameClass, sameName]
      · cases rowIn
  | jsTestSuite file =>
      obtain ⟨label, filed⟩ := describes
      obtain ⟨suite, suiteIn, rowIn⟩ := List.mem_flatMap.mp made
      obtain ⟨listed, sameFile⟩ := List.mem_filter.mp suiteIn
      rw [beq_iff_eq] at sameFile
      obtain ⟨path, nonempty, relative⟩ := parse.suiteFiles suite listed
      obtain ⟨chunkIdx, text, same⟩ := mem_tokenSplitChunk rowIn
      have again : (keptNode parse.root node).filePath = some file := by
        rw [keptNode, filed, Option.map_some, ← sameFile, relative, toRepoRelative_again]
      have some : file ≠ "" := by
        rw [← sameFile, relative]
        exact toRepoRelative_nonempty parse.root nonempty
      have here : nodeFilters (keptNode parse.root node) =
          fileFilters [.jsTest] (keptNode parse.root node) := by
        rw [nodeFilters, show (keptNode parse.root node).label = .jsTestSuite from label]
      rw [here, fileFilters_eq again some, same]
      exact ⟨_, List.mem_singleton_self _, filed_matches chunkIdx text rfl sameFile⟩
  | stylesheet file =>
      obtain ⟨label, filed⟩ := describes
      have here : nodeFilters (keptNode parse.root node) =
          fileFilters styleChunkTypes (keptNode parse.root node) := by
        rw [nodeFilters, show (keptNode parse.root node).label = .stylesheet from label]
      have named := parse.styleFiles
      rw [here]
      obtain front | less := List.mem_append.mp made
      · obtain css | scss := List.mem_append.mp front
        · exact styleRows_match css (.head _) filed fun chunk listed =>
            named chunk (List.mem_append_left _ (List.mem_append_left _ listed))
        · exact styleRows_match scss (.tail _ (.head _)) filed fun chunk listed =>
            named chunk (List.mem_append_left _ (List.mem_append_right _ listed))
      · exact styleRows_match less (.tail _ (.tail _ (.head _))) filed fun chunk listed =>
          named chunk (List.mem_append_right _ listed)
  | jsPatch target patchName =>
      obtain ⟨label, -⟩ := describes
      have here : nodeFilters (keptNode parse.root node) =
          fileFilters jsChunkTypes (keptNode parse.root node) := by
        rw [nodeFilters, show (keptNode parse.root node).label = .jsPatch from label]
      rw [here]
      exact jsRows_match made inFile
  | owlComp name =>
      obtain ⟨label, -⟩ := describes
      have here : nodeFilters (keptNode parse.root node) =
          fileFilters jsChunkTypes (keptNode parse.root node) := by
        rw [nodeFilters, show (keptNode parse.root node).label = .owlComp from label]
      rw [here]
      exact jsRows_match made inFile

theorem mem_flatMap_filter {Item : Type} {items : List Item} {keep : Item → Bool}
    {rows : Item → List EmbeddingChunk}
    (made : row ∈ (items.filter keep).flatMap rows) : row ∈ items.flatMap rows := by
  obtain ⟨item, itemIn, rowIn⟩ := List.mem_flatMap.mp made
  exact List.mem_flatMap.mpr ⟨item, (List.mem_filter.mp itemIn).1, rowIn⟩

theorem jsRows_made
    (made : row ∈ parse.jsRows settings module version files) :
    row ∈ makeChunks settings py module version ⟨parse.info, parse.models⟩
      (some ⟨parse.views, parse.qweb⟩) parse.jsChunks := by
  rw [makeChunks]
  exact List.mem_append_right _ (List.mem_append_right _ (mem_flatMap_filter made))

theorem rowsOf_made {child : Child}
    (made : row ∈ parse.rowsOf settings py module version child) :
    row ∈ parse.chunks settings py module version := by
  simp only [ModuleParse.chunks, List.mem_append]
  cases child with
  | field model name =>
      have rowIn := mem_flatMap_filter made
      obtain ⟨found, listed, rowIn⟩ := List.mem_flatMap.mp rowIn
      have member := List.mem_append_right (found.methods.flatMap
        (methodChunks settings module version parse.info found)) (mem_flatMap_filter rowIn)
      refine .inl (.inl (.inl (.inl (.inl ?_))))
      rw [makeChunks]
      exact List.mem_append_left _ (List.mem_flatMap.mpr ⟨found, listed, member⟩)
  | method model name =>
      have rowIn := mem_flatMap_filter made
      obtain ⟨found, listed, rowIn⟩ := List.mem_flatMap.mp rowIn
      have member := List.mem_append_left (found.fields.flatMap
        (fieldChunks settings py module version parse.info found)) (mem_flatMap_filter rowIn)
      refine .inl (.inl (.inl (.inl (.inl ?_))))
      rw [makeChunks]
      exact List.mem_append_left _ (List.mem_flatMap.mpr ⟨found, listed, member⟩)
  | view xmlid =>
      refine .inl (.inl (.inl (.inl (.inl ?_))))
      rw [makeChunks]
      exact List.mem_append_right _ (List.mem_append_left _
        (List.mem_append_left _ (mem_flatMap_filter made)))
  | qwebTmpl xmlid =>
      refine .inl (.inl (.inl (.inl (.inl ?_))))
      rw [makeChunks]
      exact List.mem_append_right _ (List.mem_append_left _
        (List.mem_append_right _ (mem_flatMap_filter made)))
  | testClass name =>
      obtain ⟨tc, listed, rowIn⟩ := List.mem_flatMap.mp (mem_flatMap_filter made)
      exact .inl (.inr (List.mem_flatMap.mpr ⟨tc, listed, List.mem_append_left _ rowIn⟩))
  | testMethod inClass name =>
      obtain ⟨tc, listed, rowIn⟩ := List.mem_flatMap.mp (mem_flatMap_filter made)
      exact .inl (.inr (List.mem_flatMap.mpr
        ⟨tc, listed, List.mem_append_right _ (mem_flatMap_filter rowIn)⟩))
  | jsTestSuite file => exact .inr (mem_flatMap_filter made)
  | stylesheet file =>
      obtain front | less := List.mem_append.mp made
      · obtain css | scss := List.mem_append.mp front
        · exact .inl (.inl (.inl (.inl (.inr (mem_flatMap_filter css)))))
        · exact .inl (.inl (.inl (.inr (mem_flatMap_filter scss))))
      · exact .inl (.inl (.inr (mem_flatMap_filter less)))
  | jsPatch target patchName | owlComp name => exact .inl (.inl (.inl (.inl (.inl (jsRows_made made)))))

end Matches

section Deletes
variable {alsoKeep : List ChunkFilter} {row : EmbeddingChunk}

theorem nodeFilters_name {node : StaleNode} {filter : ChunkFilter}
    (yielded : filter ∈ nodeFilters node) :
    (filter.entityName.isSome || filter.filePath.isSome) = true := by
  have members : ∀ chunkType, ∀ one ∈ memberFilter chunkType node,
      (one.entityName.isSome || one.filePath.isSome) = true := by
    intro chunkType one listed
    rw [memberFilter] at listed
    split at listed
    · rw [List.mem_singleton.mp listed]
      rfl
    · cases listed
  have xmlids : ∀ chunkType, ∀ one ∈ xmlidFilter chunkType node,
      (one.entityName.isSome || one.filePath.isSome) = true := by
    intro chunkType one listed
    rw [xmlidFilter] at listed
    split at listed
    · rw [List.mem_singleton.mp listed]
      rfl
    · cases listed
  have files : ∀ chunkTypes, ∀ one ∈ fileFilters chunkTypes node,
      (one.entityName.isSome || one.filePath.isSome) = true := by
    intro chunkTypes one listed
    rw [fileFilters] at listed
    split at listed
    · obtain ⟨chunkType, -, same⟩ := List.mem_map.mp listed
      rw [← same]
      rfl
    · cases listed
  rw [nodeFilters] at yielded
  split at yielded
  · exact members _ filter yielded
  · exact members _ filter yielded
  · exact xmlids _ filter yielded
  · exact xmlids _ filter yielded
  · split at yielded
    · rw [List.mem_singleton.mp yielded]
      rfl
    · cases yielded
  · split at yielded
    · rw [List.mem_singleton.mp yielded]
      rfl
    · cases yielded
  · exact files _ filter yielded
  · exact files _ filter yielded
  · exact files _ filter yielded
  · exact files _ filter yielded
  · cases yielded

theorem alsoKept_of {nodes : List StaleNode}
    (included : ∀ filter ∈ keptEntityChunkFilters nodes, filter ∈ alsoKeep)
    (named : ∃ filter ∈ keptEntityChunkFilters nodes, filter.matches row = true) :
    alsoKept alsoKeep row = true := by
  obtain ⟨filter, yielded, matched⟩ := named
  obtain ⟨node, -, fromNode⟩ := List.mem_flatMap.mp yielded
  rw [alsoKept, List.any_eq_true]
  exact ⟨filter, included filter yielded, by rw [nodeFilters_name fromNode, matched]; rfl⟩

theorem deleteModuleEmbeddingsExcept_keeps {table : List StoredRow} {stored : StoredRow}
    (listed : stored ∈ table) (kept : alsoKept alsoKeep stored.chunk = true)
    (module version profileName : String) (keepKeys : List ChunkKey) (byEntity : Bool) :
    stored ∈ deleteModuleEmbeddingsExcept table module version profileName keepKeys byEntity
      alsoKeep := by
  rw [deleteModuleEmbeddingsExcept]
  split
  · exact listed
  · exact List.mem_filter.mpr ⟨listed, by rw [kept, Bool.or_true]⟩

theorem sharedModuleStaleEmbeddings_keeps {table : List StoredRow} {stored : StoredRow}
    (listed : stored ∈ table) (kept : alsoKept alsoKeep stored.chunk = true)
    (module version : String) (owners : List (String × Nat)) :
    stored ∈ sharedModuleStaleEmbeddings table module version owners alsoKeep :=
  List.mem_filter.mpr ⟨listed, by rw [kept, Bool.or_true]⟩

end Deletes

/-- Whatever the prune keeps and whatever parse built the rows: a row built for a kept child,
of the file its node names where the node names one it is not merged on, matches a filter, and
no delete that is given the filters takes it. -/
theorem kept_rows_stay (settings : TokenSettings) (py : PyText) (module version : String)
    (parse : ModuleParse) (kept : List StaleNode) (child : Child) (node : StaleNode)
    (isKept : node ∈ kept) (describes : child.Describes node) :
    ∀ row ∈ parse.rowsOf settings py module version child,
      child.InFile parse.root node row →
      row ∈ parse.chunks settings py module version ∧
      (∃ filter ∈ keptEntityChunkFilters (kept.map (keptNode parse.root)),
        filter.matches row = true) ∧
      ∀ table stored, stored ∈ table → stored.chunk = row → ∀ alsoKeep : List ChunkFilter,
        (∀ filter ∈ keptEntityChunkFilters (kept.map (keptNode parse.root)),
          filter ∈ alsoKeep) →
        (∀ inModule inVersion profileName keepKeys byEntity,
          stored ∈ deleteModuleEmbeddingsExcept table inModule inVersion profileName keepKeys
            byEntity alsoKeep) ∧
        ∀ inModule inVersion owners,
          stored ∈ sharedModuleStaleEmbeddings table inModule inVersion owners alsoKeep := by
  intro row made inFile
  obtain ⟨filter, yielded, matched⟩ := rowsOf_match describes made inFile
  have named : ∃ filter ∈ keptEntityChunkFilters (kept.map (keptNode parse.root)),
      filter.matches row = true :=
    ⟨filter, List.mem_flatMap.mpr ⟨_, List.mem_map_of_mem isKept, yielded⟩, matched⟩
  refine ⟨rowsOf_made made, named, fun table stored listed same alsoKeep included => ?_⟩
  have stays : alsoKept alsoKeep stored.chunk = true := by
    rw [same]
    exact alsoKept_of included named
  exact ⟨deleteModuleEmbeddingsExcept_keeps listed stays,
    sharedModuleStaleEmbeddings_keeps listed stays⟩

def ModuleParse.componentFile (parse : ModuleParse) (name : String) : Option String :=
  ((parse.components.filter (·.name == name)).getLast?).map fun comp =>
    parse.info.relativePath comp.filePath

def ModuleParse.componentNode (parse : ModuleParse) (name : String) : StaleNode where
  label := .owlComp
  name := some name
  model := none
  xmlid := none
  filePath := parse.componentFile name
  testClass := none
  target := none
  twin := false
  parentLive := false

def asciiPy : PyText where
  capitalize text := String.ofList (match text.toList with
    | [] => []
    | first :: others => first.toUpper :: others.map Char.toLower)
  repr text := "'" ++ text ++ "'"

def dialogChunk (file : String) : JSChunk where
  module := "web"
  odooVersion := "17.0"
  filePath := file
  era := .era3
  entityName := "Dialog".toList
  chunkIdx := 0
  content := "class Dialog extends Component".toList

/-- `Dialog` in `a.js` and in `b.js`. -/
def twoDialogs : ModuleParse where
  info := ⟨some "odoo", some 1, "/repos/odoo/web", some ⟨["repos", "odoo"]⟩⟩
  root := ⟨["repos", "odoo"]⟩
  rooted := rfl
  models := []
  views := []
  qweb := []
  jsChunks := [dialogChunk "/repos/odoo/web/static/src/a.js",
    dialogChunk "/repos/odoo/web/static/src/b.js"]
  patches := []
  components := [⟨"Dialog", "/repos/odoo/web/static/src/a.js"⟩,
    ⟨"Dialog", "/repos/odoo/web/static/src/b.js"⟩]
  cssChunks := []
  scssChunks := []
  lessChunks := []
  testClasses := []
  suites := []
  modelNames := fun _ listed => absurd listed List.not_mem_nil
  methodNames := fun _ listed => absurd listed List.not_mem_nil
  fieldNames := fun _ listed => absurd listed List.not_mem_nil
  viewXmlids := fun _ listed => absurd listed List.not_mem_nil
  qwebXmlids := fun _ listed => absurd listed List.not_mem_nil
  jsFiles := by decide +kernel
  styleFiles := fun _ listed => absurd listed List.not_mem_nil
  classNames := fun _ listed => absurd listed List.not_mem_nil
  testNames := fun _ listed => absurd listed List.not_mem_nil
  suiteFiles := fun _ listed => absurd listed List.not_mem_nil

/-- The rows of `a.js` match no filter of the kept component. -/
theorem dialog_in_two_files :
    ¬ ∀ row ∈ twoDialogs.rowsOf .default asciiPy "web" "17.0" (.owlComp "Dialog"),
      ∃ filter ∈ keptEntityChunkFilters
        [keptNode twoDialogs.root (twoDialogs.componentNode "Dialog")],
        filter.matches row = true := by
  decide +kernel

def dialogRow : EmbeddingChunk where
  chunkType := .js .era3
  module := "web"
  odooVersion := "17.0"
  entityName := "Dialog"
  modelName := none
  filePath := "web/static/src/b.js"
  chunkIdx := 0
  content := "class Dialog extends Component".toList
  lineStart := none
  repo := some "odoo"
  repoId := some 1

theorem dialog_row_stays :
    dialogRow ∈ twoDialogs.chunks .default asciiPy "web" "17.0" ∧
    (∃ filter ∈ keptEntityChunkFilters
        ([twoDialogs.componentNode "Dialog"].map (keptNode twoDialogs.root)),
      filter.matches dialogRow = true) ∧
    ∀ table stored, stored ∈ table → stored.chunk = dialogRow →
      ∀ alsoKeep : List ChunkFilter,
        (∀ filter ∈ keptEntityChunkFilters
            ([twoDialogs.componentNode "Dialog"].map (keptNode twoDialogs.root)),
          filter ∈ alsoKeep) →
        (∀ inModule inVersion profileName keepKeys byEntity,
          stored ∈ deleteModuleEmbeddingsExcept table inModule inVersion profileName keepKeys
            byEntity alsoKeep) ∧
        ∀ inModule inVersion owners,
          stored ∈ sharedModuleStaleEmbeddings table inModule inVersion owners alsoKeep :=
  kept_rows_stay .default asciiPy "web" "17.0" twoDialogs [twoDialogs.componentNode "Dialog"]
    (.owlComp "Dialog") (twoDialogs.componentNode "Dialog") (List.mem_singleton_self _)
    ⟨rfl, rfl⟩ dialogRow (by decide +kernel)
    (show (keptNode twoDialogs.root (twoDialogs.componentNode "Dialog")).filePath =
      some dialogRow.filePath by decide +kernel)

end OdooSemantic.Indexer.KeptChunks
