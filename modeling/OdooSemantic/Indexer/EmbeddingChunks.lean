import OdooSemantic.Indexer.JsChunks

/-!
# Embedding chunks

What a module's parse puts into the embeddings table: one entity becomes one or
more numbered chunks, long texts in overlapping windows and each window in pieces
that fit the embedder.
-/

namespace OdooSemantic.Indexer.EmbeddingChunks

open Lib.Windows Lib.Py
open Indexer.JsChunks (Text Era JSChunk sizes)
open Prune (pathParts)

/-- `EMBEDDER_TOKEN_BUDGET`, and `EMBEDDER_CHARS_PER_TOKEN` as `chars / tokens`. -/
structure TokenSettings where
  budget : Int
  chars : Nat
  tokens : Nat
  charsPositive : 0 < chars
  tokensPositive : 0 < tokens

def TokenSettings.default : TokenSettings := ⟨3500, 3, 1, by decide, by decide⟩

section Pieces
variable (settings : TokenSettings)

/-- `math.ceil(len(text) / chars_per_token)`. -/
def estimateTokens (text : Text) : Nat :=
  (text.length * settings.tokens + (settings.chars - 1)) / settings.chars

/-- `int(budget * chars_per_token)`. -/
def charLimit : Nat := settings.budget.toNat * settings.chars / settings.tokens

/-- `[text[i : i + limit] for i in range(0, len(text), limit)]`. -/
def everyLimit (limit : Nat) : Nat → Text → List Text
  | 0, _ => []
  | steps + 1, text =>
      if text.isEmpty then [] else text.take limit :: everyLimit limit steps (text.drop limit)

def splitByTokenBudget (text : Text) : List Text :=
  if settings.budget ≤ 0 then [text]
  else if (estimateTokens settings text : Int) ≤ settings.budget then [text]
  else if charLimit settings = 0 then [text]
  else everyLimit (charLimit settings) text.length text

end Pieces

inductive ChunkType where
  | method
  | field
  | view
  | qweb
  | js (era : Era)
  | css
  | scss
  | less
  | testClass
  | testMethod
  | jsTest
  deriving DecidableEq

structure EmbeddingChunk where
  chunkType : ChunkType
  module : String
  odooVersion : String
  entityName : String
  modelName : Option String
  filePath : String
  chunkIdx : Nat
  content : Text
  lineStart : Option Nat
  repo : Option String
  repoId : Option Nat
  deriving DecidableEq

section Split
variable (settings : TokenSettings) (base : EmbeddingChunk)

/-- `dataclasses.replace(base_chunk, chunk_idx=…, content=…)`. -/
def EmbeddingChunk.at (chunkIdx : Nat) (content : Text) : EmbeddingChunk :=
  { base with chunkIdx := chunkIdx, content := content }

def tokenSplitChunk (content : Text) (startIdx : Nat) : List EmbeddingChunk :=
  if (estimateTokens settings content : Int) ≤ settings.budget then
    [base.at startIdx content]
  else
    (splitByTokenBudget settings content).zipIdx.map fun piece =>
      base.at (startIdx + piece.2) piece.1

def numberedWindows (idx : Nat) : List Text → List EmbeddingChunk
  | [] => []
  | window :: others =>
      let subChunks := tokenSplitChunk settings base window idx
      subChunks ++ numberedWindows (idx + subChunks.length) others

/-- `_sliding`: `_WINDOW_CHARS` and `_OVERLAP_CHARS` are those of the parsers. -/
def sliding (raw : Text) : List EmbeddingChunk :=
  if raw.length ≤ sizes.window then
    tokenSplitChunk settings base raw 0
  else
    numberedWindows settings base 0 ((windowsFrom sizes raw 0 0).map Prod.snd)

variable {settings base}

theorem mem_tokenSplitChunk {row : EmbeddingChunk} {content : Text} {startIdx : Nat}
    (made : row ∈ tokenSplitChunk settings base content startIdx) :
    ∃ chunkIdx text, row = base.at chunkIdx text := by
  rw [tokenSplitChunk] at made
  split at made
  · exact ⟨startIdx, content, List.mem_singleton.mp made⟩
  · obtain ⟨piece, -, same⟩ := List.mem_map.mp made
    exact ⟨startIdx + piece.2, piece.1, same.symm⟩

theorem mem_numberedWindows {row : EmbeddingChunk} {windows : List Text} {idx : Nat}
    (made : row ∈ numberedWindows settings base idx windows) :
    ∃ chunkIdx text, row = base.at chunkIdx text := by
  induction windows generalizing idx with
  | nil => cases made
  | cons window others ih =>
      rw [numberedWindows] at made
      obtain here | there := List.mem_append.mp made
      · exact mem_tokenSplitChunk here
      · exact ih there

theorem mem_sliding {row : EmbeddingChunk} {raw : Text}
    (made : row ∈ sliding settings base raw) :
    ∃ chunkIdx text, row = base.at chunkIdx text := by
  rw [sliding] at made
  split at made
  · exact mem_tokenSplitChunk made
  · exact mem_numberedWindows made

end Split

/-- The checkout of a repository: an absolute path. -/
structure RepoRoot where
  parts : List String

/-- `to_repo_relative(abs_path, repo_root)`. -/
def toRepoRelative (root : RepoRoot) (path : String) : String :=
  let parts := (pathParts path.toList).map String.ofList
  if startsWith path "/" && root.parts.isPrefixOf parts then
    match parts.drop root.parts.length with
    | [] => "."
    | below => join "/" below
  else path

structure ModuleInfo where
  repo : Option String
  repoId : Option Nat
  path : String
  repoRoot : Option RepoRoot

def ModuleInfo.relativePath (info : ModuleInfo) (path : String) : String :=
  match info.repoRoot with
  | none => path
  | some root => toRepoRelative root path

/-- `value or fallback` of a text. -/
def orElse (value : Option String) (fallback : String) : String :=
  (value.filter (· != "")).getD fallback

structure MethodInfo where
  name : String
  sourceCode : Option String
  line : Option Nat

structure FieldInfo where
  name : String
  ttype : String
  sourceDefinition : Option String
  line : Option Nat

structure ModelInfo where
  name : String
  filePath : Option String
  methods : List MethodInfo
  fields : List FieldInfo

structure ParseResult where
  module : ModuleInfo
  models : List ModelInfo

structure ViewInfo where
  xmlid : String
  viewType : String
  model : String
  inheritXmlid : Option String
  arch : Option String
  filePath : Option String
  line : Option Nat

structure QWebInfo where
  xmlid : String
  content : Option String
  filePath : Option String
  line : Option Nat

structure ViewParseResult where
  views : List ViewInfo
  qweb : List QWebInfo

inductive ChunkKind where
  | variableBlock
  | selector
  | media
  | importRule
  | mixin
  | includeRule
  | extendRule
  | raw
  deriving DecidableEq

def ChunkKind.word : ChunkKind → String
  | .variableBlock => "variable"
  | .selector => "selector"
  | .media => "media"
  | .importRule => "import"
  | .mixin => "mixin"
  | .includeRule => "include"
  | .extendRule => "extend"
  | .raw => "raw"

structure StyleChunk where
  module : String
  odooVersion : String
  filePath : String
  chunkKind : ChunkKind
  entityName : String
  chunkIdx : Nat
  content : Text
  deriving DecidableEq

abbrev CSSChunk := StyleChunk

abbrev SCSSChunk := StyleChunk

structure TestMethodInfo where
  name : String
  tagged : List String
  fieldRefs : List String
  modelRefs : List String
  line : Option Nat
  sourceCode : Option String

structure TestClassInfo where
  name : String
  filePath : String
  testType : String
  baseClassesOrdered : List String
  tagged : List String
  docstring : Option String
  line : Option Nat
  methods : List TestMethodInfo

structure TestParseResult where
  module : ModuleInfo
  testClasses : List TestClassInfo

structure JsTestSuiteInfo where
  filePath : String
  framework : String
  describeBlocks : List String
  testNames : List String
  tags : List String
  mounts : List String
  mockModels : List String
  line : Option Nat

/-- `str.capitalize` and `repr` of a text. -/
structure PyText where
  capitalize : String → String
  repr : String → String

section Makers
variable (settings : TokenSettings) (py : PyText) (module version : String)

def methodChunks (mod : ModuleInfo) (model : ModelInfo) (method : MethodInfo) :
    List EmbeddingChunk :=
  let lead := "[" ++ module ++ "] " ++ model.name ++ "." ++ method.name ++ " (" ++ version ++ ")"
  let body := orElse method.sourceCode ("def " ++ method.name ++ "(self): ...")
  sliding settings
    { chunkType := .method, module := module, odooVersion := version
      entityName := model.name ++ "." ++ method.name, modelName := some model.name
      filePath := mod.relativePath (orElse model.filePath mod.path)
      chunkIdx := 0, content := [], lineStart := method.line
      repo := mod.repo, repoId := mod.repoId }
    (lead ++ "\n" ++ body).toList

def fieldChunks (mod : ModuleInfo) (model : ModelInfo) (fld : FieldInfo) :
    List EmbeddingChunk :=
  let lead := "[" ++ module ++ "] " ++ model.name ++ ": " ++ fld.name ++ " (" ++ fld.ttype ++ ")"
  let body := orElse fld.sourceDefinition
    (fld.name ++ " = fields." ++ py.capitalize fld.ttype ++ "(...)")
  sliding settings
    { chunkType := .field, module := module, odooVersion := version
      entityName := model.name ++ "." ++ fld.name, modelName := some model.name
      filePath := mod.relativePath (orElse model.filePath mod.path)
      chunkIdx := 0, content := [], lineStart := fld.line
      repo := mod.repo, repoId := mod.repoId }
    (lead ++ "\n" ++ body).toList

def viewChunks (mod : ModuleInfo) (view : ViewInfo) : List EmbeddingChunk :=
  let inheritStr := match view.inheritXmlid with
    | none => ""
    | some xmlid => if xmlid = "" then "" else ", inherit=" ++ xmlid
  let lead := "[" ++ module ++ "] " ++ view.xmlid ++ " (" ++ view.viewType ++ inheritStr ++ ")"
  let body := orElse view.arch ("<!-- arch missing for " ++ view.xmlid ++ " -->")
  sliding settings
    { chunkType := .view, module := module, odooVersion := version
      entityName := view.xmlid, modelName := some view.model
      filePath := mod.relativePath (orElse view.filePath mod.path)
      chunkIdx := 0, content := [], lineStart := view.line
      repo := mod.repo, repoId := mod.repoId }
    (lead ++ "\n" ++ body).toList

def qwebChunks (mod : ModuleInfo) (qweb : QWebInfo) : List EmbeddingChunk :=
  let lead := "[" ++ module ++ "] " ++ qweb.xmlid
  let body := orElse qweb.content ("<!-- content missing for " ++ qweb.xmlid ++ " -->")
  sliding settings
    { chunkType := .qweb, module := module, odooVersion := version
      entityName := qweb.xmlid, modelName := none
      filePath := mod.relativePath (orElse qweb.filePath mod.path)
      chunkIdx := 0, content := [], lineStart := qweb.line
      repo := mod.repo, repoId := mod.repoId }
    (lead ++ "\n" ++ body).toList

def jsChunkChunks (mod : ModuleInfo) (jsc : JSChunk) : List EmbeddingChunk :=
  tokenSplitChunk settings
    { chunkType := .js jsc.era, module := module, odooVersion := version
      entityName := String.ofList jsc.entityName, modelName := none
      filePath := mod.relativePath jsc.filePath
      chunkIdx := 0, content := [], lineStart := none
      repo := mod.repo, repoId := mod.repoId }
    jsc.content jsc.chunkIdx

def makeChunks (parseResult : ParseResult) (viewResult : Option ViewParseResult)
    (jsChunks : List JSChunk) : List EmbeddingChunk :=
  let mod := parseResult.module
  (parseResult.models.flatMap fun model =>
    (model.methods.flatMap (methodChunks settings module version mod model)) ++
      model.fields.flatMap (fieldChunks settings py module version mod model)) ++
  ((match viewResult with
    | none => []
    | some result =>
        result.views.flatMap (viewChunks settings module version mod) ++
          result.qweb.flatMap (qwebChunks settings module version mod)) ++
  jsChunks.flatMap (jsChunkChunks settings module version mod))

def styleChunkChunks (chunkType : ChunkType) (info : Option ModuleInfo) (entity : String)
    (chunk : StyleChunk) : List EmbeddingChunk :=
  tokenSplitChunk settings
    { chunkType := chunkType, module := chunk.module, odooVersion := chunk.odooVersion
      entityName := entity, modelName := none
      filePath := match info with
        | none => chunk.filePath
        | some info => info.relativePath chunk.filePath
      chunkIdx := 0, content := [], lineStart := none
      repo := info.bind ModuleInfo.repo, repoId := info.bind ModuleInfo.repoId }
    chunk.content chunk.chunkIdx

/-- `f"{c.chunk_kind}:{c.entity_name}"`. -/
def kindEntity (chunk : StyleChunk) : String :=
  chunk.chunkKind.word ++ ":" ++ chunk.entityName

def makeCssChunks (info : Option ModuleInfo) (cssChunks : List CSSChunk) :
    List EmbeddingChunk :=
  cssChunks.flatMap fun chunk => styleChunkChunks settings .css info chunk.entityName chunk

def makeScssChunks (info : Option ModuleInfo) (scssChunks : List SCSSChunk) :
    List EmbeddingChunk :=
  scssChunks.flatMap fun chunk => styleChunkChunks settings .scss info (kindEntity chunk) chunk

def makeLessChunks (info : Option ModuleInfo) (lessChunks : List SCSSChunk) :
    List EmbeddingChunk :=
  lessChunks.flatMap fun chunk => styleChunkChunks settings .less info (kindEntity chunk) chunk

/-- `@tagged(…)` of test tags. -/
def taggedLine (tagged : List String) : String :=
  "@tagged(" ++ join ", " (tagged.map py.repr) ++ ")"

def testClassChunks (mod : ModuleInfo) (tc : TestClassInfo) : List EmbeddingChunk :=
  let baseStr := if tc.baseClassesOrdered.isEmpty then "object"
    else join ", " tc.baseClassesOrdered
  let lines :=
    ["[test class] " ++ tc.name ++ "(" ++ baseStr ++ ") in " ++ module ++ " (" ++ version ++
        ", " ++ tc.testType ++ ")"] ++
      (if tc.tagged.isEmpty then [] else [taggedLine py tc.tagged]) ++
      (tc.docstring.filter (· != "")).toList
  sliding settings
    { chunkType := .testClass, module := module, odooVersion := version
      entityName := tc.name ++ ".__class__", modelName := none
      filePath := tc.filePath, chunkIdx := 0, content := [], lineStart := tc.line
      repo := mod.repo, repoId := mod.repoId }
    (join "\n" lines).toList

/-- `model_refs[0]` and `field_refs[0]`, joined as far as they are there. -/
def coverageStr (method : TestMethodInfo) : String :=
  match method.modelRefs.head?.filter (· != "") with
  | none => "<no model ref>"
  | some model =>
      match method.fieldRefs.head?.filter (· != "") with
      | none => model
      | some field => model ++ "." ++ field

def testMethodChunks (mod : ModuleInfo) (tc : TestClassInfo) (method : TestMethodInfo) :
    List EmbeddingChunk :=
  if startsWith method.name "test" then
    let taggedStr := if method.tagged.isEmpty then "" else "\n" ++ taggedLine py method.tagged
    let lead := "[test] " ++ coverageStr method ++ " via " ++ tc.name ++ "." ++ method.name ++
      " (" ++ version ++ ", " ++ tc.testType ++ ")" ++ taggedStr
    let body := orElse method.sourceCode ("def " ++ method.name ++ "(self): ...")
    sliding settings
      { chunkType := .testMethod, module := module, odooVersion := version
        entityName := tc.name ++ "." ++ method.name, modelName := method.modelRefs.head?
        filePath := tc.filePath, chunkIdx := 0, content := [], lineStart := method.line
        repo := mod.repo, repoId := mod.repoId }
      (lead ++ "\n" ++ body).toList
  else []

def makeTestChunks (testResult : TestParseResult) : List EmbeddingChunk :=
  let mod := testResult.module
  testResult.testClasses.flatMap fun tc =>
    testClassChunks settings py module version mod tc ++
      tc.methods.flatMap (testMethodChunks settings py module version mod tc)

/-- `label: item, item`, when there are items. -/
def listed (label : String) (items : List String) : List String :=
  if items.isEmpty then [] else [label ++ ": " ++ join ", " items]

def suiteChunks (repo : Option String) (repoId : Option Nat) (suite : JsTestSuiteInfo) :
    List EmbeddingChunk :=
  let parts :=
    ["[js:" ++ suite.framework ++ "] " ++ suite.filePath ++ " (" ++ version ++ ")"] ++
      listed "describe" suite.describeBlocks ++
      listed "tests" (suite.testNames.take 10) ++
      (if 10 < suite.testNames.length then
        ["(+ " ++ toString (suite.testNames.length - 10) ++ " more tests)"] else []) ++
      listed "mounts" suite.mounts ++
      listed "tags" suite.tags ++
      (if suite.mockModels.isEmpty then []
        else ["mock_models: " ++ join ", " (suite.mockModels.take 5)])
  tokenSplitChunk settings
    { chunkType := .jsTest, module := module, odooVersion := version
      entityName := suite.filePath, modelName := suite.mounts.head?
      filePath := suite.filePath, chunkIdx := 0, content := [], lineStart := suite.line
      repo := repo, repoId := repoId }
    (join "\n" parts).toList 0

def makeJsTestChunks (suites : List JsTestSuiteInfo) (repo : Option String)
    (repoId : Option Nat) : List EmbeddingChunk :=
  suites.flatMap (suiteChunks settings module version repo repoId)

end Makers

end OdooSemantic.Indexer.EmbeddingChunks
