import OdooSemantic.Prune.Families
import OdooSemantic.Prune.Regions

/-!
# Verdicts

A stale node or relationship is judged against the text of its module.  What cannot be
decided is kept.
-/

set_option autoImplicit false

namespace OdooSemantic.Prune

open Lib.Py Lib.Regex Lib.Runs

/-- The registered repository: an absolute path below its root, relative to the root, and
whether git proves that HEAD has nothing at a path. -/
structure Repository where
  relative : String → Option String
  provablyAbsent : String → Bool

/-- `path.replace("\\", "/")`. -/
def slashes (path : String) : String :=
  String.ofList (path.toList.map fun char => if char = '\\' then '/' else char)

/-- `str(PurePosixPath(path))` of a relative path. -/
def posixPath (path : String) : String :=
  match pathParts path.toList with
  | [] => "."
  | parts => join "/" (parts.map String.ofList)

/-- `PurePosixPath(path).name`. -/
def baseFile (path : String) : String := String.ofList (((pathParts path.toList).getLast?).getD [])

def stem (path : String) : String :=
  match rpartition '.' (baseFile path) with
  | none => baseFile path
  | some (lead, suffix) => if lead = "" ∨ suffix = "" then baseFile path else lead

def Repository.below (repo : Repository) (path : String) : Option String :=
  if startsWith (slashes path) "/" then repo.relative (slashes path) else some (slashes path)

section Paths
variable (repo : Repository) (source : ModuleSource)

def ModuleSource.maps (path : String) : Bool :=
  (source.prefixes ++ source.absentPrefixes).any (fun home => home != "" && startsWith path home) ||
    source.prefixes.contains ""

def ModuleSource.relPath (path : Option String) : Option String :=
  (((given path).bind repo.below).map posixPath).filter source.maps

def ModuleSource.foreignPathAbsent (path : Option String) : Bool :=
  source.available && ((given path).bind repo.below).any fun below =>
    (source.relPath repo (some below)).isNone && repo.provablyAbsent below

def ModuleSource.hasFile (path : String) : Bool := (source.text? path).isSome

def manifestNames : List String := ["__manifest__.py", "__openerp__.py"]

def ModuleSource.manifests : List String :=
  source.prefixes.flatMap fun home => (manifestNames.map (home ++ ·)).filter source.hasFile

end Paths

def localPart (xmlid : String) : String :=
  if '.' ∈ xmlid.toList then String.ofList ((xmlid.toList.dropWhile (· ≠ '.')).drop 1) else xmlid

/-- `ident.split(".", 1)[0] if "." in ident else None`. -/
def namespaceOf (ident : String) : Option String :=
  if '.' ∈ ident.toList then some (String.ofList (ident.toList.takeWhile (· ≠ '.'))) else none

def patchCall (tables : CharTables) : Pattern Char :=
  .seq (.notBehind tables.word) <|
    .seq (.alt (literal "extend".toList) (.alt (literal "include".toList) (literal "patch".toList))) <|
      .seq (.many tables.space) (.one (· == '('))

def importPattern (tables : CharTables) (stem : String) : Pattern Char :=
  .seq (.notBehind tables.word) <| .seq (.many (· == '_')) <|
    .seq (literal stem.toList) (.notAhead [tables.word])

/-- `stem.lstrip("_")`. -/
def unpartial (stem : String) : String := String.ofList (stem.toList.dropWhile (· == '_'))

/-- What the oracle rests on beside the text of a module. -/
structure Oracle where
  tables : CharTables
  python : Python
  reader : PythonReader
  repo : Repository

section Judge
variable (oracle : Oracle) (source : ModuleSource)

/-- `search`, whatever was searched before. -/
def Oracle.hits (form : Form) (ident : String) (suffixes files : Option (List String)) :
    List String :=
  source.find oracle.tables (Request.key ⟨form, ident, suffixes, files⟩)

/-- `bool(search(…))`. -/
def Oracle.shown (form : Form) (ident : String) (suffixes files : Option (List String)) : Bool :=
  !(oracle.hits source form ident suffixes files).isEmpty

/-- `_PY`. -/
def pythonSuffix : Option (List String) := some [".py"]

/-- `py()`. -/
def Oracle.index : PyIndex := pyIndex oracle.python source

/-- `pattern.search(src.files[path])`, where the source has the file. -/
def ModuleSource.fileShows (pattern : Pattern Char) (path : String) : Bool :=
  (source.text? path).any fun text => Lib.Regex.search pattern text.toList

def Oracle.foreignFileGone (node : StaleNode) : Option Bool :=
  if source.foreignPathAbsent oracle.repo node.filePath then some false else none

/-- `_field_pattern` and `_def_pattern`. -/
def MemberKind.form : MemberKind → Form
  | .field => .field
  | .method => .method

def Oracle.memberPresent (kind : MemberKind) (node : StaleNode) (name : String) : Bool :=
  let files := oracle.hits source kind.form name pythonSuffix none
  match given node.model with
  | none => !files.isEmpty
  | some model => (oracle.index source).memberPresent kind name model files

def Oracle.patchPresent (node : StaleNode) (path : String) : Bool :=
  let targetOk := match given node.target with
    | none => true
    | some target =>
        target == stem path || source.fileShows (tokenPattern oracle.tables target) path
  source.hasFile path && targetOk && source.fileShows (patchCall oracle.tables) path

def Oracle.violationPresent (node : StaleNode) (path : String) : Option Bool :=
  if !source.hasFile path then some false
  else if node.parentLive then some true
  else (given node.xmlid).map fun xmlid =>
    oracle.shown source .token (localPart xmlid) none none

def Oracle.filePresent (node : StaleNode) (path : String) : Option Bool :=
  match node.label with
  | .jsPatch => some (oracle.patchPresent source node path)
  | .lintViolation => oracle.violationPresent source node path
  | _ => some (source.hasFile path)

/-- `_node_present` of a node that is keyed by its file. -/
def Oracle.keyedPresent (node : StaleNode) : Option Bool :=
  match source.relPath oracle.repo node.filePath with
  | none => oracle.foreignFileGone source node
  | some path => oracle.filePresent source node path

/-- `_node_present`; `some false` is provably gone, `none` undecidable. -/
def Oracle.nodePresent (node : StaleNode) : Option Bool :=
  match node.label with
  | .model => (given node.name).map fun name =>
      oracle.shown source .model name none none || (oracle.index source).hasUnresolved
  | .field => (given node.name).map (oracle.memberPresent source .field node)
  | .method => (given node.name).map (oracle.memberPresent source .method node)
  | .testClass => (given node.name).map fun name => oracle.shown source .cls name pythonSuffix none
  | .testHelper => (given node.name).map fun name => oracle.shown source .cls name pythonSuffix none
  | .testMethod =>
      match given node.name, given node.testClass with
      | some name, some testClass =>
          let homes := oracle.hits source .cls testClass pythonSuffix none
          some (!homes.isEmpty && oracle.shown source .method name none (some homes))
      | _, _ => none
  | .view => (given node.xmlid).map fun xmlid =>
      oracle.shown source .token (localPart xmlid) none none
  | .qwebTmpl => (given node.xmlid).map fun xmlid =>
      oracle.shown source .token (localPart xmlid) none none
  | .report => (given node.xmlid).map fun xmlid =>
      oracle.shown source .token (localPart xmlid) none none
  | .owlComp => (given node.name).map fun name => oracle.shown source .cls name none none
  | .jsPatch => oracle.keyedPresent source node
  | .jsTestSuite => oracle.keyedPresent source node
  | .stylesheet => oracle.keyedPresent source node
  | .lintViolation => oracle.keyedPresent source node
  | .assetBundle => none
  | .other _ => none

def Oracle.testDefinedIn (node : StaleNode) (path : String) : Bool :=
  let cls := if node.label = .testClass then node.name else node.testClass
  match given cls, given node.name with
  | some cls, some name =>
      oracle.shown source .cls cls pythonSuffix (some [path]) &&
        (node.label != .testMethod || oracle.shown source .method name none (some [path]))
  | _, _ => true

def Oracle.testInOwnFile (node : StaleNode) : Bool :=
  match source.relPath oracle.repo node.filePath with
  | none => !source.foreignPathAbsent oracle.repo node.filePath
  | some path => source.hasFile path && oracle.testDefinedIn source node path

def Oracle.replaced (node : StaleNode) : Bool :=
  if node.twin then
    !((node.label == .testClass || node.label == .testMethod) && oracle.testInOwnFile source node)
  else node.label == .lintViolation && node.parentLive

def Oracle.node (node : StaleNode) : Verdict :=
  if !source.available then .present
  else
    match oracle.nodePresent source node with
    | none => .present
    | some false => .gone
    | some true => if oracle.replaced source node then .superseded else .present

def Oracle.dottedPresent (suffixes files : Option (List String)) (ident : String) : Bool :=
  oracle.shown source .dotted ident suffixes files ||
    (namespaceOf ident).all (· == source.module) &&
      oracle.shown source .token (localPart ident) suffixes files

def Oracle.endIdentPresent (rel : StaleRel) (suffixes files : Option (List String)) :
    Option Bool :=
  match if rel.endLabels.contains .model then given rel.endName else none with
  | some name => some (oracle.shown source .model name suffixes files)
  | none =>
      match (given rel.endXmlid).or
          (if rel.endLabels.contains .assetBundle then given rel.endName else none) with
      | some dotted =>
          some ((dotted :: (given rel.endRecordXmlid).toList).any
            (oracle.dottedPresent source suffixes files))
      | none =>
          match if rel.endLabels.contains .stylesheet then given rel.endFile else none with
          | some file =>
              let name := unpartial (stem file)
              if name = "" then none
              else some ((files.getD source.paths).any
                (source.fileShows (importPattern oracle.tables name)))
          | none =>
              (rel.symbol.bind fun ident => given (some (lastPart ident))).map fun last =>
                oracle.shown source .token last suffixes files

def Oracle.importScope (rel : StaleRel) : Option (List String) :=
  ((source.relPath oracle.repo rel.startFile).filter source.hasFile).map ([·])

def Oracle.parentPresent (rel : StaleRel) : Option Bool :=
  match oracle.endIdentPresent source rel pythonSuffix none with
  | none => none
  | some true => some true
  | some false => some (oracle.index source).hasUnresolved

def Oracle.relPresent (rel : StaleRel) : Option Bool :=
  match rel.type with
  | .dependsOn =>
      match given rel.endName with
      | none => none
      | some name =>
          if source.manifests.isEmpty then none
          else some (oracle.shown source .token name none (some source.manifests))
  | .delegatesTo =>
      if (source.candidates oracle.tables "_inherits" pythonSuffix).isEmpty then some false
      else oracle.parentPresent source rel
  | .usesField => usesPresent oracle.tables oracle.reader source rel
  | .dependsOnField => usesPresent oracle.tables oracle.reader source rel
  | .usesCoreSymbol => usesPresent oracle.tables oracle.reader source rel
  | .imports => oracle.endIdentPresent source rel none (oracle.importScope source rel)
  | .inherits => oracle.parentPresent source rel
  | .other _ => oracle.endIdentPresent source rel none none

/-- Judged by what the graph has, whatever the text says. -/
def StaleRel.replaced (rel : StaleRel) : Bool :=
  (rel.type == .inherits && (given rel.endName).any fun name => rel.startName == some name) ||
    rel.twin ||
    (rel.type == .usesCoreSymbol && rel.endStatus.any (· != "deprecated"))

def Oracle.rel (rel : StaleRel) : Verdict :=
  if !source.available then .present
  else if rel.replaced then .superseded
  else
    match oracle.relPresent source rel with
    | none => .present
    | some true => .present
    | some false => .gone

end Judge

end OdooSemantic.Prune
