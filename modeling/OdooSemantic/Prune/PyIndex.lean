import OdooSemantic.Prune.Source
import OdooSemantic.Prune.Syntax

/-!
# The Python classes of a module

Every Python file is read once: what it binds and imports at module level and the classes in
it.  The models of a class are what its identity evaluates to, where a name counts with every
binding it may have; no value means that the identity is not known.
-/

set_option autoImplicit false

namespace OdooSemantic.Prune

open Lib.Py Lib.Runs

/-! ## One file -/

inductive Imported where
  /-- A name of another file of the module. -/
  | internal (name : String)
  | external
  deriving DecidableEq

/-- `_PyClass`; a class is known by its file and its place in it. -/
structure PyClass where
  path : String
  ordinal : Nat
  name : String
  bases : List String
  metaValues : List PyExpr
  bindings : List (String × Option PyExpr)
  fieldNames : List String
  methodNames : List String

def PyClass.hasMeta (cls : PyClass) : Bool := !cls.metaValues.isEmpty

/-- `id(cls)`. -/
def PyClass.key (cls : PyClass) : String × Nat := (cls.path, cls.ordinal)

structure FileIndex where
  path : String
  bindings : List (String × Option PyExpr)
  imports : List (String × Imported)
  starInternal : Bool
  starExternal : Bool
  classes : List PyClass

def frameworkBases : List String :=
  ["Model", "TransientModel", "AbstractModel", "BaseModel", "osv", "osv_memory", "Model_memory",
    "AbstractModel_memory", "object"]

def isMeta (name : String) : Bool := name == "_name" || name == "_inherit"

def unknownValue : PyExpr := .call (.name "?") []

/-- The values a statement gives `_name` or `_inherit`. -/
def stmtMeta : PyStmt → List PyExpr
  | .assign _ targets value => targets.flatMap fun target =>
      match target with
      | .name id => if isMeta id then [value] else []
      | target => if (targetNames target).any isMeta then [unknownValue] else []
  | .annAssign _ (.name id) value => if isMeta id then [value.getD unknownValue] else []
  | .augAssign _ (.name id) _ => if isMeta id then [unknownValue] else []
  | _ => []

def stmtFields : PyStmt → List String
  | .assign _ targets _ => targets.flatMap targetNames
  | .annAssign _ (.name id) _ => [id]
  | .augAssign _ (.name id) _ => [id]
  | _ => []

def stmtMethods : PyStmt → List String
  | .function _ name _ => [name]
  | _ => []

/-- `_class`. -/
def pyClass (path : String) (ordinal : Nat) (stmt : ClassStmt) : PyClass :=
  let stmts := scopeStatements stmt.body
  { path
    ordinal
    name := stmt.name
    bases := (stmt.bases.filterMap baseName).filter fun base =>
      base != "" && !frameworkBases.contains base && base != stmt.name
    metaValues := stmts.flatMap stmtMeta
    bindings := bindings stmts
    fieldNames := stmts.flatMap fun stmt => stmtFields stmt ++ columnsKeys stmt
    methodNames := stmts.flatMap stmtMethods }

/-- `PurePosixPath(path).parts` of a relative path. -/
def pathParts (path : List Char) : List (List Char) :=
  (runs (· != '/') path).filter (· != ['.'])

/-- The longest directory of the module the file is in. -/
def homePrefix (prefixes : List String) (path : String) : Option String :=
  (prefixes.filter (startsWith path)).foldl (fun best candidate =>
    match best with
    | none => some candidate
    | some longest => if longest.length < candidate.length then some candidate else some longest)
    none

def isInternal (module : String) (prefixes : List String) (path : String) (level : Nat)
    (name : Option String) : Bool :=
  if level ≠ 0 then
    match homePrefix prefixes path with
    | none => false
    | some home => level ≤ (pathParts (path.toList.drop home.length)).length
  else
    let name := name.getD ""
    ["odoo.addons.", "openerp.addons."].any fun root =>
      name == root ++ module || startsWith name (root ++ module ++ ".")

/-- The names of `from … import` and `import` statements, with the stars left out. -/
def stmtImports (internal : Nat → Option String → Bool) : PyStmt → List (String × Imported)
  | .importFrom _ level name aliases =>
      (aliases.filter (·.name != "*")).map fun imported =>
        (imported.bound,
          if internal level name then .internal imported.name else .external)
  | .importNames _ aliases =>
      aliases.map fun imported =>
        (imported.asname.getD (String.ofList (imported.name.toList.takeWhile (· != '.'))), .external)
  | _ => []

/-- Whether a statement imports `*`, from inside or outside the module. -/
def stmtStar (internal : Nat → Option String → Bool) (inside : Bool) : PyStmt → Bool
  | .importFrom _ level name aliases =>
      aliases.any (·.name == "*") && (internal level name == inside)
  | _ => false

def indexFile (module : String) (prefixes : List String) (path : String) (body : List PyStmt) :
    FileIndex :=
  let top := scopeStatements body
  let internal := isInternal module prefixes path
  { path
    bindings := bindings top
    imports := top.flatMap (stmtImports internal)
    starInternal := top.any (stmtStar internal true)
    starExternal := top.any (stmtStar internal false)
    classes := (walkClasses true body).zipIdx.map fun pair => pyClass path pair.2 pair.1 }

/-- `imports.get(name)`: the last import under the name. -/
def FileIndex.importOf (file : FileIndex) (name : String) : Option Imported :=
  ((file.imports.filter (·.1 == name)).getLast?).map Prod.snd

/-- `ast.parse`, and `_text_meta_unresolvable` for a text it does not parse. -/
structure Python where
  tree : String → Option (List PyStmt)
  metaUnresolvable : String → Bool

structure PyIndex where
  files : List FileIndex
  unparsed : List String
  textUnresolved : Bool

def ModuleSource.pythonFiles (source : ModuleSource) : List String :=
  (sorted source.paths).filter (endsWithAny · [".py"])

def unparsedText (python : Python) (text : String) : Bool := (python.tree text).isNone

/-- `_PyIndex(source)`. -/
def pyIndex (python : Python) (source : ModuleSource) : PyIndex where
  files := source.pythonFiles.filterMap fun path =>
    ((source.text? path).bind python.tree).map (indexFile source.module source.prefixes path)
  unparsed := source.pythonFiles.filter fun path => (source.text? path).any (unparsedText python)
  textUnresolved := source.pythonFiles.any fun path =>
    (source.text? path).any fun text => unparsedText python text && python.metaUnresolvable text

section Evaluate
variable (index : PyIndex)

def PyIndex.file? (path : String) : Option FileIndex := index.files.find? (·.path == path)

def PyIndex.classes : List PyClass := index.files.flatMap (·.classes)

/-- `file_bindings.get(path, {}).get(name)`. -/
def PyIndex.fileBindings (path name : String) : List (Option PyExpr) :=
  match index.file? path with
  | some file => boundTo file.bindings name
  | none => []

/-- `file_imports.get(path, {}).get(name)`. -/
def PyIndex.importOf (path name : String) : Option Imported :=
  (index.file? path).bind (·.importOf name)

def PyIndex.inStarInternal (path : String) : Bool := (index.file? path).any (·.starInternal)

def PyIndex.inStarExternal (path : String) : Bool := (index.file? path).any (·.starExternal)

/-- `module_bindings[name]` without the bindings of one file. -/
def PyIndex.otherBindings (path name : String) : List (String × Option PyExpr) :=
  (index.files.filter (·.path != path)).flatMap fun file =>
    (boundTo file.bindings name).map (file.path, ·)

mutual

/-- `_eval` of an expression, with the value of names given. -/
def evalExpr (lookup : String → Option (List String)) : PyExpr → Option (List String)
  | .text value => some [value]
  | .constant => some []
  | .sequence _ elts => evalElts lookup elts
  | .name id => lookup id
  | _ => none

def evalElts (lookup : String → Option (List String)) : List PyExpr → Option (List String)
  | [] => some []
  | elt :: rest =>
      match evalExpr lookup elt with
      | none => none
      | some names => (evalElts lookup rest).map (names ++ ·)

end

/-- The union of values; one that is missing leaves none. -/
def joinAll : List (Option (List String)) → Option (List String)
  | [] => some []
  | none :: _ => none
  | some names :: rest => (joinAll rest).map (names ++ ·)

/-- `id(cls)`, the file and the name. -/
abbrev SeenName := Option (String × Nat) × String × String

/-- The value of names in a class or, without one, in a file. -/
abbrev NameValue := Option PyClass → String → List SeenName → String → Option (List String)

section Step
variable (deep : Bool) (recur : NameValue) (path : String) (seen : List SeenName)

/-- `_eval`; `deep` tells that the bound on the chain is passed. -/
def evalValue (cls : Option PyClass) (path : String) (value : Option PyExpr) :
    Option (List String) :=
  if deep then none else value.bind (evalExpr (recur cls path seen))

def evalModuleWide (name : String) : Option (List String) :=
  let values := index.otherBindings path name
  if values.isEmpty then none
  else joinAll (values.map fun pair => evalValue deep recur seen none pair.1 pair.2)

/-- The part of `_eval_name` after the class body. -/
def evalOutside (name : String) : Option (List String) :=
  let bound := index.fileBindings path name
  let mine := joinAll (bound.map (evalValue deep recur seen none path))
  match index.importOf path name with
  | some .external => none
  | some (.internal original) =>
      let other := evalModuleWide index deep recur path seen original
      if bound.isEmpty then other
      else
        match other, mine with
        | some names, some others => some (names ++ others)
        | _, _ => none
  | none =>
      if !bound.isEmpty then mine
      else if index.inStarExternal path || !index.inStarInternal path then none
      else evalModuleWide index deep recur path seen name

def PyIndex.boundOutside (path name : String) : Bool :=
  !(index.fileBindings path name).isEmpty || (index.importOf path name).isSome ||
    index.inStarInternal path || index.inStarExternal path

/-- `_eval_name` past the check for a cycle. -/
def evalBody (cls : Option PyClass) (name : String) : Option (List String) :=
  match cls with
  | none => evalOutside index deep recur path seen name
  | some body =>
      let bound := boundTo body.bindings name
      if bound.isEmpty then evalOutside index deep recur path seen name
      else
        match joinAll (bound.map (evalValue deep recur seen cls path)) with
        | none => none
        | some mine =>
            if index.boundOutside path name then (recur none path seen name).map (mine ++ ·)
            else some mine

end Step

/-- `_eval_name`; `left` is how much longer the chain may get. -/
def evalName : Nat → NameValue
  | 0 => fun _ _ _ _ => none
  | left + 1 => fun cls path seen name =>
      let key := (cls.map PyClass.key, path, name)
      if key ∈ seen then none
      else evalBody index (left == 0) (evalName left) path (key :: seen) cls name

/-- `_MAX_EVAL_DEPTH`, and the one chain longer that is still seen. -/
def maxEval : Nat := 16 + 1

def ownModels (cls : PyClass) : Option (List String) :=
  if cls.hasMeta then
    joinAll (cls.metaValues.map (evalExpr (evalName index maxEval (some cls) cls.path [])))
  else none

end Evaluate

section Index
variable {python : Python} {source : ModuleSource}

def ModuleSource.tree? (source : ModuleSource) (python : Python) (path : String) :
    Option (List PyStmt) :=
  (source.text? path).bind python.tree

theorem pyIndex_files {file : FileIndex} :
    file ∈ (pyIndex python source).files ↔
      ∃ path ∈ source.pythonFiles, ∃ body, source.tree? python path = some body ∧
        indexFile source.module source.prefixes path body = file := by
  rw [pyIndex, List.mem_filterMap]
  simp only [Option.map_eq_some_iff]
  rfl

theorem find_indexed (paths : List String) {path : String} {body : List PyStmt}
    (listed : path ∈ paths) (parsed : source.tree? python path = some body) :
    (paths.filterMap fun path => (source.tree? python path).map
      (indexFile source.module source.prefixes path)).find? (·.path == path) =
      some (indexFile source.module source.prefixes path body) := by
  induction paths with
  | nil => cases listed
  | cons first rest ih =>
      by_cases same : first = path
      · rw [same, List.filterMap_cons, parsed]
        exact List.find?_cons_of_pos (beq_self_eq_true path)
      · have later : path ∈ rest := by
          obtain here | later := List.mem_cons.mp listed
          · exact absurd here.symm same
          · exact later
        cases tree : source.tree? python first with
        | none =>
            rw [List.filterMap_cons, tree]
            exact ih later
        | some other =>
            rw [List.filterMap_cons, tree]
            rw [Option.map_some, List.find?_cons_of_neg]
            · exact ih later
            · intro equal
              exact same (eq_of_beq equal)

theorem pyIndex_file? {path : String} {body : List PyStmt} (listed : path ∈ source.pythonFiles)
    (parsed : source.tree? python path = some body) :
    (pyIndex python source).file? path =
      some (indexFile source.module source.prefixes path body) :=
  find_indexed source.pythonFiles listed parsed

theorem pyIndex_class {cls : PyClass} (listed : cls ∈ (pyIndex python source).classes) :
    cls.path ∈ source.pythonFiles ∧ ∃ body stmt, source.tree? python cls.path = some body ∧
      (walkClasses true body)[cls.ordinal]? = some stmt ∧
      cls = pyClass cls.path cls.ordinal stmt := by
  obtain ⟨file, fileIn, inFile⟩ := List.mem_flatMap.mp listed
  obtain ⟨path, pathIn, body, parsed, same⟩ := pyIndex_files.mp fileIn
  rw [← same] at inFile
  obtain ⟨pair, pairIn, made⟩ := List.mem_map.mp inFile
  have placed := List.mk_mem_zipIdx_iff_getElem?.mp pairIn
  rw [← made]
  exact ⟨pathIn, body, pair.1, parsed, placed, rfl⟩

end Index

end OdooSemantic.Prune
