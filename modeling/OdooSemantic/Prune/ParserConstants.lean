import OdooSemantic.Prune.PyIndex

/-!
# The constants the parser reads

The parser evaluates the identity of a class file by file: a name is what it was last bound to
before the statement that reads it, and an import is followed into the file it names.
-/

set_option autoImplicit false

namespace OdooSemantic.Prune

open Lib.Py Lib.Runs

inductive ConstValue where
  | text (value : String)
  | tuple (items : List String)
  deriving DecidableEq

mutual

def storedNames : PyExpr → List String
  | .sequence _ elts => storedNamesAll elts
  | .starred value => storedNames value
  | .attribute value _ => storedNames value
  | .dict keys values => storedNamesAll keys ++ storedNamesAll values
  | .call func args => storedNames func ++ storedNamesAll args
  | .other stored => stored
  | _ => []

def storedNamesAll : List PyExpr → List String
  | [] => []
  | expr :: rest => storedNames expr ++ storedNamesAll rest

end

mutual

def targetStored : PyExpr → List String
  | .name id => [id]
  | .sequence _ elts => targetStoredAll elts
  | .starred value => targetStored value
  | .attribute value _ => storedNames value
  | .other stored => stored
  | _ => []

def targetStoredAll : List PyExpr → List String
  | [] => []
  | expr :: rest => targetStored expr ++ targetStoredAll rest

end

def headName (name : String) : String := String.ofList (name.toList.takeWhile (· != '.'))

mutual

/-- `bound_names`: functions and classes are not entered. -/
def boundNames : PyStmt → List String
  | .assign _ targets value => targetStoredAll targets ++ storedNames value
  | .annAssign _ target value => targetStored target ++ (value.map storedNames).getD []
  | .augAssign _ target value => targetStored target ++ storedNames value
  | .importFrom _ _ _ names =>
      (names.filter (·.name != "*")).map fun imported => imported.asname.getD (headName imported.name)
  | .importNames _ names =>
      (names.filter (·.name != "*")).map fun imported => imported.asname.getD (headName imported.name)
  | .function _ name _ => [name]
  | .cls _ name _ _ => [name]
  | .expr _ value => storedNames value
  | .block _ targets stored bodies => targetStoredAll targets ++ stored ++ boundBodies bodies
  | .other _ stored => stored

def boundBodies : List (List PyStmt) → List String
  | [] => []
  | body :: rest => boundAll body ++ boundBodies rest

def boundAll : List PyStmt → List String
  | [] => []
  | stmt :: rest => boundNames stmt ++ boundAll rest

end

/-- The files of an addon: its directory and, for each file, its place. -/
structure Addon where
  root : List (List Char)
  home : List (List Char)
  source : ModuleSource

def Addon.parts (addon : Addon) (path : String) : List (List Char) :=
  addon.home ++ pathParts path.toList

def Addon.fileAt (addon : Addon) (parts : List (List Char)) : Option String :=
  addon.source.pythonFiles.find? fun path => addon.parts path == parts

def dotted (name : List Char) : List (List Char) := runs (· != '.') name

/-- `text[len(lead):]` after one of the leads that the text is or goes on from with a dot. -/
def afterLead (text : List Char) (leads : List (List Char)) : Option (List Char) :=
  (leads.find? fun lead => text == lead || (lead ++ ['.']).isPrefixOf text).map fun lead =>
    text.drop lead.length

/-- `target.with_suffix(".py")` and `target / "__init__.py"`. -/
def moduleFiles (base parts : List (List Char)) : List (List (List Char)) :=
  let init := base ++ parts ++ ["__init__.py".toList]
  match parts.getLast? with
  | none => [init]
  | some name => [base ++ parts.dropLast ++ [name ++ ".py".toList], init]

def importCandidates (addon : Addon) (path : String) (level : Nat) (name : Option String) :
    List (List (List Char)) :=
  let chars := (name.getD "").toList
  let files :=
    if level ≠ 0 then
      some (moduleFiles ((addon.parts path).dropLast.take
        ((addon.parts path).dropLast.length - (level - 1))) (dotted chars))
    else
      let addonName := (addon.root.getLast?).getD []
      (afterLead chars ["odoo.addons.".toList ++ addonName, "openerp.addons.".toList ++ addonName]).map
        fun rest => moduleFiles addon.root (dotted rest)
  (files.getD []).filter addon.root.isPrefixOf

inductive Binding where
  | value (value : Option ConstValue)
  | imported (candidates : List (List (List Char))) (sourceName : String)

structure Entry where
  name : String
  line : Nat
  binding : Binding

/-- `_scopes`: what is known of each file; a file that is being read is known without scope. -/
abbrev Scopes := List (String × Option (List Entry))

def Scopes.get? (scopes : Scopes) (path : String) : Option (Option (List Entry)) :=
  (scopes.find? (·.1 == path)).map Prod.snd

def Scopes.put (scopes : Scopes) (path : String) (scope : Option (List Entry)) : Scopes :=
  (path, scope) :: scopes

/-- Looks a name up and may read more files. -/
abbrev Lookup := String → Scopes → Option ConstValue × Scopes

mutual

def evaluate (lookup : Lookup) : PyExpr → Scopes → Option ConstValue × Scopes
  | .text value, scopes => (some (.text value), scopes)
  | .name id, scopes => lookup id scopes
  | .sequence .tuple elts, scopes =>
      let items := evaluateItems lookup elts scopes
      (items.1.map .tuple, items.2)
  | .sequence .list elts, scopes =>
      let items := evaluateItems lookup elts scopes
      (items.1.map .tuple, items.2)
  | _, scopes => (none, scopes)

def evaluateItems (lookup : Lookup) : List PyExpr → Scopes → Option (List String) × Scopes
  | [], scopes => (some [], scopes)
  | elt :: rest, scopes =>
      match evaluate lookup elt scopes with
      | (some (.text item), scopes) =>
          let items := evaluateItems lookup rest scopes
          (items.1.map (item :: ·), items.2)
      | (_, scopes) => (none, scopes)

end

/-- Follows an import: the candidate files, the name, what was seen and how often it went on. -/
abbrev Follow :=
  List (List (List Char)) → String → List (String × String) → Nat → Scopes →
    Option ConstValue × Scopes

def maxImportHops : Nat := 8

def boundBefore (entries : List Entry) (before : Option Nat) (name : String) : Option Entry :=
  (entries.filter fun entry => entry.name == name && before.all (entry.line < ·)).getLast?

/-- `_FileScope.lookup`. -/
def lookupScope (follow : Follow) (entries : List Entry) (before : Option Nat)
    (seen : List (String × String)) (hops : Nat) (name : String) (scopes : Scopes) :
    Option ConstValue × Scopes :=
  match boundBefore entries before name with
  | none => (none, scopes)
  | some entry =>
      match entry.binding with
      | .value value => (value, scopes)
      | .imported candidates sourceName =>
          if maxImportHops ≤ hops then (none, scopes)
          else follow candidates sourceName seen (hops + 1) scopes

def nameOf? : PyExpr → Option String
  | .name id => some id
  | _ => none

def plainAssign? : PyStmt → Option (List String × PyExpr)
  | .assign _ targets value => (targets.mapM nameOf?).map (·, value)
  | .annAssign _ target (some value) => (nameOf? target).map fun name => ([name], value)
  | _ => none

def stmtLine : PyStmt → Nat
  | .assign line _ _ => line
  | .annAssign line _ _ => line
  | .augAssign line _ _ => line
  | .importFrom line _ _ _ => line
  | .importNames line _ => line
  | .function line _ _ => line
  | .cls line _ _ _ => line
  | .expr line _ => line
  | .block line _ _ _ => line
  | .other line _ => line

/-- `from … import` of a file of the addon: its candidate files and the names. -/
def addonImport? (addon : Addon) (path : String) : PyStmt →
    Option (List (List (List Char)) × List Alias)
  | .importFrom _ level name aliases =>
      let candidates := importCandidates addon path level name
      if candidates.isEmpty then none
      else some (candidates, aliases.filter (·.name != "*"))
  | _ => none

/-- `_record`; every other binding hides earlier constants. -/
def recordStmt (follow : Follow) (addon : Addon) (path : String) (entries : List Entry)
    (scopes : Scopes) (stmt : PyStmt) : List Entry × Scopes :=
  let line := stmtLine stmt
  match plainAssign? stmt with
  | some (names, value) =>
      let evaluated := evaluate (lookupScope follow entries (some line) [] 0) value scopes
      (entries ++ names.map (⟨·, line, .value evaluated.1⟩), evaluated.2)
  | none =>
      match addonImport? addon path stmt with
      | some (candidates, aliases) =>
          (entries ++ aliases.map fun imported =>
            ⟨imported.bound, line, .imported candidates imported.name⟩, scopes)
      | none => (entries ++ (boundNames stmt).map (⟨·, line, .value none⟩), scopes)

/-- `_FileScope(tree, path, resolver)`. -/
def buildScope (follow : Follow) (addon : Addon) (path : String) (body : List PyStmt)
    (scopes : Scopes) : List Entry × Scopes :=
  body.foldl (fun built stmt => recordStmt follow addon path built.1 built.2 stmt) ([], scopes)

section Resolver
variable (python : Python) (addon : Addon)

def treeAt (path : String) : Option (List PyStmt) :=
  (addon.source.text? path).bind python.tree

def scopeOfFile (follow : Follow) (path : String) (scopes : Scopes) :
    Option (List Entry) × Scopes :=
  match scopes.get? path with
  | some known => (known, scopes)
  | none =>
      let scopes := scopes.put path none
      match treeAt python addon path with
      | none => (none, scopes)
      | some body =>
          let built := buildScope follow addon path body scopes
          (some built.1, built.2.put path (some built.1))

/-- `lookup_in`: the first candidate that is a file decides. -/
def lookupIn : Nat → Follow
  | 0 => fun _ _ _ _ scopes => (none, scopes)
  | fuel + 1 => fun candidates name seen hops scopes =>
      match candidates.findSome? addon.fileAt with
      | none => (none, scopes)
      | some path =>
          if seen.contains (path, name) then (none, scopes)
          else
            match scopeOfFile python addon (lookupIn fuel) path scopes with
            | (none, scopes) => (none, scopes)
            | (some entries, scopes) =>
                lookupScope (lookupIn fuel) entries none ((path, name) :: seen) hops name scopes

/-- What the parser knows of a class: `_name`, `_inherit` with whether its first element is
unknown, and the names bound so far. -/
structure Identity where
  name : Option String
  inherit : List String
  headUnknown : Bool
  bound : List (String × Option ConstValue)
  deriving DecidableEq

/-- The models the class is indexed under: its name and the ones it inherits.  Without a name
it is called as the first of these, so that the first has to be known. -/
def Identity.models (identity : Identity) : List String :=
  match identity.name with
  | some "" => if identity.headUnknown then [] else identity.inherit
  | some name => name :: identity.inherit
  | none => if identity.headUnknown then [] else identity.inherit

end Resolver

end OdooSemantic.Prune
