import Mathlib.Data.List.Basic

/-!
# Python source as the oracle reads it

What `ast` gives of a file, as far as class identities and members are read from it, with the
walks over the statements of a scope.
-/

set_option autoImplicit false

namespace OdooSemantic.Prune

inductive SequenceKind where
  | tuple
  | list
  | set

inductive PyExpr where
  | text (value : String)
  | constant
  | name (id : String)
  | sequence (kind : SequenceKind) (elts : List PyExpr)
  | starred (value : PyExpr)
  | attribute (value : PyExpr) (attr : String)
  | dict (keys values : List PyExpr)
  | call (func : PyExpr) (args : List PyExpr)
  | other (stored : List String)

structure Alias where
  name : String
  asname : Option String

def Alias.bound (imported : Alias) : String := imported.asname.getD imported.name

/-- A statement.  A block is an `if`, `try`, `with`, loop or `match`: the targets it binds, what
else its head stores into, and its bodies. -/
inductive PyStmt where
  | assign (line : Nat) (targets : List PyExpr) (value : PyExpr)
  | annAssign (line : Nat) (target : PyExpr) (value : Option PyExpr)
  | augAssign (line : Nat) (target value : PyExpr)
  | importFrom (line : Nat) (level : Nat) (module : Option String) (names : List Alias)
  | importNames (line : Nat) (names : List Alias)
  | function (line : Nat) (name : String) (body : List PyStmt)
  | cls (line : Nat) (name : String) (bases : List PyExpr) (body : List PyStmt)
  | expr (line : Nat) (value : PyExpr)
  | block (line : Nat) (targets : List PyExpr) (stored : List String) (bodies : List (List PyStmt))
  | other (line : Nat) (stored : List String)

mutual

def targetNames : PyExpr → List String
  | .name id => [id]
  | .sequence .tuple elts => targetNamesAll elts
  | .sequence .list elts => targetNamesAll elts
  | .starred value => targetNames value
  | _ => []

def targetNamesAll : List PyExpr → List String
  | [] => []
  | elt :: rest => targetNames elt ++ targetNamesAll rest

end

mutual

/-- `_scope_statements`: blocks are entered, functions and classes are not. -/
def scopeStatements : List PyStmt → List PyStmt
  | [] => []
  | stmt :: rest => stmt :: (innerStatements stmt ++ scopeStatements rest)

def innerStatements : PyStmt → List PyStmt
  | .block _ _ _ bodies => scopeBodies bodies
  | _ => []

def scopeBodies : List (List PyStmt) → List PyStmt
  | [] => []
  | body :: rest => scopeStatements body ++ scopeBodies rest

end

def isStarred : PyExpr → Bool
  | .starred _ => true
  | _ => false

def elements? : PyExpr → Option (List PyExpr)
  | .sequence .tuple elts => some elts
  | .sequence .list elts => some elts
  | _ => none

def unpackedBindings (pair : PyExpr × PyExpr) : List (String × Option PyExpr) :=
  match pair.1 with
  | .name id => [(id, some pair.2)]
  | target => (targetNames target).map (·, none)

def targetBindings (value target : PyExpr) : List (String × Option PyExpr) :=
  match target with
  | .name id => [(id, some value)]
  | target =>
      match elements? target, elements? value with
      | some elts, some values =>
          if elts.length = values.length ∧ !elts.any isStarred then
            (elts.zip values).flatMap unpackedBindings
          else (targetNames target).map (·, none)
      | _, _ => (targetNames target).map (·, none)

/-- A name with what it is bound to; `none` is a value that cannot be attributed. -/
def stmtBindings : PyStmt → List (String × Option PyExpr)
  | .assign _ targets value => targets.flatMap (targetBindings value)
  | .annAssign _ (.name id) (some value) => [(id, some value)]
  | .augAssign _ (.name id) _ => [(id, none)]
  | .block _ targets _ _ => (targets.flatMap targetNames).map (·, none)
  | _ => []

/-- `_bindings`: every binding of every name, in order. -/
def bindings (stmts : List PyStmt) : List (String × Option PyExpr) := stmts.flatMap stmtBindings

/-- `bindings[name]`. -/
def boundTo (bindings : List (String × Option PyExpr)) (name : String) : List (Option PyExpr) :=
  (bindings.filter (·.1 == name)).map Prod.snd

/-- A `class` statement; `topLevel` is one of the module itself. -/
structure ClassStmt where
  topLevel : Bool
  line : Nat
  name : String
  bases : List PyExpr
  body : List PyStmt

mutual

/-- The class statements of `ast.walk`. -/
def walkClasses (topLevel : Bool) : List PyStmt → List ClassStmt
  | [] => []
  | stmt :: rest => stmtClasses topLevel stmt ++ walkClasses topLevel rest

def stmtClasses (topLevel : Bool) : PyStmt → List ClassStmt
  | .function _ _ body => walkClasses false body
  | .cls line name bases body => ⟨topLevel, line, name, bases, body⟩ :: walkClasses false body
  | .block _ _ _ bodies => bodiesClasses bodies
  | _ => []

def bodiesClasses : List (List PyStmt) → List ClassStmt
  | [] => []
  | body :: rest => walkClasses false body ++ bodiesClasses rest

end

def baseName : PyExpr → Option String
  | .name id => some id
  | .attribute _ attr => some attr
  | _ => none

def textKeys (keys : List PyExpr) : List String :=
  keys.filterMap fun key =>
    match key with
    | .text value => some value
    | _ => none

def isColumns : PyExpr → Bool
  | .name id => id == "_columns"
  | _ => false

def dictKeys : PyExpr → List String
  | .dict keys _ => textKeys keys
  | _ => []

def columnsKeys : PyStmt → List String
  | .assign _ targets value => if targets.any isColumns then dictKeys value else []
  | .expr _ (.call (.attribute receiver "update") args) =>
      if isColumns receiver then args.flatMap dictKeys else []
  | _ => []

end OdooSemantic.Prune
