import OdooSemantic.Prune.ParserConstants

/-!
# Where the names of an identity come from

What a file binds at module level, without values, and where a chain of imports ends.  The
identity of a class reads some of these names.  The oracle follows no chain: it reads the
bindings that the other files give the imported name.
-/

set_option autoImplicit false

namespace OdooSemantic.Prune

open Lib.Py

inductive Bound where
  | assigned (value : PyExpr)
  | hidden
  | imported (candidates : List (List (List Char))) (sourceName : String)

structure Static where
  name : String
  line : Nat
  bound : Bound

/-- What a statement binds. -/
def stmtStatic (addon : Addon) (path : String) (stmt : PyStmt) : List Static :=
  let line := stmtLine stmt
  match plainAssign? stmt with
  | some (names, value) => names.map (⟨·, line, .assigned value⟩)
  | none =>
      match addonImport? addon path stmt with
      | some (candidates, aliases) =>
          aliases.map fun imported => ⟨imported.bound, line, .imported candidates imported.name⟩
      | none => (boundNames stmt).map (⟨·, line, .hidden⟩)

def readNames : PyExpr → List String
  | .name id => [id]
  | .sequence .tuple elts => readNamesAll elts
  | .sequence .list elts => readNamesAll elts
  | _ => []
where
  readNamesAll : List PyExpr → List String
    | [] => []
    | elt :: rest => readNames elt ++ readNamesAll rest

section Module
variable (python : Python) (addon : Addon)

def staticsOf (path : String) : List Static :=
  ((treeAt python addon path).map (·.flatMap (stmtStatic addon path))).getD []

inductive ReadInClass (cls : PyClass) : String → Prop where
  | identity {value : PyExpr} {name : String} :
      value ∈ cls.metaValues → name ∈ readNames value → ReadInClass cls name
  | through {bound name : String} {value : PyExpr} :
      ReadInClass cls bound → (bound, some value) ∈ cls.bindings → name ∈ readNames value →
      ReadInClass cls name

inductive Reads (cls : PyClass) : String → String → Prop where
  | body {name : String} : ReadInClass cls name → Reads cls cls.path name
  | assigned {path name other : String} {line : Nat} {value : PyExpr} :
      Reads cls path name → ⟨name, line, .assigned value⟩ ∈ staticsOf python addon path →
      other ∈ readNames value → Reads cls path other
  | imported {path name file sourceName : String} {line : Nat}
      {candidates : List (List (List Char))} :
      Reads cls path name → ⟨name, line, .imported candidates sourceName⟩ ∈ staticsOf python addon path →
      candidates.findSome? addon.fileAt = some file → Reads cls file sourceName

end Module

section Files
variable {python : Python} {addon : Addon}

variable {path : String} {candidates : List (List (List Char))} {name : String} {value : PyExpr}

theorem fileAt_python {parts : List (List Char)}
    (found : addon.fileAt parts = some path) : path ∈ addon.source.pythonFiles :=
  List.mem_of_find?_eq_some found

theorem candidates_python
    (found : candidates.findSome? addon.fileAt = some path) : path ∈ addon.source.pythonFiles := by
  obtain ⟨parts, _, at_⟩ := List.exists_of_findSome?_eq_some found
  exact fileAt_python at_

end Files

section Index
variable {index : PyIndex} {path name : String} {value : Option PyExpr}

end Index

end OdooSemantic.Prune
