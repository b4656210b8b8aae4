import OdooSemantic.Prune.Identity

/-!
# The scopes the parser keeps

A scope the parser has read has an entry for every binding of its file, in order.  Where the
identity of the class reads the name, the value of an entry is covered by what the oracle
evaluates the assigned expression to.
-/

set_option autoImplicit false

namespace OdooSemantic.Prune

open Lib.Py

section Scopes
variable (python : Python) (addon : Addon) (cls : PyClass)

/-- An entry of a scope for a binding of the file. -/
inductive Agrees (path : String) : Entry → Static → Prop where
  | assigned {name : String} {line : Nat} {value : PyExpr} {const : Option ConstValue} :
      (Reads python addon cls path name → ∀ found, const = some found →
        CoversExpr (pyIndex python addon.source) none path value found) →
      Agrees path ⟨name, line, .value const⟩ ⟨name, line, .assigned value⟩
  | hidden {name : String} {line : Nat} :
      Agrees path ⟨name, line, .value none⟩ ⟨name, line, .hidden⟩
  | imported {name sourceName : String} {line : Nat} {candidates : List (List (List Char))} :
      Agrees path ⟨name, line, .imported candidates sourceName⟩
        ⟨name, line, .imported candidates sourceName⟩

def Known (scopes : Scopes) : Prop :=
  ∀ path entries, scopes.get? path = some (some entries) →
    List.Forall₂ (Agrees python addon cls path) entries (staticsOf python addon path)

variable {python addon cls}

theorem get?_put_self (scopes : Scopes) (path : String) (scope : Option (List Entry)) :
    (scopes.put path scope).get? path = some scope := by
  rw [Scopes.get?, Scopes.put, List.find?_cons_of_pos]
  · rfl
  · exact beq_self_eq_true path

variable {scopes : Scopes} {path : String} {entries : List Entry} {done : List Static}
variable {follow : Follow}

theorem get?_put_other {path other : String} (scope : Option (List Entry))
    (differ : path ≠ other) : (scopes.put path scope).get? other = scopes.get? other := by
  rw [Scopes.get?, Scopes.put, List.find?_cons_of_neg]
  · rfl
  · intro equal
    exact differ (eq_of_beq equal)

end Scopes

end OdooSemantic.Prune
