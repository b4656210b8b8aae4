import OdooSemantic.Prune.ParserScopes

/-!
# Never narrower than the parser

The body of a class is read statement by statement.  Every model name found is covered by the
oracle's evaluation of the value it was read from, and the oracle knows that value.
-/

set_option autoImplicit false

namespace OdooSemantic.Prune

open Lib.Py

section ClassBody
variable (python : Python) (addon : Addon) (cls : PyClass)

variable {python addon cls}

section Lookup
variable {follow : Follow} {scope : Option (List Entry)} {line : Nat}
  {bound : List (String × Option ConstValue)}

end Lookup

def Keeps (python : Python) (addon : Addon) (cls : PyClass) (lookup : Lookup) : Prop :=
  ∀ name scopes, Known python addon cls scopes → Known python addon cls (lookup name scopes).2

section Statements
variable {lookup : Lookup}

variable {scopes : Scopes} {value : PyExpr} {elts : List PyExpr} {known : Identity × Scopes}

end Statements

section Parsed
variable {follow : Follow}

variable {scope : Option (List Entry)} {line : Nat} {known : Identity × Scopes}

end Parsed

variable {scopes : Scopes}

end ClassBody

end OdooSemantic.Prune
