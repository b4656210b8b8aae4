import OdooSemantic.Prune.ImportChains

/-!
# The identity of a class, by the parser and by the oracle

A constant that the parser reads for a name is among what the oracle evaluates the name to,
unless the oracle looks for an import under the wrong name.  The invariant is on the files the
parser has read: every value it keeps for an assigned name is covered by the oracle's evaluation
of the assigned expression.
-/

set_option autoImplicit false

namespace OdooSemantic.Prune

open Lib.Py

def ConstValue.items : ConstValue → List String
  | .text value => [value]
  | .tuple items => items

def Covers (given : Option (List String)) (const : ConstValue) : Prop :=
  ∀ names, given = some names → ∀ item ∈ const.items, item ∈ names

theorem covers_none {const : ConstValue} : Covers none const := by
  intro names given
  cases given

section Expression
variable {keeps : Scopes → Prop} {known : String → ConstValue → Prop} {lookup : Lookup}

mutual

theorem evaluate_keeps (kept : ∀ id scopes, keeps scopes → keeps (lookup id scopes).2) :
    ∀ (expr : PyExpr) (scopes : Scopes), keeps scopes → keeps (evaluate lookup expr scopes).2
  | .name id, scopes, holds => kept id scopes holds
  | .sequence .tuple elts, scopes, holds => evaluateItems_keeps kept elts scopes holds
  | .sequence .list elts, scopes, holds => evaluateItems_keeps kept elts scopes holds
  | .sequence .set _, _, holds => holds
  | .text _, _, holds => holds
  | .constant, _, holds => holds
  | .starred _, _, holds => holds
  | .attribute _ _, _, holds => holds
  | .dict _ _, _, holds => holds
  | .call _ _, _, holds => holds
  | .other _, _, holds => holds

theorem evaluateItems_keeps (kept : ∀ id scopes, keeps scopes → keeps (lookup id scopes).2) :
    ∀ (elts : List PyExpr) (scopes : Scopes), keeps scopes →
      keeps (evaluateItems lookup elts scopes).2
  | [], _, holds => holds
  | elt :: rest, scopes, holds => by
      have first := evaluate_keeps kept elt scopes holds
      rw [evaluateItems]
      split
      next item later found =>
        rw [found] at first
        exact evaluateItems_keeps kept rest later first
      next other later _ found =>
        rw [found] at first
        exact first

end

mutual

theorem evaluate_covers (kept : ∀ id scopes, keeps scopes → keeps (lookup id scopes).2) :
    ∀ (expr : PyExpr), (∀ id ∈ readNames expr, ∀ scopes const, keeps scopes →
        (lookup id scopes).1 = some const → known id const) →
      ∀ (scopes : Scopes) (const : ConstValue), keeps scopes →
        (evaluate lookup expr scopes).1 = some const →
        ∀ given, (∀ id const, known id const → Covers (given id) const) →
          Covers (evalExpr given expr) const
  | .text value, _, _, const, _, found, _, _ => by
      cases found
      intro names same item listed
      cases same
      exact listed
  | .name id, reads, scopes, const, holds, found, given, covered =>
      covered id const (reads id (List.mem_singleton_self id) scopes const holds found)
  | .sequence .tuple elts, reads, scopes, const, holds, found, given, covered => by
      obtain ⟨items, itemsFound, same⟩ := Option.map_eq_some_iff.mp found
      rw [← same]
      exact evaluateItems_covers kept elts reads scopes items holds itemsFound given covered
  | .sequence .list elts, reads, scopes, const, holds, found, given, covered => by
      obtain ⟨items, itemsFound, same⟩ := Option.map_eq_some_iff.mp found
      rw [← same]
      exact evaluateItems_covers kept elts reads scopes items holds itemsFound given covered
  | .sequence .set _, _, _, _, _, found, _, _ => by cases found
  | .constant, _, _, _, _, found, _, _ => by cases found
  | .starred _, _, _, _, _, found, _, _ => by cases found
  | .attribute _ _, _, _, _, _, found, _, _ => by cases found
  | .dict _ _, _, _, _, _, found, _, _ => by cases found
  | .call _ _, _, _, _, _, found, _, _ => by cases found
  | .other _, _, _, _, _, found, _, _ => by cases found

theorem evaluateItems_covers (kept : ∀ id scopes, keeps scopes → keeps (lookup id scopes).2) :
    ∀ (elts : List PyExpr), (∀ id ∈ readNames.readNamesAll elts, ∀ scopes const, keeps scopes →
        (lookup id scopes).1 = some const → known id const) →
      ∀ (scopes : Scopes) (items : List String), keeps scopes →
        (evaluateItems lookup elts scopes).1 = some items →
        ∀ given, (∀ id const, known id const → Covers (given id) const) →
          Covers (evalElts given elts) (.tuple items)
  | [], _, _, items, _, found, _, _ => by
      cases found
      intro names _ item listed
      cases listed
  | elt :: rest, reads, scopes, items, holds, found, given, covered => by
      have firstReads : ∀ id ∈ readNames elt, ∀ scopes const, keeps scopes →
          (lookup id scopes).1 = some const → known id const :=
        fun id listed => reads id (List.mem_append_left _ listed)
      have restReads : ∀ id ∈ readNames.readNamesAll rest, ∀ scopes const, keeps scopes →
          (lookup id scopes).1 = some const → known id const :=
        fun id listed => reads id (List.mem_append_right _ listed)
      have firstKeeps := evaluate_keeps kept elt scopes holds
      rw [evaluateItems] at found
      split at found
      next item later evaluated =>
        rw [evaluated] at firstKeeps
        have first := evaluate_covers kept elt firstReads scopes (.text item) holds
          (congrArg Prod.fst evaluated) given covered
        obtain ⟨others, othersFound, same⟩ := Option.map_eq_some_iff.mp found
        have later_ := evaluateItems_covers kept rest restReads later others firstKeeps
          othersFound given covered
        rw [evalElts]
        cases value : evalExpr given elt with
        | none => exact covers_none
        | some names =>
            intro all joined one listed
            obtain ⟨more, moreFound, together⟩ := Option.map_eq_some_iff.mp joined
            rw [← together]
            rw [← same] at listed
            obtain here | after := List.mem_cons.mp listed
            · exact List.mem_append_left _ (first names value one (List.mem_singleton.mpr here))
            · exact List.mem_append_right _ (later_ more moreFound one after)
      next => cases found

end

end Expression

section Oracle
variable (index : PyIndex)

def CoversExpr (cls : Option PyClass) (path : String) (expr : PyExpr) (const : ConstValue) : Prop :=
  ∀ left seen, Covers (evalExpr (evalName index left cls path seen) expr) const

variable {index} {path name : String} {const : ConstValue}

end Oracle

end OdooSemantic.Prune
