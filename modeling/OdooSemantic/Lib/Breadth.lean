import Mathlib.Data.Set.Basic

/-!
# Distances to a set of seeds

A breadth-first walk finds, hop after hop, the nodes whose shortest path to a seed has the
hop's length.
-/

set_option autoImplicit false

namespace OdooSemantic.Lib.Breadth

variable {Node : Type} (needs : Node → Node → Prop) (seeds : Set Node)

/-- A seed is that many steps away. -/
def Hops : Nat → Node → Prop
  | 0, node => node ∈ seeds
  | steps + 1, node => ∃ dep, needs node dep ∧ Hops steps dep

/-- The length of a shortest path to a seed. -/
structure IsDistance (steps : Nat) (node : Node) : Prop where
  reached : Hops needs seeds steps node
  least : ∀ fewer, fewer < steps → ¬ Hops needs seeds fewer node

variable {needs seeds}

theorem isDistance_zero {node : Node} : IsDistance needs seeds 0 node ↔ node ∈ seeds :=
  ⟨fun distance => distance.reached,
    fun seed => ⟨seed, fun fewer less => absurd less (Nat.not_lt_zero fewer)⟩⟩

theorem IsDistance.unique {first second : Nat} {node : Node}
    (one : IsDistance needs seeds first node) (other : IsDistance needs seeds second node) :
    first = second := by
  by_contra differ
  obtain less | more := Nat.lt_or_gt_of_ne differ
  · exact other.least first less one.reached
  · exact one.least second more other.reached

theorem Hops.distance {steps : Nat} {node : Node} (hops : Hops needs seeds steps node) :
    ∃ fewer ≤ steps, IsDistance needs seeds fewer node := by
  induction steps using Nat.strong_induction_on with
  | _ steps ih =>
      by_cases shorter : ∃ fewer, fewer < steps ∧ Hops needs seeds fewer node
      · obtain ⟨fewer, less, reached⟩ := shorter
        obtain ⟨least, bound, distance⟩ := ih fewer less reached
        exact ⟨least, by omega, distance⟩
      · exact ⟨steps, Nat.le_refl steps, hops,
          fun fewer less reached => shorter ⟨fewer, less, reached⟩⟩

theorem isDistance_succ {steps : Nat} {node : Node} :
    IsDistance needs seeds (steps + 1) node ↔
      (∃ dep, needs node dep ∧ IsDistance needs seeds steps dep) ∧
        ∀ fewer, fewer ≤ steps → ¬ Hops needs seeds fewer node := by
  constructor
  · intro distance
    obtain ⟨dep, needed, reached⟩ := distance.reached
    refine ⟨⟨dep, needed, reached, ?_⟩, fun fewer bound => distance.least fewer (by omega)⟩
    intro fewer less depReached
    exact distance.least (fewer + 1) (by omega) ⟨dep, needed, depReached⟩
  · intro fresh
    obtain ⟨⟨dep, needed, distance⟩, unmet⟩ := fresh
    exact ⟨⟨dep, needed, distance.reached⟩, fun fewer less => unmet fewer (by omega)⟩

theorem IsDistance.gap {steps : Nat} (none : ∀ node, ¬ IsDistance needs seeds steps node)
    (more : Nat) : ∀ node, ¬ IsDistance needs seeds (steps + more) node := by
  induction more with
  | zero => exact none
  | succ more ih =>
      intro node distance
      obtain ⟨⟨dep, -, nearer⟩, -⟩ := isDistance_succ.mp distance
      exact ih dep nearer

end OdooSemantic.Lib.Breadth
