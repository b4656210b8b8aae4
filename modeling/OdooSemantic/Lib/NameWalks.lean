import Mathlib.Order.Basic

/-!
# Walks between names

Edges run between nodes that carry names, and a walk goes on from any node of the name it has
reached.  The first hop may be restricted more than the later ones.
-/

set_option autoImplicit false

namespace OdooSemantic.Lib.NameWalks

structure Hops (Edge Name : Type) where
  source : Edge → Name
  target : Edge → Name
  first : Edge → Prop
  later : Edge → Prop

namespace Hops
variable {Edge Name : Type} (hops : Hops Edge Name) (start : Name)

inductive Arrives : Nat → Edge → Prop where
  | first {edge : Edge} (allowed : hops.first edge) (leaves : hops.source edge = start) :
      Arrives 1 edge
  | later {depth : Nat} {before edge : Edge} (walked : Arrives depth before)
      (allowed : hops.later edge) (leaves : hops.source edge = hops.target before) :
      Arrives (depth + 1) edge

/-- A walk of so many hops from the start can end at this name. -/
def Reaches (depth : Nat) (name : Name) : Prop :=
  ∃ edge, hops.Arrives start depth edge ∧ hops.target edge = name

structure Nearest (depth : Nat) (name : Name) : Prop where
  reached : hops.Reaches start depth name
  shortest : ∀ other, hops.Reaches start other name → depth ≤ other

variable {hops start} {depth other : Nat} {name : Name} {edge : Edge}

theorem Arrives.pos (walked : hops.Arrives start depth edge) : 0 < depth := by
  cases walked with
  | first _ _ => exact Nat.one_pos
  | later _ _ _ => exact Nat.succ_pos _

theorem arrives_one :
    hops.Arrives start 1 edge ↔ hops.first edge ∧ hops.source edge = start := by
  constructor
  · intro walked
    cases walked with
    | first allowed leaves => exact ⟨allowed, leaves⟩
    | later walked _ _ => exact absurd walked.pos (Nat.lt_irrefl 0)
  · rintro ⟨allowed, leaves⟩
    exact Arrives.first allowed leaves

theorem arrives_succ (positive : 0 < depth) :
    hops.Arrives start (depth + 1) edge ↔
      hops.later edge ∧ hops.Reaches start depth (hops.source edge) := by
  constructor
  · intro walked
    cases walked with
    | first _ _ => exact absurd positive (Nat.lt_irrefl 0)
    | later walked allowed leaves => exact ⟨allowed, _, walked, leaves.symm⟩
  · rintro ⟨allowed, before, walked, ends⟩
    exact Arrives.later walked allowed ends.symm

theorem Nearest.unique (one : hops.Nearest start depth name)
    (another : hops.Nearest start other name) : depth = other :=
  Nat.le_antisymm (one.shortest other another.reached) (another.shortest depth one.reached)

end Hops

end OdooSemantic.Lib.NameWalks
