import Mathlib.Data.List.Nodup
import Mathlib.Data.List.Perm.Subperm

/-!
# Parent functions

A hierarchy in which every node has at most one parent.  `Reaches` follows the parents up;
the hierarchy is acyclic when no parent reaches its own child.  Climbs in an acyclic one are
no longer than the number of nodes that have a parent, which is what bounds the walks.
-/

set_option autoImplicit false

namespace OdooSemantic.Lib.Forest

section Climbs
variable {Node : Type} (parent : Node → Option Node)

def climb : Nat → Node → Option Node
  | 0, node => some node
  | steps + 1, node => (parent node).bind (climb steps)

def Reaches (low high : Node) : Prop := ∃ steps, climb parent steps low = some high

def Acyclic : Prop := ∀ node above, parent node = some above → ¬ Reaches parent above node

/-- Every parent link of the first hierarchy is one of the second. -/
def Within (smaller larger : Node → Option Node) : Prop :=
  ∀ node above, smaller node = some above → larger node = some above

end Climbs

section Reach
variable {Node : Type} {parent smaller : Node → Option Node} {low middle high node above : Node}

theorem climb_add (first second : Nat) : ∀ node : Node,
    climb parent (first + second) node = (climb parent first node).bind (climb parent second) := by
  induction first with
  | zero => intro node; simp [climb]
  | succ steps ih =>
      intro node
      rw [Nat.add_right_comm]
      simp only [climb]
      cases parent node with
      | none => rfl
      | some above => simpa using ih above

theorem Reaches.refl (node : Node) : Reaches parent node node := ⟨0, rfl⟩

theorem Reaches.up (link : parent low = some middle) (rest : Reaches parent middle high) :
    Reaches parent low high := by
  obtain ⟨steps, climbs⟩ := rest
  exact ⟨steps + 1, by simp [climb, link, climbs]⟩

theorem Reaches.trans (first : Reaches parent low middle) (second : Reaches parent middle high) :
    Reaches parent low high := by
  obtain ⟨steps, climbs⟩ := first
  obtain ⟨steps', climbs'⟩ := second
  exact ⟨steps + steps', by rw [climb_add, climbs, Option.bind_some, climbs']⟩

theorem climb_succ_cases {steps : Nat} (climbs : climb parent (steps + 1) low = some high) :
    ∃ above, parent low = some above ∧ climb parent steps above = some high := by
  simp only [climb] at climbs
  exact Option.bind_eq_some_iff.mp climbs

theorem Reaches.inside (inside : Node → Prop)
    (closed : ∀ node above, inside node → parent node = some above → inside above)
    (reaches : Reaches parent low high) (start : inside low) : inside high := by
  obtain ⟨steps, climbs⟩ := reaches
  induction steps generalizing low with
  | zero =>
      cases climbs
      exact start
  | succ steps ih =>
      obtain ⟨above, link, rest⟩ := climb_succ_cases climbs
      exact ih (closed low above start link) rest

theorem Reaches.mono (within : Within smaller parent) (reaches : Reaches smaller low high) :
    Reaches parent low high := by
  obtain ⟨steps, climbs⟩ := reaches
  induction steps generalizing low with
  | zero => exact ⟨0, climbs⟩
  | succ steps ih =>
      obtain ⟨above, link, rest⟩ := climb_succ_cases climbs
      exact (ih rest).up (within low above link)

theorem Acyclic.anti (acyclic : Acyclic parent) (within : Within smaller parent) :
    Acyclic smaller :=
  fun node above link reaches => acyclic node above (within node above link) (reaches.mono within)

/-- A climb stays in the smaller hierarchy or passes over a link the smaller one lacks. -/
theorem Reaches.split (smaller : Node → Option Node) (reaches : Reaches parent low high) :
    Reaches smaller low high ∨ ∃ node above, parent node = some above ∧
      smaller node ≠ some above ∧ Reaches parent low node ∧ Reaches parent above high := by
  obtain ⟨steps, climbs⟩ := reaches
  induction steps generalizing low with
  | zero => exact Or.inl ⟨0, climbs⟩
  | succ steps ih =>
      obtain ⟨above, link, rest⟩ := climb_succ_cases climbs
      by_cases kept : smaller low = some above
      · rcases ih rest with inside | ⟨node, top, passed, lacks, before, after⟩
        · exact Or.inl (inside.up kept)
        · exact Or.inr ⟨node, top, passed, lacks, before.up link, after⟩
      · exact Or.inr ⟨low, above, link, kept, Reaches.refl low, steps, rest⟩

end Reach

section Link
variable {Node : Type} {parent next : Node → Option Node} {child above : Node}

def Adds (parent next : Node → Option Node) (child above : Node) : Prop :=
  ∀ node top, next node = some top → parent node = some top ∨ (node = child ∧ top = above)

theorem Adds.reaches_below (adds : Adds parent next child above) {low high : Node}
    (reaches : Reaches next low high) :
    Reaches parent low high ∨ Reaches parent low child := by
  obtain ⟨steps, climbs⟩ := reaches
  induction steps generalizing low with
  | zero => exact Or.inl ⟨0, climbs⟩
  | succ steps ih =>
      obtain ⟨middle, link, rest⟩ := climb_succ_cases climbs
      rcases adds low middle link with old | ⟨rfl, -⟩
      · exact (ih rest).imp (Reaches.up old) (Reaches.up old)
      · exact Or.inr (Reaches.refl low)

theorem Adds.reaches_above (adds : Adds parent next child above) {low high : Node}
    (reaches : Reaches next low high) :
    Reaches parent low high ∨ Reaches parent above high := by
  obtain ⟨steps, climbs⟩ := reaches
  induction steps generalizing low with
  | zero => exact Or.inl ⟨0, climbs⟩
  | succ steps ih =>
      obtain ⟨middle, link, rest⟩ := climb_succ_cases climbs
      rcases adds low middle link with old | ⟨-, rfl⟩
      · exact (ih rest).imp_left (Reaches.up old)
      · rcases ih rest with inside | inside
        · exact Or.inr inside
        · exact Or.inr inside

theorem Acyclic.link (acyclic : Acyclic parent) (adds : Adds parent next child above)
    (apart : ¬ Reaches parent above child) : Acyclic next := by
  intro node top link reaches
  rcases adds node top link with old | ⟨rfl, rfl⟩
  · rcases adds.reaches_below reaches with inside | toChild
    · exact acyclic node top old inside
    · rcases adds.reaches_above reaches with inside | fromAbove
      · exact acyclic node top old inside
      · exact apart (fromAbove.trans (toChild.up old))
  · rcases adds.reaches_above reaches with inside | inside
    · exact apart inside
    · exact apart inside

end Link

section Walks
variable {Node : Type} (parent : Node → Option Node)

/-- The node and everything above it, as far as the fuel goes. -/
def ancestors : Nat → Node → List Node
  | 0, node => [node]
  | fuel + 1, node => node :: ((parent node).map (ancestors fuel)).getD []

def walkUp : Nat → Node → Option (List Node)
  | 0, _ => none
  | fuel + 1, node =>
      match parent node with
      | none => some [node]
      | some above => (walkUp fuel above).map (node :: ·)

def walkDown (children : Node → List Node) : Nat → List Node → Option (List Node)
  | 0, generation => if generation = [] then some [] else none
  | fuel + 1, generation =>
      if generation = [] then some []
      else (walkDown children fuel (generation.flatMap children)).map (generation ++ ·)

variable {parent} {nodes : List Node} {low high : Node}

theorem reaches_of_mem_ancestors {fuel : Nat} {node top : Node}
    (member : top ∈ ancestors parent fuel node) : Reaches parent node top := by
  induction fuel generalizing node with
  | zero =>
      rw [List.mem_singleton.mp member]
      exact Reaches.refl node
  | succ fuel ih =>
      rcases List.mem_cons.mp member with rfl | above
      · exact Reaches.refl top
      · cases link : parent node with
        | none =>
            rw [link] at above
            cases above
        | some middle =>
            rw [link] at above
            exact (ih above).up link

theorem mem_ancestors_of_climb {fuel steps : Nat} {node top : Node}
    (climbs : climb parent steps node = some top) (enough : steps ≤ fuel) :
    top ∈ ancestors parent fuel node := by
  induction steps generalizing node fuel with
  | zero =>
      cases climbs
      cases fuel with
      | zero => exact List.mem_singleton_self top
      | succ fuel => exact List.mem_cons_self
  | succ steps ih =>
      cases fuel with
      | zero => omega
      | succ fuel =>
          obtain ⟨above, link, rest⟩ := climb_succ_cases climbs
          refine List.mem_cons_of_mem _ ?_
          simp only [link, Option.map_some, Option.getD_some]
          exact ih rest (by omega)

theorem Acyclic.trail (acyclic : Acyclic parent) {steps : Nat}
    (climbs : climb parent steps low = some high) :
    ∃ left : List Node, left.length = steps ∧ left.Nodup ∧
      ∀ node ∈ left, Reaches parent low node ∧ (parent node).isSome = true := by
  induction steps generalizing low with
  | zero => exact ⟨[], rfl, List.nodup_nil, fun node member => by cases member⟩
  | succ steps ih =>
      obtain ⟨above, link, rest⟩ := climb_succ_cases climbs
      obtain ⟨left, count, distinct, spec⟩ := ih rest
      refine ⟨low :: left, by simp [count], ?_, ?_⟩
      · rw [List.nodup_cons]
        exact ⟨fun again => acyclic low above link (spec low again).1, distinct⟩
      · intro node member
        rcases List.mem_cons.mp member with rfl | later
        · exact ⟨Reaches.refl node, by simp [link]⟩
        · exact ⟨(spec node later).1.up link, (spec node later).2⟩

theorem Acyclic.climb_le (acyclic : Acyclic parent)
    (support : ∀ node, (parent node).isSome = true → node ∈ nodes) {steps : Nat}
    (climbs : climb parent steps low = some high) : steps ≤ nodes.length := by
  obtain ⟨left, count, distinct, spec⟩ := acyclic.trail climbs
  have inside : left ⊆ nodes := fun node member => support node (spec node member).2
  have bound := (distinct.subperm inside).length_le
  omega

theorem Acyclic.mem_ancestors (acyclic : Acyclic parent)
    (support : ∀ node, (parent node).isSome = true → node ∈ nodes) :
    high ∈ ancestors parent nodes.length low ↔ Reaches parent low high := by
  refine ⟨reaches_of_mem_ancestors, fun reaches => ?_⟩
  obtain ⟨steps, climbs⟩ := reaches
  exact mem_ancestors_of_climb climbs (acyclic.climb_le support climbs)

theorem walkUp_isSome {fuel : Nat} {node : Node} :
    (walkUp parent fuel node).isSome = true ↔ climb parent fuel node = none := by
  induction fuel generalizing node with
  | zero => simp [walkUp, climb]
  | succ fuel ih =>
      simp only [walkUp, climb]
      cases parent node with
      | none => simp
      | some above => simpa using ih

theorem Acyclic.walkUp_ends (acyclic : Acyclic parent)
    (support : ∀ node, (parent node).isSome = true → node ∈ nodes) (node : Node) :
    (walkUp parent (nodes.length + 1) node).isSome = true := by
  rw [walkUp_isSome]
  cases climbs : climb parent (nodes.length + 1) node with
  | none => rfl
  | some top =>
      have bound := acyclic.climb_le support climbs
      omega

theorem walkDown_ends {children : Node → List Node}
    (isChild : ∀ node child, child ∈ children node → parent child = some node)
    (root : Node) (limit : Nat)
    (short : ∀ node steps, climb parent steps node = some root → steps ≤ limit) :
    ∀ (fuel done : Nat) (generation : List Node), limit < fuel + done →
      (∀ node ∈ generation, climb parent done node = some root) →
      (walkDown children fuel generation).isSome = true := by
  intro fuel
  induction fuel with
  | zero =>
      intro done generation enough placed
      have empty : generation = [] := by
        refine List.eq_nil_iff_forall_not_mem.mpr fun node member => ?_
        have bound := short node done (placed node member)
        omega
      simp [walkDown, empty]
  | succ fuel ih =>
      intro done generation enough placed
      simp only [walkDown]
      split
      · rfl
      · have next := ih (done + 1) (generation.flatMap children) (by omega) ?_
        · simpa using next
        · intro child member
          obtain ⟨node, nodeIn, isIn⟩ := List.mem_flatMap.mp member
          simp [climb, isChild node child isIn, placed node nodeIn]

theorem Acyclic.walkDown_ends (acyclic : Acyclic parent)
    (support : ∀ node, (parent node).isSome = true → node ∈ nodes)
    {children : Node → List Node}
    (isChild : ∀ node child, child ∈ children node → parent child = some node) (root : Node) :
    (walkDown children (nodes.length + 1) (children root)).isSome = true := by
  refine Forest.walkDown_ends isChild root nodes.length
    (fun node steps climbs => acyclic.climb_le support climbs) _ 1 _ (by omega) ?_
  intro child member
  simp [climb, isChild root child member]

theorem walkUp_never {node : Node} (onCycle : ∀ high, Reaches parent node high →
    (parent high).isSome = true) : ∀ fuel, walkUp parent fuel node = none := by
  intro fuel
  induction fuel generalizing node with
  | zero => rfl
  | succ fuel ih =>
      obtain ⟨above, link⟩ := Option.isSome_iff_exists.mp (onCycle node (Reaches.refl node))
      simp only [walkUp, link]
      rw [ih fun high reaches => onCycle high (reaches.up link)]
      rfl

end Walks

end OdooSemantic.Lib.Forest
