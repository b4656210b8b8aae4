import Mathlib.Data.Set.Lattice

/-!
# Walks outside a set and rules that grow a set

A walk follows the successors of the nodes that may be entered and never enters a known
node.  A rule that fires at a stage of a set gives nodes to it; the least set of a start is
the least set that has what every rule gives at every stage of the set.
-/

set_option autoImplicit false

namespace OdooSemantic.Lib.Closure

section Walks
variable {Node : Type} (next : Node → List Node) (passable : Node → Prop)

inductive Reached (known : Set Node) (start : List Node) : Node → Prop where
  | start {node : Node} (listed : node ∈ start) (fresh : node ∉ known) : Reached known start node
  | step {node succ : Node} (reached : Reached known start node) (isOpen : passable node)
      (listed : succ ∈ next node) (fresh : succ ∉ known) : Reached known start succ

inductive Blocked (known : Set Node) : Node → Prop where
  | here {node : Node} (fresh : node ∉ known) (isShut : ¬ passable node) : Blocked known node
  | later {node succ : Node} (fresh : node ∉ known) (isOpen : passable node)
      (listed : succ ∈ next node) (blocked : Blocked known succ) : Blocked known node

def NextClosed (members : Set Node) : Prop :=
  ∀ node ∈ members, ∀ succ ∈ next node, passable succ → succ ∈ members

end Walks

section WalkFacts
variable {Node : Type} {next : Node → List Node} {passable : Node → Prop}
  {known more members : Set Node} {start other : List Node} {node succ : Node}

theorem Reached.fresh (reached : Reached next passable known start node) : node ∉ known := by
  cases reached with
  | start _ fresh | step _ _ _ fresh => exact fresh

/-- A walk past fewer known nodes from more start nodes finds as much. -/
theorem Reached.mono (kept : known ⊆ more) (starts : ∀ node ∈ start, node ∈ other)
    (reached : Reached next passable more start node) : Reached next passable known other node := by
  induction reached with
  | start listed fresh => exact .start (starts _ listed) fun isKnown => fresh (kept isKnown)
  | step _ isOpen listed fresh ih => exact .step ih isOpen listed fun isKnown => fresh (kept isKnown)

theorem Reached.wider {nextMore : Node → List Node} {passableMore : Node → Prop}
    (steps : ∀ node, ∀ succ ∈ next node, succ ∈ nextMore node)
    (opens : ∀ node, passable node → passableMore node)
    (reached : Reached next passable known start node) :
    Reached nextMore passableMore known start node := by
  induction reached with
  | start listed fresh => exact .start listed fresh
  | step _ isOpen listed fresh ih => exact .step ih (opens _ isOpen) (steps _ _ listed) fresh

/-- What a walk finds lies in every set that has its start and is closed under its steps. -/
theorem Reached.inside (starts : ∀ node ∈ start, node ∉ known → node ∈ members)
    (steps : ∀ node ∈ members, passable node → ∀ succ ∈ next node, succ ∉ known → succ ∈ members)
    (reached : Reached next passable known start node) : node ∈ members := by
  induction reached with
  | start listed fresh => exact starts _ listed fresh
  | step _ isOpen listed fresh ih => exact steps _ ih isOpen _ listed fresh

theorem Reached.origin (reached : Reached next passable known [node] succ) : node ∉ known := by
  induction reached with
  | start listed fresh => exact List.mem_singleton.mp listed ▸ fresh
  | step _ _ _ _ ih => exact ih

theorem Blocked.fresh (blocked : Blocked next passable known node) : node ∉ known := by
  cases blocked with
  | here fresh _ | later fresh _ _ _ => exact fresh

theorem Blocked.of_reached (reached : Reached next passable known [node] succ)
    (blocked : Blocked next passable known succ) : Blocked next passable known node := by
  induction reached with
  | start listed _ =>
      cases List.mem_singleton.mp listed
      exact blocked
  | step reached isOpen listed _ ih => exact ih (.later reached.fresh isOpen listed blocked)

theorem Blocked.reaches (blocked : Blocked next passable known node)
    (reached : Reached next passable known start node) :
    ∃ shut, Reached next passable known start shut ∧ ¬ passable shut := by
  induction blocked with
  | here _ isShut => exact ⟨_, reached, isShut⟩
  | later _ isOpen listed blocked ih => exact ih (.step reached isOpen listed blocked.fresh)

theorem blocked_iff : Blocked next passable known node ↔
    ∃ shut, Reached next passable known [node] shut ∧ ¬ passable shut := by
  constructor
  · intro blocked
    exact blocked.reaches (.start (List.mem_singleton_self _) blocked.fresh)
  · rintro ⟨shut, reached, isShut⟩
    exact .of_reached reached (.here reached.fresh isShut)

theorem Blocked.grow {added : Set Node} (opens : ∀ node ∈ added, passable node)
    (complete : ∀ node ∈ added, ∀ succ ∈ next node, succ ∈ known ∪ added)
    (blocked : Blocked next passable known node) : Blocked next passable (known ∪ added) node := by
  induction blocked with
  | here fresh isShut =>
      refine .here ?_ isShut
      rintro (isKnown | isAdded)
      · exact fresh isKnown
      · exact isShut (opens _ isAdded)
  | later fresh isOpen listed _ ih =>
      refine .later ?_ isOpen listed ih
      rintro (isKnown | isAdded)
      · exact fresh isKnown
      · exact ih.fresh (complete _ isAdded _ listed)

theorem NextClosed.reached (closed : NextClosed next passable known) (start : List Node) :
    NextClosed next passable (known ∪ {node | Reached next passable known start node ∧ passable node}) := by
  rintro node (isKnown | ⟨reached, nodeOpen⟩) succ listed isOpen
  · exact Or.inl (closed node isKnown succ listed isOpen)
  · by_cases isKnown : succ ∈ known
    · exact Or.inl isKnown
    · exact Or.inr ⟨.step reached nodeOpen listed isKnown, isOpen⟩

/-- Where the known nodes are closed, what a walk through them finds is known or found past
them. -/
theorem NextClosed.past (closed : NextClosed next passable known)
    (reached : Reached next passable ∅ start node) (isOpen : passable node) :
    node ∈ known ∨ Reached next passable known start node := by
  induction reached with
  | @start node listed _ =>
      by_cases isKnown : node ∈ known
      · exact Or.inl isKnown
      · exact Or.inr (.start listed isKnown)
  | @step node succ _ nodeOpen listed _ ih =>
      by_cases isKnown : succ ∈ known
      · exact Or.inl isKnown
      · rcases ih nodeOpen with nodeKnown | nodeReached
        · exact Or.inl (closed node nodeKnown succ listed isOpen)
        · exact Or.inr (.step nodeReached nodeOpen listed isKnown)

end WalkFacts

structure Rules (Node Rule : Type) where
  fires : Set Node → Rule → Prop
  gives : Set Node → Rule → Set Node

section Closures
variable {Node Rule : Type} (rules : Rules Node Rule) {start members stage : Set Node}

def Closed (start members : Set Node) : Prop :=
  start ⊆ members ∧ ∀ stage, start ⊆ stage → stage ⊆ members → ∀ rule,
    rules.fires stage rule → rules.gives stage rule ⊆ members

inductive Grown (start : Set Node) : Set Node → Prop where
  | start : Grown start start
  | fire {stage : Set Node} {rule : Rule} (grown : Grown start stage)
      (fires : rules.fires stage rule) : Grown start (stage ∪ rules.gives stage rule)

def leastSet (start : Set Node) : Set Node := ⋂₀ {members | Closed rules start members}

variable {rules}

theorem Grown.from_start (grown : Grown rules start stage) : start ⊆ stage := by
  induction grown with
  | start => exact subset_rfl
  | fire _ _ ih => exact ih.trans Set.subset_union_left

theorem Grown.subset (grown : Grown rules start stage) (closed : Closed rules start members) :
    stage ⊆ members := by
  induction grown with
  | start => exact closed.1
  | fire grown fires ih =>
      exact Set.union_subset ih (closed.2 _ grown.from_start ih _ fires)

theorem leastSet_isLeast (start : Set Node) :
    IsLeast {members | Closed rules start members} (leastSet rules start) := by
  refine ⟨⟨?_, ?_⟩, fun members closed => Set.sInter_subset_of_mem closed⟩
  · exact Set.subset_sInter fun members closed => closed.1
  · intro stage fromStart inside rule fires
    refine Set.subset_sInter fun members closed => ?_
    exact closed.2 stage fromStart (inside.trans (Set.sInter_subset_of_mem closed)) rule fires

theorem Grown.subset_leastSet (grown : Grown rules start stage) : stage ⊆ leastSet rules start :=
  grown.subset (leastSet_isLeast start).1

theorem Grown.eq_leastSet (grown : Grown rules start stage) (closed : Closed rules start stage) :
    stage = leastSet rules start :=
  Set.Subset.antisymm grown.subset_leastSet ((leastSet_isLeast start).2 closed)

end Closures

section Rounds
variable {Node Rule : Type} (rules : Rules Node Rule) {start stage : Set Node} {node : Node}

def Rules.advance (stage : Set Node) : Set Node :=
  stage ∪ {node | ∃ rule, rules.fires stage rule ∧ node ∈ rules.gives stage rule}

def Rules.round (start : Set Node) : Nat → Set Node
  | 0 => start
  | turns + 1 => rules.advance (Rules.round start turns)

variable {rules}

theorem round_mono {first last : Nat} (within : first ≤ last) :
    rules.round start first ⊆ rules.round start last := by
  induction within with
  | refl => exact subset_rfl
  | step _ ih => exact ih.trans Set.subset_union_left

theorem round_still {first last : Nat}
    (still : rules.advance (rules.round start first) = rules.round start first)
    (within : first ≤ last) : rules.round start last = rules.round start first := by
  induction within with
  | refl => rfl
  | step _ ih =>
      rw [Rules.round, ih]
      exact still

theorem round_entered {first last : Nat} (within : first ≤ last)
    (before : node ∉ rules.round start first) (after : node ∈ rules.round start last) :
    ∃ turn, first ≤ turn ∧ turn < last ∧
      ∃ rule, rules.fires (rules.round start turn) rule ∧
        node ∈ rules.gives (rules.round start turn) rule := by
  induction within with
  | refl => exact absurd after before
  | @step last within ih =>
      rcases after with earlier | ⟨rule, fires, given⟩
      · obtain ⟨turn, low, high, entered⟩ := ih earlier
        exact ⟨turn, low, Nat.lt_succ_of_lt high, entered⟩
      · exact ⟨last, within, Nat.lt_succ_self last, rule, fires, given⟩

end Rounds

end OdooSemantic.Lib.Closure
