import Mathlib.Data.Fintype.Pigeonhole
import Mathlib.Data.Set.Finite.Basic

/-!
# Sorting by dependencies

Kahn's algorithm takes a node when none of its dependencies is left and counts it out of the
nodes that depend on it.  Dependencies may be listed more than once and may form cycles; the
nodes it leaves are those on a cycle or downstream of one.
-/

set_option autoImplicit false

namespace OdooSemantic.Lib.Kahn

open Relation

section Cycles
variable {Node : Type} {needs : Node → Node → Prop}

/-- On a cycle, or downstream of one. -/
def Tangled (needs : Node → Node → Prop) (node : Node) : Prop :=
  ∃ turn, ReflTransGen needs node turn ∧ TransGen needs turn turn

theorem Tangled.via {node : Node} (tangled : Tangled needs node) :
    ∃ dep, needs node dep ∧ Tangled needs dep := by
  obtain ⟨turn, path, cycle⟩ := tangled
  obtain here | ⟨dep, first, rest⟩ := ReflTransGen.cases_head path
  · rw [here]
    obtain ⟨dep, first, rest⟩ := TransGen.head'_iff.mp cycle
    exact ⟨dep, first, turn, rest, cycle⟩
  · exact ⟨dep, first, turn, rest, cycle⟩

theorem not_tangled_of_rank {members : Node → Prop} {rank : Node → Nat}
    (down : ∀ node dep, members node → needs node dep → members dep ∧ rank dep < rank node)
    {node : Node} (member : members node) : ¬ Tangled needs node := by
  intro tangled
  induction bound : rank node using Nat.strong_induction_on generalizing node with
  | _ height ih =>
      obtain ⟨dep, needed, depTangled⟩ := tangled.via
      obtain ⟨depMember, lower⟩ := down node dep member needed
      exact ih (rank dep) (by omega) depMember depTangled rfl

/-- Among finitely many nodes, one that always finds another to need reaches a cycle. -/
theorem tangled_of_endless {members : Set Node} (finite : members.Finite)
    (endless : ∀ node ∈ members, ∃ dep ∈ members, needs node dep) {node : Node}
    (member : node ∈ members) : Tangled needs node := by
  have : Finite members := finite
  choose! further inside linked using endless
  let walk : members → members := fun node => ⟨further node, inside node node.2⟩
  have path : ∀ steps (start : members),
      ReflTransGen needs start.1 (walk^[steps] start).1 := by
    intro steps
    induction steps with
    | zero =>
        intro start
        exact ReflTransGen.refl
    | succ steps ih =>
        intro start
        rw [Function.iterate_succ_apply]
        exact ReflTransGen.head (linked start.1 start.2) (ih (walk start))
  obtain ⟨first, second, differ, same⟩ :=
    Finite.exists_ne_map_eq_of_infinite fun steps => walk^[steps] ⟨node, member⟩
  have turns : ∀ {first second : Nat}, first < second →
      walk^[first] ⟨node, member⟩ = walk^[second] ⟨node, member⟩ → Tangled needs node := by
    intro first second less same
    obtain ⟨more, split⟩ := Nat.exists_eq_add_of_lt less
    refine ⟨(walk^[first] ⟨node, member⟩).1, path first ⟨node, member⟩, ?_⟩
    have again : walk^[first] ⟨node, member⟩ =
        walk^[more] (walk (walk^[first] ⟨node, member⟩)) := by
      have index : second = more.succ + first := by omega
      calc walk^[first] ⟨node, member⟩ = walk^[second] ⟨node, member⟩ := same
        _ = walk^[more] (walk (walk^[first] ⟨node, member⟩)) := by
            rw [index, Function.iterate_add_apply, Function.iterate_succ_apply]
    have step : needs (walk^[first] ⟨node, member⟩).1
        (walk (walk^[first] ⟨node, member⟩)).1 :=
      linked _ (walk^[first] ⟨node, member⟩).2
    have rest := path more (walk (walk^[first] ⟨node, member⟩))
    rw [← again] at rest
    exact TransGen.head' step rest
  obtain less | more := Nat.lt_or_gt_of_ne differ
  · exact turns less same
  · exact turns more same.symm

end Cycles

section Counting
variable {Node : Type} [DecidableEq Node]

/-- What is left to count for each node, and the nodes with nothing left, first come first. -/
structure Waiting (Node : Type) where
  inDegree : Node → Int
  queue : List Node

def countDown (waiting : Waiting Node) (dependent : Node) : Waiting Node :=
  let left := waiting.inDegree dependent - 1
  { inDegree := Function.update waiting.inDegree dependent left
    queue := if left = 0 then waiting.queue ++ [dependent] else waiting.queue }

theorem countDown_inDegree (waiting : Waiting Node) (dependent node : Node) :
    (countDown waiting dependent).inDegree node =
      waiting.inDegree node - if node = dependent then 1 else 0 := by
  rw [countDown]
  dsimp only
  by_cases same : node = dependent
  · rw [if_pos same, same, Function.update_self]
  · rw [if_neg same, Function.update_of_ne same, Int.sub_zero]

theorem count_cons_if (first node : Node) (rest : List Node) :
    (first :: rest).count node = rest.count node + if node = first then 1 else 0 := by
  rw [List.count_cons]
  congr 1
  exact if_congr (by rw [beq_iff_eq, eq_comm]) rfl rfl

theorem countDown_all_inDegree (dependents : List Node) : ∀ (waiting : Waiting Node) (node : Node),
    (dependents.foldl countDown waiting).inDegree node =
      waiting.inDegree node - dependents.count node := by
  induction dependents with
  | nil =>
      intro waiting node
      simp
  | cons first rest ih =>
      intro waiting node
      rw [List.foldl_cons, ih, countDown_inDegree, count_cons_if]
      split <;> omega

theorem countDown_all_queue (dependents : List Node) : ∀ waiting : Waiting Node,
    ∃ added, (dependents.foldl countDown waiting).queue = waiting.queue ++ added ∧
      added.Nodup ∧ ∀ node, node ∈ added ↔
        0 < waiting.inDegree node ∧ waiting.inDegree node ≤ dependents.count node := by
  induction dependents with
  | nil =>
      intro waiting
      refine ⟨[], (List.append_nil _).symm, List.nodup_nil, ?_⟩
      intro node
      simp only [List.not_mem_nil, List.count_nil, false_iff]
      omega
  | cons first rest ih =>
      intro waiting
      obtain ⟨added, queued, distinct, members⟩ := ih (countDown waiting first)
      by_cases last : waiting.inDegree first - 1 = 0
      · refine ⟨first :: added, ?_, List.nodup_cons.mpr ⟨?_, distinct⟩, ?_⟩
        · rw [List.foldl_cons, queued, countDown]
          simp only [last, if_true]
          rw [List.append_assoc, List.singleton_append]
        · rw [members, countDown_inDegree, if_pos rfl]
          omega
        · intro node
          rw [List.mem_cons, members, countDown_inDegree, count_cons_if]
          by_cases same : node = first
          · rw [if_pos same, if_pos same, same]
            simp only [true_or, true_iff]
            omega
          · rw [if_neg same, if_neg same]
            simp only [same, false_or]
            omega
      · refine ⟨added, ?_, distinct, ?_⟩
        · rw [List.foldl_cons, queued, countDown]
          simp only [last, if_false]
        · intro node
          rw [members, countDown_inDegree, count_cons_if]
          by_cases same : node = first
          · rw [if_pos same, if_pos same, same]
            omega
          · rw [if_neg same, if_neg same]
            omega

/-- Takes the queue's first node until the queue is empty. -/
def drain (sort : List Node → List Node) (dependents : Node → List Node) :
    Nat → Waiting Node → List Node → Waiting Node × List Node
  | 0, waiting, result => (waiting, result)
  | left + 1, waiting, result =>
      match waiting.queue with
      | [] => (waiting, result)
      | node :: rest =>
          drain sort dependents left
            ((sort (dependents node)).foldl countDown { waiting with queue := rest })
            (result ++ [node])

end Counting

structure Dependencies (Node : Type) [DecidableEq Node] where
  nodes : List Node
  deps : Node → List Node
  dependents : Node → List Node
  distinct : nodes.Nodup
  known : ∀ node ∈ nodes, ∀ dep ∈ deps node, dep ∈ nodes
  mirrored : ∀ node dep, (dependents dep).count node =
    if node ∈ nodes then (deps node).count dep else 0

section Order
variable {Node : Type} [DecidableEq Node] (graph : Dependencies Node)

def Dependencies.Needs (node dep : Node) : Prop := node ∈ graph.nodes ∧ dep ∈ graph.deps node

/-- What holds of the nodes taken so far and of those that wait. -/
structure Ordered (waiting : Waiting Node) (result : List Node) : Prop where
  distinct : (result ++ waiting.queue).Nodup
  listed : ∀ node ∈ result ++ waiting.queue, node ∈ graph.nodes
  counted : ∀ node ∈ graph.nodes,
    waiting.inDegree node = (graph.deps node).countP (· ∉ result)
  queued : ∀ node ∈ graph.nodes, node ∈ result ++ waiting.queue ↔ waiting.inDegree node = 0
  before : ∀ node ∈ result ++ waiting.queue, ∀ dep ∈ graph.deps node,
    dep ∈ result ++ waiting.queue ∧
      (result ++ waiting.queue).idxOf dep < (result ++ waiting.queue).idxOf node

variable {graph}

theorem Dependencies.countP_taken {result : List Node} {node taken : Node}
    (fresh : taken ∉ result) :
    ((graph.deps node).countP (· ∉ result) : Int) - (graph.deps node).count taken =
      (graph.deps node).countP (· ∉ result ++ [taken]) := by
  have split : (graph.deps node).countP (· ∉ result) =
      (graph.deps node).countP (· ∉ result ++ [taken]) + (graph.deps node).count taken := by
    induction graph.deps node with
    | nil => rfl
    | cons first rest ih =>
        rw [List.countP_cons, List.countP_cons, count_cons_if, ih]
        by_cases same : taken = first
        · rw [← same]
          simp [fresh]
          omega
        · have other : first ∉ result ++ [taken] ↔ first ∉ result := by
            simp [Ne.symm same]
          simp only [other, if_neg same]
          omega
  omega

theorem Ordered.take {inDegree : Node → Int} {node : Node} {rest result : List Node}
    {sort : List Node → List Node} (sorts : ∀ items, (sort items).Perm items)
    (ordered : Ordered graph ⟨inDegree, node :: rest⟩ result) :
    Ordered graph ((sort (graph.dependents node)).foldl countDown ⟨inDegree, rest⟩)
      (result ++ [node]) := by
  obtain ⟨distinct, listed, counted, queued, before⟩ := ordered
  have whole : result ++ node :: rest = result ++ [node] ++ rest := by
    rw [List.append_assoc, List.singleton_append]
  have fresh : node ∉ result := by
    intro again
    exact (List.nodup_append.mp distinct).2.2 node again node List.mem_cons_self rfl
  obtain ⟨added, appended, addedDistinct, members⟩ :=
    countDown_all_queue (sort (graph.dependents node)) ⟨inDegree, rest⟩
  have counts : ∀ one, (sort (graph.dependents node)).count one =
      if one ∈ graph.nodes then (graph.deps one).count node else 0 := by
    intro one
    rw [(sorts _).count_eq, graph.mirrored]
  have degrees : ∀ one ∈ graph.nodes,
      ((sort (graph.dependents node)).foldl countDown ⟨inDegree, rest⟩).inDegree one =
        (graph.deps one).countP (· ∉ result ++ [node]) := by
    intro one oneIn
    rw [countDown_all_inDegree, counts, if_pos oneIn, ← Dependencies.countP_taken fresh]
    exact congrArg (· - _) (counted one oneIn)
  have order : result ++ [node] ++
      ((sort (graph.dependents node)).foldl countDown ⟨inDegree, rest⟩).queue =
        (result ++ node :: rest) ++ added := by
    rw [appended, whole]
    exact (List.append_assoc _ _ _).symm
  have addedNew : ∀ one ∈ added, one ∈ graph.nodes ∧ one ∉ result ++ node :: rest ∧
      ∀ dep ∈ graph.deps one, dep ∈ result ++ node :: rest := by
    intro one oneAdded
    obtain ⟨positive, reaches⟩ := (members one).mp oneAdded
    rw [counts] at reaches
    have oneIn : one ∈ graph.nodes := by
      by_contra outside
      rw [if_neg outside] at reaches
      omega
    rw [if_pos oneIn] at reaches
    have taken := @Dependencies.countP_taken _ _ graph _ one _ fresh
    have degree := counted one oneIn
    refine ⟨oneIn, ?_, ?_⟩
    · intro waits
      have done := (queued one oneIn).mp waits
      omega
    · intro dep depIn
      have zero : (graph.deps one).countP (· ∉ result ++ [node]) = 0 := by
        dsimp only at positive reaches degree
        omega
      have inTaken := List.countP_eq_zero.mp zero dep depIn
      rw [decide_eq_true_iff, not_not] at inTaken
      rw [whole]
      exact List.mem_append_left rest inTaken
  refine ⟨?_, ?_, degrees, ?_, ?_⟩
  · rw [order]
    refine List.Nodup.append distinct addedDistinct ?_
    intro one old new
    exact (addedNew one new).2.1 old
  · rw [order]
    intro one member
    obtain old | new := List.mem_append.mp member
    · exact listed one old
    · exact (addedNew one new).1
  · rw [order]
    intro one oneIn
    rw [List.mem_append, members, counts, if_pos oneIn, countDown_all_inDegree, counts,
      if_pos oneIn, queued one oneIn]
    have taken := @Dependencies.countP_taken _ _ graph _ one _ fresh
    have degree := counted one oneIn
    dsimp only at degree ⊢
    omega
  · rw [order]
    intro one member dep depIn
    obtain old | new := List.mem_append.mp member
    · obtain ⟨depListed, earlier⟩ := before one old dep depIn
      refine ⟨List.mem_append_left added depListed, ?_⟩
      rw [List.idxOf_append_of_mem depListed, List.idxOf_append_of_mem old]
      exact earlier
    · obtain ⟨-, notOld, depsOld⟩ := addedNew one new
      have depListed := depsOld dep depIn
      refine ⟨List.mem_append_left added depListed, ?_⟩
      rw [List.idxOf_append_of_mem depListed, List.idxOf_append_of_notMem notOld]
      have inside := List.idxOf_lt_length_of_mem depListed
      omega

theorem Ordered.drain {sort : List Node → List Node} (sorts : ∀ items, (sort items).Perm items)
    (left : Nat) : ∀ {waiting : Waiting Node} {result : List Node},
      Ordered graph waiting result → graph.nodes.length ≤ result.length + left →
      ∃ inDegree order, drain sort graph.dependents left waiting result =
        (⟨inDegree, []⟩, order) ∧ Ordered graph ⟨inDegree, []⟩ order := by
  induction left with
  | zero =>
      intro waiting result ordered enough
      -- every node is in the result, so that none is left to wait
      have room := (ordered.distinct.subperm ordered.listed).length_le
      rw [List.length_append] at room
      have empty : waiting.queue = [] := List.eq_nil_of_length_eq_zero (by omega)
      refine ⟨waiting.inDegree, result, ?_, ?_⟩
      · rw [Kahn.drain, ← empty]
      · rw [← empty]
        exact ordered
  | succ left ih =>
      intro waiting result ordered enough
      obtain ⟨inDegree, queue⟩ := waiting
      cases queue with
      | nil => exact ⟨inDegree, result, rfl, ordered⟩
      | cons node rest =>
          have longer : (result ++ [node]).length = result.length + 1 := by
            rw [List.length_append, List.length_singleton]
          exact ih (ordered.take sorts) (by omega)

theorem Ordered.mem_iff {inDegree : Node → Int} {order : List Node}
    (ordered : Ordered graph ⟨inDegree, []⟩ order) {node : Node} (listed : node ∈ graph.nodes) :
    node ∈ order ↔ ¬ Tangled graph.Needs node := by
  obtain ⟨-, inNodes, counted, queued, before⟩ := ordered
  simp only [List.append_nil] at inNodes counted queued before
  constructor
  · intro taken
    refine @not_tangled_of_rank _ _ (· ∈ order) order.idxOf ?_ _ taken
    intro one dep oneTaken needed
    exact before one oneTaken dep needed.2
  · intro untangled
    by_contra missing
    refine untangled (@tangled_of_endless _ _ {one | one ∈ graph.nodes ∧ one ∉ order}
      ((List.finite_toSet graph.nodes).subset fun one inside => inside.1) ?_ _ ⟨listed, missing⟩)
    rintro one ⟨oneIn, oneMissing⟩
    have some : (graph.deps one).countP (· ∉ order) ≠ 0 := by
      intro none
      refine oneMissing ((queued one oneIn).mpr ?_)
      rw [counted one oneIn, none]
      rfl
    obtain ⟨dep, depIn, left⟩ := List.countP_pos_iff.mp (Nat.pos_of_ne_zero some)
    exact ⟨dep, ⟨graph.known one oneIn dep depIn, of_decide_eq_true left⟩, oneIn, depIn⟩

end Order

end OdooSemantic.Lib.Kahn
