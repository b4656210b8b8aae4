import Mathlib.Algebra.Order.BigOperators.Group.List
import Mathlib.Algebra.Order.Group.Nat
import Mathlib.Algebra.Ring.Nat
import Mathlib.Data.List.Infix
import OdooSemantic.Lib.Closure

/-!
# Searches that collect values

A depth-first search shares the keys it has seen between its branches, a worklist pops the
next node of a stack.  Both give the values of all nodes they find, or nothing when one of
these has none.  Bounds on the recursion are shown to be large enough.
-/

set_option autoImplicit false

namespace OdooSemantic.Lib.Search

open Lib.Closure

structure Graph (Node Key : Type) where
  nodes : List Node
  key : Node → Key
  next : Node → List Node
  inside : ∀ node, ∀ succ ∈ next node, succ ∈ nodes

variable {Node Key Value : Type}

/-- The first node without an answer ends the loop. -/
def collectAll (one : List Key → Node → Option (List Key × List Value)) :
    List Key → List Node → Option (List Key × List Value)
  | seen, [] => some (seen, [])
  | seen, node :: rest =>
      match one seen node with
      | none => none
      | some first =>
          (collectAll one first.1 rest).map fun others => (others.1, first.2 ++ others.2)

variable {one : List Key → Node → Option (List Key × List Value)} {rest : List Node}

theorem collectAll_cons
    {seen : List Key} {node : Node} {found : List Key × List Value}
    (given : collectAll one seen (node :: rest) = some found) :
    ∃ first others, one seen node = some first ∧ collectAll one first.1 rest = some others ∧
      found = (others.1, first.2 ++ others.2) := by
  rw [collectAll] at given
  cases head : one seen node with
  | none =>
      rw [head] at given
      cases given
  | some first =>
      rw [head] at given
      obtain ⟨others, tail, same⟩ := Option.map_eq_some_iff.mp given
      exact ⟨first, others, rfl, tail, same.symm⟩

theorem collectAll_seen
    (grows : ∀ seen node found, one seen node = some found → seen ⊆ found.1) :
    ∀ {seen : List Key} {found : List Key × List Value},
      collectAll one seen rest = some found → seen ⊆ found.1 := by
  induction rest with
  | nil =>
      intro seen found given
      cases given
      exact List.Subset.refl _
  | cons node rest ih =>
      intro seen found given
      obtain ⟨first, others, head, tail, same⟩ := collectAll_cons given
      have further : first.1 ⊆ others.1 := ih tail
      rw [same]
      exact List.Subset.trans (grows _ _ _ head) further

theorem collectAll_mem {name : Value}
    : ∀ {seen : List Key} {found : List Key × List Value},
      collectAll one seen rest = some found → name ∈ found.2 →
        ∃ node ∈ rest, ∃ seen first, one seen node = some first ∧ name ∈ first.2 := by
  induction rest with
  | nil =>
      intro seen found given listed
      cases given
      cases listed
  | cons node rest ih =>
      intro seen found given listed
      obtain ⟨first, others, head, tail, same⟩ := collectAll_cons given
      rw [same] at listed
      obtain here | later : name ∈ first.2 ∨ name ∈ others.2 := List.mem_append.mp listed
      · exact ⟨node, List.mem_cons_self, seen, first, head, here⟩
      · obtain ⟨other, otherIn, further⟩ := ih tail later
        exact ⟨other, List.mem_cons_of_mem _ otherIn, further⟩

theorem collectAll_congr {one other : List Key → Node → Option (List Key × List Value)}
    (bound : List Key → Prop) (kept : ∀ seen more, seen ⊆ more → bound seen → bound more)
    (grows : ∀ seen node found, one seen node = some found → seen ⊆ found.1)
    (same : ∀ seen, bound seen → ∀ node ∈ rest, one seen node = other seen node) :
    ∀ {seen : List Key}, bound seen → collectAll one seen rest = collectAll other seen rest := by
  induction rest with
  | nil =>
      intro seen _
      rfl
  | cons node rest ih =>
      intro seen bounded
      rw [collectAll, collectAll, ← same seen bounded node List.mem_cons_self]
      cases head : one seen node with
      | none => rfl
      | some first =>
          have further := ih (fun seen bounded node listed =>
            same seen bounded node (List.mem_cons_of_mem _ listed))
            (kept _ _ (grows _ _ _ head) bounded)
          simp only [further]

variable [DecidableEq Key] (graph : Graph Node Key)

/-- No two nodes have the same key. -/
def Graph.Distinct : Prop :=
  ∀ node ∈ graph.nodes, ∀ other ∈ graph.nodes, graph.key node = graph.key other → node = other

def Graph.unseen (seen : List Key) : List Node := graph.nodes.filter (graph.key · ∉ seen)

theorem unseen_subset {seen more : List Key} (grown : seen ⊆ more) :
    (graph.unseen more).length ≤ (graph.unseen seen).length := by
  refine List.Sublist.length_le (List.monotone_filter_right graph.nodes fun node isFresh => ?_)
  rw [decide_eq_true_eq] at isFresh ⊢
  exact fun known => isFresh (grown known)

theorem unseen_cons {seen : List Key} {node : Node} (listed : node ∈ graph.nodes)
    (fresh : graph.key node ∉ seen) :
    (graph.unseen (graph.key node :: seen)).length < (graph.unseen seen).length := by
  have shorter : (graph.unseen (graph.key node :: seen)).Sublist (graph.unseen seen) := by
    refine List.monotone_filter_right graph.nodes fun other isFresh => ?_
    rw [decide_eq_true_eq] at isFresh ⊢
    exact fun known => isFresh (List.mem_cons_of_mem _ known)
  refine lt_of_le_of_ne shorter.length_le fun same => ?_
  have before : node ∈ graph.unseen seen :=
    List.mem_filter.mpr ⟨listed, decide_eq_true fresh⟩
  rw [← shorter.eq_of_length same] at before
  have after := (List.mem_filter.mp before).2
  rw [decide_eq_true_eq] at after
  exact after List.mem_cons_self

section Collect
variable (answer : Node → Option (Option (List Value)))

/-- A node that answers for itself is not entered; one that does not is asked for what its
successors answer, and has no answer without any. -/
def collect : Nat → List Key → Node → Option (List Key × List Value)
  | 0, _, _ => none
  | left + 1, seen, node =>
      match answer node with
      | some own => own.map (seen, ·)
      | none =>
          if graph.key node ∈ seen then some (seen, [])
          else if (graph.next node).isEmpty then none
          else collectAll (collect left) (graph.key node :: seen) (graph.next node)

def Entered (found : List Key × List Value) (node : Node) : Prop :=
  match answer node with
  | some own => ∃ names, own = some names ∧ names ⊆ found.2
  | none => graph.key node ∈ found.1

def Finished (seen : List Key) (found : List Key × List Value) : Prop :=
  ∀ node ∈ graph.nodes, graph.key node ∈ found.1 → graph.key node ∉ seen →
    ∀ succ ∈ graph.next node, Entered graph answer found succ

def Answers (node : Node) (name : Value) : Prop :=
  ∃ target names, Reached graph.next (answer · = none) ∅ [node] target ∧
    answer target = some (some names) ∧ name ∈ names

variable {graph answer}

variable {node : Node} {left : Nat}

omit [DecidableEq Key] in
theorem Entered.mono {found more : List Key × List Value}
    (keys : found.1 ⊆ more.1) (names : found.2 ⊆ more.2)
    (entered : Entered graph answer found node) : Entered graph answer more node := by
  unfold Entered at entered ⊢
  cases own : answer node with
  | some own =>
      simp only [own] at entered
      obtain ⟨given, isOwn, inFound⟩ := entered
      exact ⟨given, isOwn, List.Subset.trans inFound names⟩
  | none =>
      simp only [own] at entered
      exact keys entered

theorem collect_cases {seen : List Key}
    {found : List Key × List Value}
    (given : collect graph answer (left + 1) seen node = some found) :
    (∃ names, answer node = some (some names) ∧ found = (seen, names)) ∨
    (answer node = none ∧ graph.key node ∈ seen ∧ found = (seen, [])) ∨
    (answer node = none ∧ graph.key node ∉ seen ∧
      collectAll (collect graph answer left) (graph.key node :: seen) (graph.next node) =
        some found) := by
  rw [collect] at given
  cases own : answer node with
  | some own =>
      simp only [own] at given
      obtain ⟨names, isOwn, same⟩ := Option.map_eq_some_iff.mp given
      exact Or.inl ⟨names, by rw [isOwn], same.symm⟩
  | none =>
      simp only [own] at given
      by_cases known : graph.key node ∈ seen
      · rw [if_pos known] at given
        exact Or.inr (Or.inl ⟨rfl, known, (Option.some.inj given).symm⟩)
      · rw [if_neg known] at given
        by_cases last : (graph.next node).isEmpty = true
        · rw [if_pos last] at given
          cases given
        · rw [if_neg last] at given
          exact Or.inr (Or.inr ⟨rfl, known, given⟩)

theorem collect_seen : ∀ {seen : List Key} {node : Node}
    {found : List Key × List Value},
    collect graph answer left seen node = some found → seen ⊆ found.1 := by
  induction left with
  | zero =>
      intro seen node found given
      cases given
  | succ left ih =>
      intro seen node found given
      obtain ⟨names, -, same⟩ | ⟨-, -, same⟩ | ⟨-, -, inner⟩ := collect_cases given
      · rw [same]
        exact List.Subset.refl _
      · rw [same]
        exact List.Subset.refl _
      · exact List.Subset.trans (List.subset_cons_self _ _)
          (collectAll_seen (fun _ _ _ given => ih given) inner)

omit [DecidableEq Key] in
theorem reached_later {node succ target : Node} (isOpen : answer node = none)
    (listed : succ ∈ graph.next node)
    (reached : Reached graph.next (answer · = none) ∅ [succ] target) :
    Reached graph.next (answer · = none) ∅ [node] target := by
  induction reached with
  | start isSucc fresh =>
      rw [List.mem_singleton.mp isSucc]
      exact .step (.start (List.mem_singleton_self _) fun empty => empty) isOpen listed
        fun empty => empty
  | step _ midOpen midNext fresh ih => exact .step ih midOpen midNext fresh

theorem collect_answers : ∀ {seen : List Key} {node : Node}
    {found : List Key × List Value} {name : Value},
    collect graph answer left seen node = some found → name ∈ found.2 →
      Answers graph answer node name := by
  induction left with
  | zero =>
      intro seen node found name given
      cases given
  | succ left ih =>
      intro seen node found name given listed
      obtain ⟨names, isOwn, same⟩ | ⟨-, -, same⟩ | ⟨isOpen, -, inner⟩ := collect_cases given
      · rw [same] at listed
        exact ⟨node, names, .start (List.mem_singleton_self _) fun empty => empty, isOwn, listed⟩
      · rw [same] at listed
        cases listed
      · obtain ⟨succ, isNext, before, first, one, inFirst⟩ := collectAll_mem inner listed
        obtain ⟨target, names, reached, isOwn, inNames⟩ := ih one inFirst
        exact ⟨target, names, reached_later isOpen isNext reached, isOwn, inNames⟩

theorem collectAll_finished (ofOne : ∀ {seen : List Key} {node : Node}
      {found : List Key × List Value}, node ∈ graph.nodes →
        collect graph answer left seen node = some found →
        Entered graph answer found node ∧ Finished graph answer seen found)
    {rest : List Node} : ∀ {seen : List Key} {found : List Key × List Value},
      (∀ node ∈ rest, node ∈ graph.nodes) →
      collectAll (collect graph answer left) seen rest = some found →
        (∀ node ∈ rest, Entered graph answer found node) ∧ Finished graph answer seen found := by
  induction rest with
  | nil =>
      intro seen found _ given
      cases given
      exact ⟨fun _ listed => absurd listed List.not_mem_nil, fun _ _ known fresh => absurd known fresh⟩
  | cons node rest ih =>
      intro seen found inNodes given
      obtain ⟨first, others, head, tail, same⟩ := collectAll_cons given
      rw [List.forall_mem_cons] at inNodes
      obtain ⟨entered, finished⟩ := ofOne inNodes.1 head
      obtain ⟨enteredRest, finishedRest⟩ := ih inNodes.2 tail
      have keys : first.1 ⊆ others.1 := collectAll_seen (fun _ _ _ => collect_seen) tail
      have earlier : first.1 ⊆ found.1 ∧ first.2 ⊆ found.2 := by
        rw [same]
        exact ⟨keys, List.subset_append_left _ _⟩
      have later : others.1 ⊆ found.1 ∧ others.2 ⊆ found.2 := by
        rw [same]
        exact ⟨List.Subset.refl _, List.subset_append_right _ _⟩
      constructor
      · rw [List.forall_mem_cons]
        exact ⟨entered.mono earlier.1 earlier.2,
          fun other listed => (enteredRest other listed).mono later.1 later.2⟩
      · intro other otherIn known fresh succ isNext
        by_cases early : graph.key other ∈ first.1
        · exact (finished other otherIn early fresh succ isNext).mono earlier.1 earlier.2
        · rw [same] at known
          exact (finishedRest other otherIn known early succ isNext).mono later.1 later.2

theorem collect_finished (distinct : graph.Distinct) : ∀ {seen : List Key}
    {node : Node} {found : List Key × List Value}, node ∈ graph.nodes →
    collect graph answer left seen node = some found →
      Entered graph answer found node ∧ Finished graph answer seen found := by
  induction left with
  | zero =>
      intro seen node found _ given
      cases given
  | succ left ih =>
      intro seen node found listed given
      obtain ⟨names, isOwn, same⟩ | ⟨isOpen, known, same⟩ | ⟨isOpen, fresh, inner⟩ :=
        collect_cases given
      · rw [same]
        refine ⟨?_, fun _ _ known fresh => absurd known fresh⟩
        simp only [Entered, isOwn]
        exact ⟨names, rfl, List.Subset.refl _⟩
      · rw [same]
        refine ⟨?_, fun _ _ known fresh => absurd known fresh⟩
        simp only [Entered, isOpen]
        exact known
      · obtain ⟨entered, finished⟩ :=
          collectAll_finished ih (graph.inside node) inner
        have keys := collectAll_seen (fun _ _ _ => collect_seen) inner
        constructor
        · simp only [Entered, isOpen]
          exact keys List.mem_cons_self
        · intro other otherIn known isFresh succ isNext
          by_cases same : graph.key other = graph.key node
          · rw [distinct other otherIn node listed same] at isNext
            exact entered succ isNext
          · refine finished other otherIn known (fun early => ?_) succ isNext
            obtain here | before := List.mem_cons.mp early
            · exact same here
            · exact isFresh before

theorem collect_complete (distinct : graph.Distinct) {node target : Node}
    {found : List Key × List Value} {own : Option (List Value)} (listed : node ∈ graph.nodes)
    (given : collect graph answer left [] node = some found)
    (reached : Reached graph.next (answer · = none) ∅ [node] target)
    (answers : answer target = some own) : ∃ names, own = some names ∧ names ⊆ found.2 := by
  obtain ⟨entered, finished⟩ := collect_finished distinct listed given
  have inFound : target ∈ {node | node ∈ graph.nodes ∧ Entered graph answer found node} := by
    refine reached.inside ?_ ?_
    · intro start isStart _
      rw [List.mem_singleton.mp isStart]
      exact ⟨listed, entered⟩
    · intro node inside isOpen succ isNext _
      obtain ⟨nodeIn, nodeEntered⟩ := inside
      simp only [Entered, isOpen] at nodeEntered
      exact ⟨graph.inside node succ isNext,
        finished node nodeIn nodeEntered List.not_mem_nil succ isNext⟩
  have targetEntered := inFound.2
  simp only [Entered, answers] at targetEntered
  exact targetEntered

theorem collect_bound : ∀ {seen : List Key} {node : Node}, node ∈ graph.nodes →
    (graph.unseen seen).length < left →
      collect graph answer left seen node = collect graph answer (left + 1) seen node := by
  induction left with
  | zero =>
      intro seen node _ bounded
      omega
  | succ left ih =>
      intro seen node listed bounded
      rw [collect, collect]
      cases own : answer node with
      | some own => rfl
      | none =>
          by_cases known : graph.key node ∈ seen
          · simp only [if_pos known]
          · have fewer := unseen_cons graph listed known
            have inner : collectAll (collect graph answer left) (graph.key node :: seen)
                (graph.next node) = collectAll (collect graph answer (left + 1))
                (graph.key node :: seen) (graph.next node) := by
              refine collectAll_congr (fun seen => (graph.unseen seen).length < left)
                ?_ (fun _ _ _ => collect_seen) ?_ (by omega)
              · intro seen more grown bounded
                exact lt_of_le_of_lt (unseen_subset graph grown) bounded
              · intro seen bounded succ isNext
                exact ih (graph.inside node succ isNext) bounded
            simp only [if_neg known, inner]

theorem collect_room (listed : node ∈ graph.nodes)
    (room : graph.nodes.length < left) :
    collect graph answer left [] node =
      collect graph answer (graph.nodes.length + 1) [] node := by
  induction left with
  | zero => omega
  | succ left ih =>
      by_cases last : left = graph.nodes.length
      · rw [last]
      · have bounded : (graph.unseen []).length ≤ graph.nodes.length := List.length_filter_le _ _
        rw [← collect_bound listed (by omega)]
        exact ih (by omega)

end Collect

section Gather
variable (value : Node → Option (List Value))

/-- The top of the stack first; the successors of a node are pushed in order. -/
def gather : Nat → List Key → List Node → Option (List Value)
  | _, _, [] => some []
  | 0, _, _ :: _ => none
  | left + 1, seen, node :: rest =>
      if graph.key node ∈ seen then gather left seen rest
      else
        match value node with
        | none => none
        | some names =>
            (gather left (graph.key node :: seen) ((graph.next node).reverse ++ rest)).map
              (names ++ ·)

def Graph.room (seen : List Key) (stack : List Node) : Nat :=
  stack.length + ((graph.unseen seen).map fun node => (graph.next node).length).sum

variable {left : Nat} {seen : List Key} {node : Node} {rest : List Node}

theorem gather_cases
    {found : List Value}
    (given : gather graph value (left + 1) seen (node :: rest) = some found) :
    (graph.key node ∈ seen ∧ gather graph value left seen rest = some found) ∨
    (graph.key node ∉ seen ∧ ∃ names others, value node = some names ∧
      gather graph value left (graph.key node :: seen) ((graph.next node).reverse ++ rest) =
        some others ∧ found = names ++ others) := by
  rw [gather] at given
  by_cases known : graph.key node ∈ seen
  · rw [if_pos known] at given
    exact Or.inl ⟨known, given⟩
  · rw [if_neg known] at given
    cases own : value node with
    | none =>
        rw [own] at given
        cases given
    | some names =>
        rw [own] at given
        obtain ⟨others, tail, same⟩ := Option.map_eq_some_iff.mp given
        exact Or.inr ⟨known, names, others, rfl, tail, same.symm⟩

variable {graph value}

theorem gather_mem {start : List Node} {name : Value} : ∀ {seen : List Key}
    {stack : List Node} {found : List Value},
    (∀ node ∈ stack, Reached graph.next (fun _ => True) ∅ start node) →
    gather graph value left seen stack = some found → name ∈ found →
      ∃ node names, Reached graph.next (fun _ => True) ∅ start node ∧
        value node = some names ∧ name ∈ names := by
  induction left with
  | zero =>
      intro seen stack found _ given listed
      cases stack with
      | nil =>
          cases given
          cases listed
      | cons node rest => cases given
  | succ left ih =>
      intro seen stack found reached given listed
      cases stack with
      | nil =>
          cases given
          cases listed
      | cons node rest =>
          rw [List.forall_mem_cons] at reached
          obtain ⟨-, tail⟩ | ⟨-, names, others, own, tail, same⟩ := gather_cases graph value given
          · exact ih reached.2 tail listed
          · rw [same] at listed
            obtain here | later := List.mem_append.mp listed
            · exact ⟨node, names, reached.1, own, here⟩
            · refine ih (fun other otherIn => ?_) tail later
              obtain isNext | waiting := List.mem_append.mp otherIn
              · exact .step reached.1 trivial (List.mem_reverse.mp isNext) fun empty => empty
              · exact reached.2 other waiting

omit [DecidableEq Key] in
theorem reached_known {node target : Node}
    (known : graph.key node ∈ seen)
    (reached : Reached graph.next (fun _ => True) {other | graph.key other ∈ seen}
      (node :: rest) target) :
    Reached graph.next (fun _ => True) {other | graph.key other ∈ seen} rest target := by
  induction reached with
  | start listed unseen =>
      obtain here | waiting := List.mem_cons.mp listed
      · rw [here] at unseen
        exact absurd known unseen
      · exact .start waiting unseen
  | step _ isOpen isNext unseen further => exact .step further isOpen isNext unseen

omit [DecidableEq Key] in
/-- Past one node more a walk finds the same, with the successors of the node to start at. -/
theorem reached_popped (distinct : graph.Distinct) {node target : Node}
    (inNodes : ∀ other ∈ node :: rest, other ∈ graph.nodes)
    (reached : Reached graph.next (fun _ => True) {other | graph.key other ∈ seen}
      (node :: rest) target) :
    target = node ∨ Reached graph.next (fun _ => True)
      {other | graph.key other ∈ graph.key node :: seen}
      ((graph.next node).reverse ++ rest) target := by
  have fresh : ∀ other ∈ graph.nodes, graph.key other ∉ seen → other ≠ node →
      graph.key other ∉ graph.key node :: seen := by
    intro other otherIn unseen differ known
    obtain same | earlier := List.mem_cons.mp known
    · exact differ (distinct other otherIn node (inNodes node List.mem_cons_self) same)
    · exact unseen earlier
  induction reached with
  | @start target listed unseen =>
      by_cases same : target = node
      · exact Or.inl same
      · have waiting := (List.mem_cons.mp listed).resolve_left same
        exact Or.inr (.start (List.mem_append_right _ waiting)
          (fresh target (inNodes target listed) unseen same))
  | @step middle target _ _ isNext unseen ih =>
      by_cases same : target = node
      · exact Or.inl same
      · have further := fresh target (graph.inside middle target isNext) unseen same
        obtain here | later := ih
        · rw [here] at isNext
          exact Or.inr (.start (List.mem_append_left _ (List.mem_reverse.mpr isNext)) further)
        · exact Or.inr (.step later trivial isNext further)

theorem gather_complete (distinct : graph.Distinct) {target : Node} :
    ∀ {seen : List Key} {stack : List Node} {found : List Value},
    (∀ node ∈ stack, node ∈ graph.nodes) →
    gather graph value left seen stack = some found →
    Reached graph.next (fun _ => True) {other | graph.key other ∈ seen} stack target →
      ∃ names, value target = some names ∧ names ⊆ found := by
  have nothing : ∀ {known : Set Node},
      ¬ Reached graph.next (fun _ => True) known [] target := by
    intro known reached
    have inEmpty : target ∈ (∅ : Set Node) :=
      reached.inside (fun _ listed => absurd listed List.not_mem_nil) fun _ empty => absurd empty id
    exact inEmpty
  induction left with
  | zero =>
      intro seen stack found _ given reached
      cases stack with
      | nil => exact absurd reached nothing
      | cons node rest => cases given
  | succ left ih =>
      intro seen stack found inNodes given reached
      cases stack with
      | nil => exact absurd reached nothing
      | cons node rest =>
          obtain ⟨known, tail⟩ | ⟨fresh, names, others, own, tail, same⟩ :=
            gather_cases graph value given
          · refine ih (fun other listed => inNodes other (List.mem_cons_of_mem _ listed)) tail ?_
            exact reached_known known reached
          · rw [same]
            obtain here | later := reached_popped distinct inNodes reached
            · rw [here]
              exact ⟨names, own, List.subset_append_left _ _⟩
            · have inStack : ∀ other ∈ (graph.next node).reverse ++ rest, other ∈ graph.nodes := by
                intro other listed
                obtain isNext | waiting := List.mem_append.mp listed
                · exact graph.inside node other (List.mem_reverse.mp isNext)
                · exact inNodes other (List.mem_cons_of_mem _ waiting)
              obtain ⟨given, isValue, inOthers⟩ := ih inStack tail later
              exact ⟨given, isValue, List.Subset.trans inOthers (List.subset_append_right _ _)⟩

theorem sum_filter (keep : Node → Bool) (size : Node → Nat) {nodes : List Node}
    (listed : node ∈ nodes) (dropped : keep node = false) :
    size node + ((nodes.filter keep).map size).sum ≤ (nodes.map size).sum := by
  induction nodes with
  | nil => cases listed
  | cons first rest ih =>
      have shorter : ((rest.filter keep).map size).sum ≤ (rest.map size).sum :=
        (List.filter_sublist.map size).sum_le_sum fun _ _ => Nat.zero_le _
      rw [List.filter_cons, List.map_cons, List.sum_cons]
      obtain here | later := List.mem_cons.mp listed
      · rw [← here, dropped, if_neg Bool.false_ne_true]
        omega
      · have further := ih later
        by_cases kept : keep first = true
        · rw [if_pos kept, List.map_cons, List.sum_cons]
          omega
        · rw [if_neg kept]
          omega

theorem room_pushed
    (listed : node ∈ graph.nodes) (fresh : graph.key node ∉ seen) :
    graph.room (graph.key node :: seen) ((graph.next node).reverse ++ rest) <
      graph.room seen (node :: rest) := by
  have fewer : graph.unseen (graph.key node :: seen) =
      (graph.unseen seen).filter (graph.key · ≠ graph.key node) := by
    rw [Graph.unseen, Graph.unseen, List.filter_filter]
    refine List.filter_congr fun other _ => ?_
    rw [← Bool.decide_and, decide_eq_decide, List.mem_cons, not_or]
  have before : node ∈ graph.unseen seen := List.mem_filter.mpr ⟨listed, decide_eq_true fresh⟩
  have sums := sum_filter (fun other => decide (graph.key other ≠ graph.key node))
    (fun other => (graph.next other).length) before (by simp)
  rw [Graph.room, Graph.room, fewer, List.length_append, List.length_reverse, List.length_cons]
  omega

theorem gather_bound : ∀ {seen : List Key} {stack : List Node},
    (∀ node ∈ stack, node ∈ graph.nodes) → graph.room seen stack ≤ left →
      gather graph value left seen stack = gather graph value (left + 1) seen stack := by
  induction left with
  | zero =>
      intro seen stack _ bounded
      cases stack with
      | nil => rfl
      | cons node rest =>
          rw [Graph.room, List.length_cons] at bounded
          omega
  | succ left ih =>
      intro seen stack inNodes bounded
      cases stack with
      | nil => rfl
      | cons node rest =>
          rw [List.forall_mem_cons] at inNodes
          rw [gather, gather]
          by_cases known : graph.key node ∈ seen
          · rw [if_pos known, if_pos known]
            refine ih inNodes.2 ?_
            rw [Graph.room, List.length_cons] at bounded
            rw [Graph.room]
            omega
          · rw [if_neg known, if_neg known]
            have inStack : ∀ other ∈ (graph.next node).reverse ++ rest, other ∈ graph.nodes := by
              intro other listed
              obtain isNext | waiting := List.mem_append.mp listed
              · exact graph.inside node other (List.mem_reverse.mp isNext)
              · exact inNodes.2 other waiting
            have pushed : graph.room (graph.key node :: seen) ((graph.next node).reverse ++ rest) <
                graph.room seen (node :: rest) := room_pushed inNodes.1 known
            rw [ih inStack (by omega)]

/-- With room for every pop, more changes nothing. -/
theorem gather_room {stack : List Node} (inNodes : ∀ node ∈ stack, node ∈ graph.nodes)
    (room : graph.room [] stack ≤ left) :
    gather graph value left [] stack = gather graph value (graph.room [] stack) [] stack := by
  induction left with
  | zero => rw [Nat.le_zero.mp room]
  | succ left ih =>
      by_cases last : graph.room [] stack = left + 1
      · rw [last]
      · rw [← gather_bound inNodes (by omega)]
        exact ih (by omega)

end Gather

end OdooSemantic.Lib.Search
