import Mathlib.Data.List.Nodup
import Mathlib.Data.List.Perm.Subperm
import OdooSemantic.Lib.Breadth

/-!
# A breadth-first search

Level after level, the successors of the frontier that were not seen are found with the level's
number.  In a finite graph the levels end, and each node is found with its distance.
-/

set_option autoImplicit false

namespace OdooSemantic.Lib.Levels

open Lib.Breadth

structure Search (Node : Type) where
  found : List (Node × Nat)
  seen : List Node
  frontier : List Node

section Search
variable {Node : Type} [DecidableEq Node] (next : Node → List Node)

def visit (depth : Nat) (search : Search Node) (node : Node) : Search Node :=
  if node ∈ search.seen then search
  else ⟨search.found ++ [(node, depth)], node :: search.seen, search.frontier ++ [node]⟩

def level (depth : Nat) (search : Search Node) : Search Node :=
  (search.frontier.flatMap next).foldl (visit depth) { search with frontier := [] }

def levels : Nat → Nat → Search Node → Search Node
  | 0, _, search => search
  | left + 1, depth, search =>
      if search.frontier.isEmpty then search
      else levels left (depth + 1) (level next (depth + 1) search)

def start (node : Node) : Search Node := ⟨[], [node], [node]⟩

variable {next}

theorem visits (depth : Nat) (nodes : List Node) : ∀ search : Search Node,
    ∃ added : List Node,
      (nodes.foldl (visit depth) search).found = search.found ++ added.map (·, depth) ∧
      (nodes.foldl (visit depth) search).seen = added.reverse ++ search.seen ∧
      (nodes.foldl (visit depth) search).frontier = search.frontier ++ added ∧
      added.Nodup ∧ ∀ node, node ∈ added ↔ node ∈ nodes ∧ node ∉ search.seen := by
  induction nodes with
  | nil =>
      intro search
      refine ⟨[], (List.append_nil _).symm, rfl, (List.append_nil _).symm, List.nodup_nil, ?_⟩
      intro node
      simp only [List.not_mem_nil, false_and]
  | cons first rest ih =>
      intro search
      rw [List.foldl_cons, visit]
      by_cases known : first ∈ search.seen
      · rw [if_pos known]
        obtain ⟨added, found, seen, frontier, distinct, members⟩ := ih search
        refine ⟨added, found, seen, frontier, distinct, fun node => ?_⟩
        rw [members, List.mem_cons]
        refine and_congr_left fun fresh => ⟨Or.inr, ?_⟩
        rintro (same | later)
        · exact absurd (same ▸ known) fresh
        · exact later
      · rw [if_neg known]
        obtain ⟨added, found, seen, frontier, distinct, members⟩ :=
          ih ⟨search.found ++ [(first, depth)], first :: search.seen, search.frontier ++ [first]⟩
        refine ⟨first :: added, ?_, ?_, ?_, ?_, fun node => ?_⟩
        · rw [found, List.append_assoc, List.map_cons, List.singleton_append]
        · rw [seen, List.reverse_cons, List.append_assoc, List.singleton_append]
        · rw [frontier, List.append_assoc, List.singleton_append]
        · refine List.nodup_cons.mpr ⟨fun again => ?_, distinct⟩
          exact ((members first).mp again).2 List.mem_cons_self
        · rw [List.mem_cons, members, List.mem_cons, List.mem_cons, not_or]
          by_cases same : node = first
          · rw [same]
            exact iff_of_true (Or.inl rfl) ⟨Or.inl rfl, known⟩
          · simp only [same, false_or, not_false_eq_true, true_and]

/-- `node` is a successor of `before`. -/
def Follows (next : Node → List Node) (node before : Node) : Prop := node ∈ next before

/-- What a search knows after that many levels. -/
structure At (next : Node → List Node) (origin : Node) (depth : Nat) (search : Search Node) :
    Prop where
  seen : ∀ node, node ∈ search.seen ↔ ∃ steps ≤ depth, Hops (Follows next) {origin} steps node
  frontier : ∀ node, node ∈ search.frontier ↔ IsDistance (Follows next) {origin} depth node
  found : ∀ node steps, (node, steps) ∈ search.found ↔
    0 < steps ∧ steps ≤ depth ∧ IsDistance (Follows next) {origin} steps node
  distinct : search.seen.Nodup

variable {origin : Node} {depth : Nat} {search : Search Node}

omit [DecidableEq Node] in
theorem start_at (origin : Node) : At next origin 0 (start origin) where
  seen node := by
    rw [start, List.mem_singleton]
    constructor
    · intro same
      exact ⟨0, Nat.le_refl 0, same⟩
    · rintro ⟨steps, bound, hops⟩
      rw [Nat.le_zero.mp bound] at hops
      exact hops
  frontier node := by
    rw [isDistance_zero]
    exact List.mem_singleton
  found node steps := by
    rw [start]
    simp only [List.not_mem_nil, false_iff, not_and]
    intro positive bound
    omega
  distinct := List.nodup_singleton origin

theorem At.level (known : At next origin depth search) :
    At next origin (depth + 1) (level next (depth + 1) search) ∧
      (level next (depth + 1) search).seen.length =
        search.seen.length + (level next (depth + 1) search).frontier.length := by
  obtain ⟨added, found, seen, frontier, distinct, members⟩ :=
    visits (depth + 1) (search.frontier.flatMap next) { search with frontier := [] }
  have newly : ∀ node, node ∈ added ↔ IsDistance (Follows next) {origin} (depth + 1) node := by
    intro node
    rw [members, isDistance_succ, List.mem_flatMap]
    simp only [known.seen, known.frontier, not_exists, not_and]
    constructor
    · rintro ⟨⟨before, near, successor⟩, unmet⟩
      exact ⟨⟨before, successor, near⟩, unmet⟩
    · rintro ⟨⟨before, successor, near⟩, unmet⟩
      exact ⟨⟨before, near, successor⟩, unmet⟩
  rw [Levels.level]
  refine ⟨⟨fun node => ?_, fun node => ?_, fun node steps => ?_, ?_⟩, ?_⟩
  · rw [seen, List.mem_append, List.mem_reverse, newly]
    dsimp only
    rw [known.seen]
    constructor
    · rintro (distance | ⟨steps, bound, hops⟩)
      · exact ⟨depth + 1, Nat.le_refl _, distance.reached⟩
      · exact ⟨steps, by omega, hops⟩
    · rintro ⟨steps, bound, hops⟩
      obtain ⟨fewer, less, distance⟩ := hops.distance
      by_cases last : fewer = depth + 1
      · rw [last] at distance
        exact Or.inl distance
      · exact Or.inr ⟨fewer, by omega, distance.reached⟩
  · rw [frontier, List.nil_append, newly]
  · rw [found, List.mem_append, known.found, List.mem_map]
    constructor
    · rintro (⟨positive, bound, distance⟩ | ⟨other, isNew, same⟩)
      · exact ⟨positive, by omega, distance⟩
      · cases same
        exact ⟨by omega, Nat.le_refl _, (newly _).mp isNew⟩
    · rintro ⟨positive, bound, distance⟩
      by_cases last : steps = depth + 1
      · rw [last] at distance ⊢
        exact Or.inr ⟨node, (newly node).mpr distance, rfl⟩
      · exact Or.inl ⟨positive, by omega, distance⟩
  · rw [seen]
    refine List.Nodup.append (List.nodup_reverse.mpr distinct) known.distinct ?_
    intro node isNew old
    exact ((members node).mp (List.mem_reverse.mp isNew)).2 old
  · rw [seen, frontier, List.length_append, List.length_reverse, List.nil_append]
    exact Nat.add_comm _ _

omit [DecidableEq Node] in
theorem At.all (known : At next origin depth search) (ended : search.frontier = []) (node : Node)
    (steps : Nat) : (node, steps) ∈ search.found ↔
      0 < steps ∧ IsDistance (Follows next) {origin} steps node := by
  rw [known.found]
  refine and_congr_right fun _ => ⟨And.right, fun distance => ⟨?_, distance⟩⟩
  have none : ∀ other, ¬ IsDistance (Follows next) {origin} depth other := by
    intro other isLast
    have listed := (known.frontier other).mpr isLast
    rw [ended] at listed
    cases listed
  by_contra beyond
  obtain ⟨more, rfl⟩ := Nat.exists_eq_add_of_le (Nat.le_of_not_le beyond)
  exact IsDistance.gap none more node distance

omit [DecidableEq Node] in
theorem At.seen_length (known : At next origin depth search) (nodes : List Node)
    (inside : ∀ node, ∀ successor ∈ next node, successor ∈ nodes) :
    search.seen.length ≤ nodes.length + 1 := by
  have within : search.seen ⊆ origin :: nodes := by
    intro node listed
    obtain ⟨steps, -, hops⟩ := (known.seen node).mp listed
    cases steps with
    | zero => exact List.mem_cons.mpr (Or.inl hops)
    | succ steps =>
        obtain ⟨before, successor, -⟩ := hops
        exact List.mem_cons_of_mem _ (inside before node successor)
  exact (List.subperm_of_subset known.distinct within).length_le

theorem levels_of_empty (left depth : Nat) (ended : search.frontier = []) :
    levels next left depth search = search := by
  cases left with
  | zero => rfl
  | succ left => rw [levels, ended, List.isEmpty_nil, if_pos rfl]

theorem levels_end (nodes : List Node) (inside : ∀ node, ∀ successor ∈ next node, successor ∈ nodes)
    (left : Nat) (known : At next origin depth search)
    (enough : nodes.length + 2 ≤ left + search.seen.length) :
    ∃ last, At next origin last (levels next left depth search) ∧
      (levels next left depth search).frontier = [] := by
  induction left generalizing depth search with
  | zero =>
      have bound := known.seen_length nodes inside
      omega
  | succ left ih =>
      by_cases ended : search.frontier = []
      · rw [levels_of_empty _ _ ended]
        exact ⟨depth, known, ended⟩
      · rw [levels, if_neg (mt List.isEmpty_iff.mp ended)]
        obtain ⟨nextKnown, grows⟩ := known.level
        by_cases last : (level next (depth + 1) search).frontier = []
        · rw [levels_of_empty _ _ last]
          exact ⟨depth + 1, nextKnown, last⟩
        · have some := List.length_pos_iff.mpr last
          exact ih nextKnown (by omega)

/-- A search of a finite graph finds the nodes it can reach with their distances. -/
theorem levels_found (nodes : List Node)
    (inside : ∀ node, ∀ successor ∈ next node, successor ∈ nodes) (origin node : Node)
    (steps : Nat) : (node, steps) ∈ (levels next (nodes.length + 1) 0 (start origin)).found ↔
      0 < steps ∧ IsDistance (Follows next) {origin} steps node := by
  obtain ⟨last, known, ended⟩ := levels_end nodes inside (nodes.length + 1) (start_at origin)
    (Nat.le_refl _)
  exact known.all ended node steps

end Search

end OdooSemantic.Lib.Levels
