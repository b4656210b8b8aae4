import Mathlib.Data.List.Induction
import OdooSemantic.Lib.Forest

/-!
# Walks up that carry their path

A recursive query over parent links whose rows carry the path to them: a row whose node is on
its path already, or that is as deep as the limit with a parent to go to, is cut and not
followed.  So the walk ends whatever the links are, and only its last row can repeat a node.
-/

set_option autoImplicit false

namespace OdooSemantic.Lib.BoundedWalk

open Lib.Forest

/-- A row of the query. -/
structure Visit (Node Key : Type) where
  node : Node
  depth : Nat
  path : List Key
  cut : Bool

structure Links (Node Key : Type) where
  parent : Node → Option Node
  key : Node → Key
  more : Node → Bool
  tells : ∀ node above, parent node = some above → more node = true

def firsts {Value : Type} [DecidableEq Value] (values : List Value) : List Value :=
  values.foldl (fun kept value => if value ∈ kept then kept else kept ++ [value]) []

section Firsts
variable {Value : Type} [DecidableEq Value] {values : List Value} {value : Value}

theorem firsts_snoc (values : List Value) (value : Value) :
    firsts (values ++ [value]) =
      if value ∈ firsts values then firsts values else firsts values ++ [value] := by
  rw [firsts, List.foldl_append]
  rfl

theorem firsts_nodup (values : List Value) : (firsts values).Nodup := by
  induction values using List.reverseRecOn with
  | nil => exact List.nodup_nil
  | append_singleton values value ih =>
      rw [firsts_snoc]
      split
      · exact ih
      · rename_i new
        refine List.Nodup.append ih (List.nodup_singleton value) ?_
        intro other listed same
        rw [List.mem_singleton.mp same] at listed
        exact new listed

theorem firsts_of_nodup (distinct : values.Nodup) : firsts values = values := by
  induction values using List.reverseRecOn with
  | nil => rfl
  | append_singleton values value ih =>
      obtain ⟨earlier, -, apart⟩ := List.nodup_append.mp distinct
      have new : value ∉ values := fun listed =>
        apart value listed value (List.mem_singleton_self value) rfl
      rw [firsts_snoc, ih earlier, if_neg new]

theorem firsts_repeat (distinct : values.Nodup) (listed : value ∈ values) :
    firsts (values ++ [value]) = values := by
  rw [firsts_snoc, firsts_of_nodup distinct, if_pos listed]

end Firsts

section Climbs
variable {Node : Type} {parent : Node → Option Node} {node other : Node}

theorem walkUp_get {fuel : Nat} {nodes : List Node}
    (walked : walkUp parent fuel node = some nodes) (steps : Nat) :
    nodes[steps]? = climb parent steps node := by
  induction fuel generalizing node nodes steps with
  | zero => cases walked
  | succ fuel ih =>
      rw [walkUp] at walked
      cases link : parent node with
      | none =>
          rw [link] at walked
          cases walked
          cases steps with
          | zero => rfl
          | succ steps => rw [climb, link]; rfl
      | some above =>
          rw [link] at walked
          obtain ⟨rest, restWalked, rfl⟩ := Option.map_eq_some_iff.mp walked
          cases steps with
          | zero => rfl
          | succ steps =>
              rw [List.getElem?_cons_succ, climb, link, ih restWalked]
              rfl

theorem climb_before {first second : Nat} (order : first ≤ second)
    (ends : climb parent first node = none) : climb parent second node = none := by
  obtain ⟨more, rfl⟩ := Nat.exists_eq_add_of_le order
  rw [climb_add, ends]
  rfl

theorem climb_back {period : Nat} (back : climb parent (period + 1) node = some node)
    (steps : Nat) : climb parent steps node ≠ none := by
  induction steps using Nat.strongRecOn with
  | ind steps ih =>
      intro ends
      obtain below | above := Nat.lt_or_ge steps (period + 1)
      · rw [climb_before (Nat.le_of_lt below) ends] at back
        cases back
      · obtain ⟨more, rfl⟩ := Nat.exists_eq_add_of_le above
        rw [climb_add, back, Option.bind_some] at ends
        exact ih more (by omega) ends

theorem climb_repeat {first second : Nat} (order : first < second)
    (early : climb parent first node = some other) (late : climb parent second node = some other)
    (steps : Nat) : climb parent steps node ≠ none := by
  obtain ⟨period, rfl⟩ := Nat.exists_eq_add_of_lt order
  rw [Nat.add_assoc, climb_add, early, Option.bind_some] at late
  intro ends
  have endsLater := climb_before (Nat.le_add_left steps first) ends
  rw [climb_add, early, Option.bind_some] at endsLater
  exact climb_back late steps endsLater

theorem walkDown_singleton {next : Node → List Node}
    (single : ∀ node, next node = (parent node).toList) (fuel : Nat) (node : Node) :
    walkDown next fuel [node] = walkUp parent fuel node := by
  induction fuel generalizing node with
  | zero => rfl
  | succ fuel ih =>
      rw [walkDown, if_neg (List.cons_ne_nil _ _), walkUp, List.flatMap_singleton, single]
      cases parent node with
      | none => cases fuel <;> rfl
      | some above =>
          rw [Option.toList_some, ih]
          rfl

end Climbs

section Visits
variable {Node Key : Type} [DecidableEq Key] (links : Links Node Key) (limit : Nat)

def Links.first (links : Links Node Key) (node : Node) : Visit Node Key :=
  ⟨node, 0, [links.key node], false⟩

/-- The row above a row, unless the row is cut. -/
def Links.up (visit : Visit Node Key) : Option (Visit Node Key) :=
  if visit.cut then none
  else (links.parent visit.node).map fun above =>
    { node := above
      depth := visit.depth + 1
      path := visit.path ++ [links.key above]
      cut := decide (links.key above ∈ visit.path) ||
        (decide (limit ≤ visit.depth + 1) && links.more above) }

variable {links limit} {node : Node} {visit next : Visit Node Key} {steps : Nat}

theorem up_eq_some : links.up limit visit = some next ↔ visit.cut = false ∧
    ∃ above, links.parent visit.node = some above ∧
      next = ⟨above, visit.depth + 1, visit.path ++ [links.key above],
        decide (links.key above ∈ visit.path) ||
          (decide (limit ≤ visit.depth + 1) && links.more above)⟩ := by
  unfold Links.up
  cases visit.cut with
  | true => exact ⟨nofun, nofun⟩
  | false =>
      rw [if_neg Bool.false_ne_true, Option.map_eq_some_iff]
      constructor
      · intro ⟨above, link, same⟩
        exact ⟨rfl, above, link, same.symm⟩
      · intro ⟨_, above, link, same⟩
        exact ⟨above, link, same.symm⟩

theorem climb_succ_last (parent : Node → Option Node) (steps : Nat) (node : Node) :
    climb parent (steps + 1) node = (climb parent steps node).bind parent := by
  rw [climb_add]
  congr 1
  funext above
  rw [climb]
  cases parent above <;> rfl

structure Reached (links : Links Node Key) (node : Node) (steps : Nat)
    (visit : Visit Node Key) : Prop where
  climbs : climb links.parent steps node = some visit.node
  depth : visit.depth = steps
  length : visit.path.length = steps + 1
  path : ∀ index ≤ steps, visit.path[index]? = (climb links.parent index node).map links.key

theorem reached_of_climb (climbs : climb (links.up limit) steps (links.first node) = some visit) :
    Reached links node steps visit := by
  induction steps generalizing visit with
  | zero =>
      cases climbs
      refine ⟨rfl, rfl, rfl, fun index bound => ?_⟩
      rw [Nat.le_zero.mp bound]
      rfl
  | succ steps ih =>
      rw [climb_succ_last] at climbs
      obtain ⟨before, climbed, isNext⟩ := Option.bind_eq_some_iff.mp climbs
      obtain ⟨-, above, link, rfl⟩ := up_eq_some.mp isNext
      have reached := ih climbed
      have higher : climb links.parent (steps + 1) node = some above := by
        rw [climb_succ_last, reached.climbs, Option.bind_some, link]
      refine ⟨higher, by rw [reached.depth], ?_, fun index bound => ?_⟩
      · rw [List.length_append, reached.length, List.length_singleton]
      · obtain same | below := Nat.eq_or_lt_of_le bound
        · rw [same, higher, List.getElem?_append_right (Nat.le_of_eq reached.length),
            reached.length, Nat.sub_self]
          rfl
        · rw [List.getElem?_append_left (by rw [reached.length]; exact below)]
          exact reached.path index (Nat.le_of_lt_succ below)

theorem path_nodup (climbs : climb (links.up limit) steps (links.first node) = some visit)
    (uncut : visit.cut = false) : visit.path.Nodup := by
  induction steps generalizing visit with
  | zero =>
      cases climbs
      exact List.nodup_singleton _
  | succ steps ih =>
      rw [climb_succ_last] at climbs
      obtain ⟨before, climbed, isNext⟩ := Option.bind_eq_some_iff.mp climbs
      obtain ⟨beforeUncut, above, -, rfl⟩ := up_eq_some.mp isNext
      obtain ⟨new, -⟩ := Bool.or_eq_false_iff.mp uncut
      have absent : links.key above ∉ before.path := of_decide_eq_false new
      refine List.Nodup.append (ih climbed beforeUncut) (List.nodup_singleton _) ?_
      intro key listed same
      rw [List.mem_singleton.mp same] at listed
      exact absent listed

/-- The walk goes no deeper than the limit. -/
theorem depth_le (climbs : climb (links.up limit) steps (links.first node) = some visit) :
    steps ≤ limit + 1 := by
  by_contra deeper
  obtain ⟨before, rfl⟩ : ∃ before, steps = before + 2 :=
    Nat.exists_eq_add_of_le' (by omega)
  rw [climb_succ_last] at climbs
  obtain ⟨middle, climbed, isNext⟩ := Option.bind_eq_some_iff.mp climbs
  obtain ⟨uncut, above, link, -⟩ := up_eq_some.mp isNext
  rw [climb_succ_last] at climbed
  obtain ⟨low, lowClimbed, isMiddle⟩ := Option.bind_eq_some_iff.mp climbed
  obtain ⟨-, node, -, rfl⟩ := up_eq_some.mp isMiddle
  obtain ⟨-, goesOn⟩ := Bool.or_eq_false_iff.mp uncut
  have lowDepth := (reached_of_climb lowClimbed).depth
  have deep : decide (limit ≤ low.depth + 1) = true := decide_eq_true (by omega)
  rw [deep, links.tells node above link] at goesOn
  cases goesOn

theorem walk_ends (links : Links Node Key) (node : Node) {limit fuel : Nat}
    (enough : limit + 2 ≤ fuel) :
    ∃ visits, walkUp (links.up limit) fuel (links.first node) = some visits := by
  refine Option.isSome_iff_exists.mp (walkUp_isSome.mpr ?_)
  cases climbed : climb (links.up limit) fuel (links.first node) with
  | none => rfl
  | some visit =>
      have bound := depth_le climbed
      omega

section Rows
variable {visits : List (Visit Node Key)} {fuel : Nat}

theorem row_reached (walked : walkUp (links.up limit) fuel (links.first node) = some visits)
    {index : Nat} (listed : visits[index]? = some visit) : Reached links node index visit := by
  rw [walkUp_get walked] at listed
  exact reached_of_climb listed

theorem row_path (walked : walkUp (links.up limit) fuel (links.first node) = some visits)
    {index : Nat} (listed : visits[index]? = some visit) :
    visit.path = (visits.take (index + 1)).map fun row => links.key row.node := by
  have reached := row_reached walked listed
  have inRange : index < visits.length := List.getElem?_eq_some_iff.mp listed |>.1
  refine List.ext_getElem? fun position => ?_
  rw [List.getElem?_map]
  obtain below | above := Nat.lt_or_ge position (index + 1)
  · have present : position < visits.length := by omega
    have isRow : visits[position]? = some (visits.get ⟨position, present⟩) :=
      List.getElem?_eq_getElem present
    rw [reached.path position (Nat.le_of_lt_succ below), List.getElem?_take_of_lt below, isRow,
      (row_reached walked isRow).climbs]
    rfl
  · rw [List.getElem?_eq_none (by rw [reached.length]; exact above),
      List.getElem?_eq_none (by rw [List.length_take]; omega)]
    rfl

theorem front_nodup {front : List (Visit Node Key)} {last : Visit Node Key}
    (walked : walkUp (links.up limit) fuel (links.first node) = some (front ++ [last])) :
    (front.map fun row => links.key row.node).Nodup := by
  obtain rfl | ⟨front, before, rfl⟩ := List.eq_nil_or_concat' front
  · exact List.nodup_nil
  · have isBefore : (front ++ [before] ++ [last])[front.length]? = some before := by
      rw [List.append_assoc, List.getElem?_append_right (Nat.le_refl _), Nat.sub_self]
      rfl
    have isLast : (front ++ [before] ++ [last])[front.length + 1]? = some last := by
      rw [List.append_assoc, List.getElem?_append_right (by omega), Nat.add_sub_cancel_left]
      rfl
    have climbed := isBefore
    rw [walkUp_get walked] at climbed
    rw [walkUp_get walked, climb_succ_last, climbed, Option.bind_some] at isLast
    have distinct := path_nodup climbed (up_eq_some.mp isLast).1
    rw [row_path walked isBefore] at distinct
    have rows : (front ++ [before] ++ [last]).take (front.length + 1) = front ++ [before] := by
      have size : (front ++ [before]).length = front.length + 1 := List.length_append
      rw [List.take_append_of_le_length (Nat.le_of_eq size.symm),
        List.take_of_length_le (Nat.le_of_eq size)]
    rwa [rows] at distinct

def TellsApart {Value : Type} (links : Links Node Key) (node : Node) (value : Node → Value) : Prop :=
  ∀ first second low high, climb links.parent first node = some low →
    climb links.parent second node = some high → value low = value high → low = high

variable {Value : Type} {label : Node → Value}

theorem nodes_tell {value : Node → Value} (apart : TellsApart links node value)
    (walked : walkUp (links.up limit) fuel (links.first node) = some visits)
    {first second : Visit Node Key} (firstIn : first ∈ visits) (secondIn : second ∈ visits)
    (same : value first.node = value second.node) : first.node = second.node := by
  obtain ⟨low, lowAt⟩ := List.mem_iff_getElem?.mp firstIn
  obtain ⟨high, highAt⟩ := List.mem_iff_getElem?.mp secondIn
  exact apart low high _ _ (row_reached walked lowAt).climbs (row_reached walked highAt).climbs same

variable [DecidableEq Value]

theorem firsts_rows (keyed : TellsApart links node links.key) (labelled : TellsApart links node label)
    (walked : walkUp (links.up limit) fuel (links.first node) = some visits) :
    ∃ kept, kept ≠ [] ∧ kept <+: visits ∧
      firsts (visits.map fun row => label row.node) = kept.map fun row => label row.node := by
  have labels : ∀ rows : List (Visit Node Key), (∀ row ∈ rows, row ∈ visits) →
      (rows.map fun row => links.key row.node).Nodup →
      (rows.map fun row => label row.node).Nodup := by
    intro rows inside distinct
    refine List.pairwise_map.mpr ?_
    refine List.Pairwise.imp_of_mem ?_ (List.pairwise_map.mp distinct)
    intro first second firstIn secondIn differ same
    rw [nodes_tell labelled walked (inside first firstIn) (inside second secondIn) same] at differ
    exact differ rfl
  obtain rfl | ⟨front, last, rfl⟩ := List.eq_nil_or_concat' visits
  · have none := walkUp_get walked 0
    cases none
  · have distinct := front_nodup walked
    by_cases again : links.key last.node ∈ front.map fun row => links.key row.node
    · obtain ⟨row, inFront, same⟩ := List.mem_map.mp again
      have repeated : label last.node ∈ front.map fun row => label row.node := by
        rw [← nodes_tell keyed walked (List.mem_append_left _ inFront)
          (List.mem_append_right _ (List.mem_singleton_self last)) same]
        exact List.mem_map_of_mem inFront
      refine ⟨front, List.ne_nil_of_mem inFront, List.prefix_append _ _, ?_⟩
      rw [List.map_append, List.map_singleton]
      refine firsts_repeat (labels front ?_ distinct) repeated
      exact fun row listed => List.mem_append_left _ listed
    · refine ⟨front ++ [last], List.append_ne_nil_of_right_ne_nil _ (List.cons_ne_nil _ _),
        List.prefix_rfl, ?_⟩
      refine firsts_of_nodup (labels (front ++ [last]) (fun row listed => listed) ?_)
      rw [List.map_append, List.map_singleton]
      refine List.Nodup.append distinct (List.nodup_singleton _) ?_
      intro key listed isLast
      rw [List.mem_singleton.mp isLast] at listed
      exact again listed

variable {chain : List Node} {enough : Nat}

theorem climb_rows (keyed : TellsApart links node links.key)
    (ends : walkUp links.parent enough node = some chain) (short : chain.length ≤ limit + 1)
    {steps : Nat} {above : Node} (climbs : climb links.parent steps node = some above) :
    ∃ visit, climb (links.up limit) steps (links.first node) = some visit ∧
      visit.node = above := by
  have stops : climb links.parent chain.length node = none := by
    rw [← walkUp_get ends, List.getElem?_eq_none (Nat.le_refl _)]
  induction steps generalizing above with
  | zero =>
      cases climbs
      exact ⟨links.first node, rfl, rfl⟩
  | succ steps ih =>
      have inChain : chain[steps + 1]? = some above := by rw [walkUp_get ends, climbs]
      have inRange : steps + 1 < chain.length := (List.getElem?_eq_some_iff.mp inChain).1
      rw [climb_succ_last] at climbs
      obtain ⟨below, belowClimbs, link⟩ := Option.bind_eq_some_iff.mp climbs
      obtain ⟨visit, visited, rfl⟩ := ih belowClimbs
      have uncut : visit.cut = false := by
        cases steps with
        | zero =>
            cases visited
            rfl
        | succ steps =>
            have isRow := visited
            rw [climb_succ_last] at visited
            obtain ⟨before, beforeVisited, isNext⟩ := Option.bind_eq_some_iff.mp visited
            have reached := reached_of_climb beforeVisited
            obtain ⟨-, high, -, rfl⟩ := up_eq_some.mp isNext
            refine Bool.or_eq_false_iff.mpr ⟨decide_eq_false fun again => ?_, ?_⟩
            · -- the node would come again, but the chain ends
              obtain ⟨index, atIndex⟩ := List.mem_iff_getElem?.mp again
              have early : index < steps + 1 := by
                have bound := (List.getElem?_eq_some_iff.mp atIndex).1
                rwa [reached.length] at bound
              rw [reached.path index (Nat.le_of_lt_succ early)] at atIndex
              obtain ⟨low, lowClimbs, sameKey⟩ := Option.map_eq_some_iff.mp atIndex
              have same := keyed index (steps + 1) low high lowClimbs belowClimbs sameKey
              rw [same] at lowClimbs
              exact climb_repeat early lowClimbs belowClimbs chain.length stops
            · rw [reached.depth, decide_eq_false (by omega), Bool.false_and]
      obtain ⟨next, isNext⟩ : ∃ next, links.up limit visit = some next :=
        ⟨_, up_eq_some.mpr ⟨uncut, above, link, rfl⟩⟩
      refine ⟨next, by rw [climb_succ_last, visited, Option.bind_some, isNext], ?_⟩
      obtain ⟨-, high, highLink, rfl⟩ := up_eq_some.mp isNext
      rw [link] at highLink
      cases highLink
      rfl

theorem rows_chain (keyed : TellsApart links node links.key)
    (walked : walkUp (links.up limit) fuel (links.first node) = some visits)
    (ends : walkUp links.parent enough node = some chain) (short : chain.length ≤ limit + 1) :
    visits.map Visit.node = chain := by
  refine List.ext_getElem? fun index => ?_
  rw [List.getElem?_map, walkUp_get walked, walkUp_get ends]
  cases climbs : climb links.parent index node with
  | some above =>
      obtain ⟨visit, visited, same⟩ := climb_rows keyed ends short climbs
      rw [visited, Option.map_some, same]
  | none =>
      cases visited : climb (links.up limit) index (links.first node) with
      | none => rfl
      | some visit =>
          rw [(reached_of_climb visited).climbs] at climbs
          cases climbs

omit [DecidableEq Key] [DecidableEq Value] in
theorem chain_nodup (labelled : TellsApart links node label)
    (ends : walkUp links.parent enough node = some chain) : (chain.map label).Nodup := by
  rw [List.nodup_iff_getElem?_ne_getElem?]
  intro first second order inRange same
  rw [List.length_map] at inRange
  have stops : climb links.parent chain.length node = none := by
    rw [← walkUp_get ends, List.getElem?_eq_none (Nat.le_refl _)]
  rw [List.getElem?_map, List.getElem?_map, walkUp_get ends, walkUp_get ends] at same
  cases late : climb links.parent second node with
  | none =>
      rw [← walkUp_get ends, List.getElem?_eq_none_iff] at late
      omega
  | some high =>
      rw [late, Option.map_some] at same
      obtain ⟨low, early, sameLabel⟩ := Option.map_eq_some_iff.mp same
      rw [labelled first second low high early late sameLabel] at early
      exact climb_repeat order early late chain.length stops

end Rows

end Visits

end OdooSemantic.Lib.BoundedWalk
