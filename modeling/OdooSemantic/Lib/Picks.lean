import Mathlib.Data.List.TakeWhile
import OdooSemantic.Lib.Py

/-!
# The first row of each group

A query sorts its rows by a key and keeps the first of each group.  Rows with equal keys come in
the order in which they were found, which nothing promises: an arrival is any such order.
-/

set_option autoImplicit false

namespace OdooSemantic.Lib.Picks

open Lib.Py

structure Arrival (Row : Type) where
  order : List Row → List Row
  perm : ∀ rows, (order rows).Perm rows

namespace Arrival
variable {Row : Type}

def asGiven : Arrival Row := ⟨id, fun _ => List.Perm.refl _⟩

/-- The row at `place` is found first. -/
def fronted (place : Nat) : Arrival Row :=
  ⟨fun rows => rows.drop place ++ rows.take place, fun rows =>
    List.perm_append_comm.trans (List.Perm.of_eq (List.take_append_drop place rows))⟩

@[simp] theorem mem_order (arrival : Arrival Row) (rows : List Row) (row : Row) :
    row ∈ arrival.order rows ↔ row ∈ rows :=
  (arrival.perm rows).mem_iff

end Arrival

section Ordered
variable {Row Key : Type} [LinearOrder Key] (key : Row → Key)

/-- `ORDER BY key`. -/
def ordered (arrival : Arrival Row) (rows : List Row) : List Row :=
  sortedBy key (arrival.order rows)

@[simp] theorem mem_ordered (arrival : Arrival Row) (rows : List Row) (row : Row) :
    row ∈ ordered key arrival rows ↔ row ∈ rows := by
  rw [ordered, mem_sortedBy, Arrival.mem_order]

def Least (passes : Row → Bool) (rows : List Row) (row : Row) : Prop :=
  row ∈ rows ∧ passes row = true ∧ ∀ other ∈ rows, passes other = true → key row ≤ key other

variable {key}
variable {passes : Row → Bool} {rows : List Row} {row : Row}

theorem find_least {listed : List Row}
    (sorted : listed.Pairwise fun first second => key first ≤ key second)
    (found : listed.find? passes = some row) : Least key passes listed row := by
  refine ⟨List.mem_of_find?_eq_some found, List.find?_some found, ?_⟩
  obtain ⟨-, before, after, rfl, skipped⟩ := List.find?_eq_some_iff_append.mp found
  intro other isRow passed
  have parts := List.pairwise_append.mp sorted
  obtain early | here := List.mem_append.mp isRow
  · have failed := skipped other early
    rw [passed] at failed
    cases failed
  · obtain same | late := List.mem_cons.mp here
    · rw [same]
    · exact (List.pairwise_cons.mp parts.2.1).1 other late

theorem least_of_find {arrival : Arrival Row}
    (found : (ordered key arrival rows).find? passes = some row) : Least key passes rows row := by
  obtain ⟨isRow, passed, least⟩ := find_least (sortedBy_pairwise key _) found
  refine ⟨(mem_ordered key arrival rows row).mp isRow, passed, fun other isOther => ?_⟩
  exact least other ((mem_ordered key arrival rows other).mpr isOther)

theorem find_none_iff (arrival : Arrival Row) :
    (ordered key arrival rows).find? passes = none ↔ ∀ row ∈ rows, passes row = false := by
  rw [List.find?_eq_none]
  simp only [mem_ordered, Bool.not_eq_true]

theorem find_some_of (key : Row → Key) (arrival : Arrival Row) (isRow : row ∈ rows)
    (passed : passes row = true) :
    ∃ first, (ordered key arrival rows).find? passes = some first := by
  cases found : (ordered key arrival rows).find? passes with
  | some first => exact ⟨first, rfl⟩
  | none =>
      have failed := (find_none_iff arrival).mp found row isRow
      rw [passed] at failed
      cases failed

theorem find_of_front {rest : List Row} (passed : passes row = true)
    (least : ∀ other ∈ rest, passes other = true → key row ≤ key other) :
    (sortedBy key (row :: rest)).find? passes = some row := by
  have placed : sortedBy key (row :: rest) =
      (sortedBy key rest).takeWhile (fun other => ¬ key row ≤ key other) ++
        row :: (sortedBy key rest).dropWhile (fun other => ¬ key row ≤ key other) :=
    List.orderedInsert_eq_take_drop _ _ _
  rw [placed, List.find?_append]
  have skipped : ((sortedBy key rest).takeWhile fun other => ¬ key row ≤ key other).find? passes =
      none := by
    rw [List.find?_eq_none]
    intro other isEarly passedOther
    have smaller := List.mem_takeWhile_imp isEarly
    have listed : other ∈ rest :=
      (mem_sortedBy key rest other).mp ((List.takeWhile_prefix _).subset isEarly)
    rw [decide_eq_true_eq] at smaller
    exact smaller (least other listed passedOther)
  rw [skipped, Option.none_or, List.find?_cons_of_pos passed]

theorem find_iff_least :
    (∃ arrival, (ordered key arrival rows).find? passes = some row) ↔ Least key passes rows row := by
  constructor
  · rintro ⟨arrival, found⟩
    exact least_of_find found
  · rintro ⟨isRow, passed, least⟩
    obtain ⟨before, after, rfl⟩ := List.append_of_mem isRow
    refine ⟨Arrival.fronted before.length, ?_⟩
    have moved : (Arrival.fronted before.length).order (before ++ row :: after) =
        row :: (after ++ before) := by
      simp only [Arrival.fronted, List.drop_left, List.take_left, List.cons_append]
    rw [ordered, moved]
    refine find_of_front passed fun other isOther passedOther => least other ?_ passedOther
    rw [List.mem_append, List.mem_cons]
    rcases List.mem_append.mp isOther with late | early
    · exact Or.inr (Or.inr late)
    · exact Or.inl early

end Ordered

section Leads
variable {Row Key View : Type} [LinearOrder Key] (key : Row → Key) (view : Row → View)

def Leads (passes : Row → Bool) (rows : List Row) (shown : View) : Prop :=
  ∃ row ∈ rows, passes row = true ∧ view row = shown ∧
    ∀ other ∈ rows, passes other = true → view other ≠ shown → key row < key other

variable {key view}
variable {passes : Row → Bool} {rows : List Row} {shown : View}

theorem Leads.find (leads : Leads key view passes rows shown) (arrival : Arrival Row) :
    ((ordered key arrival rows).find? passes).map view = some shown := by
  obtain ⟨row, isRow, passed, viewed, before⟩ := leads
  obtain ⟨first, found⟩ := find_some_of key arrival isRow passed
  obtain ⟨isFirst, passedFirst, least⟩ := least_of_find found
  rw [found, Option.map_some, Option.some_inj]
  by_contra other
  exact absurd (least row isRow passed) (not_le.mpr (before first isFirst passedFirst other))

theorem leads_iff :
    (∀ arrival, ((ordered key arrival rows).find? passes).map view = some shown) ↔
      Leads key view passes rows shown := by
  constructor
  · intro always
    obtain ⟨row, found, viewed⟩ := Option.map_eq_some_iff.mp (always Arrival.asGiven)
    obtain ⟨isRow, passed, least⟩ := least_of_find found
    refine ⟨row, isRow, passed, viewed, fun other isOther passedOther differs => ?_⟩
    refine lt_of_le_of_ne (least other isOther passedOther) fun same => differs ?_
    have alsoLeast : Least key passes rows other :=
      ⟨isOther, passedOther, fun third isThird passedThird =>
        same ▸ least third isThird passedThird⟩
    obtain ⟨arrival, foundOther⟩ := find_iff_least.mpr alsoLeast
    have viewedOther := always arrival
    rw [foundOther, Option.map_some, Option.some_inj] at viewedOther
    exact viewedOther
  · intro leads arrival
    exact leads.find arrival

end Leads

section Heads
variable {Row Group : Type} [DecidableEq Group] (group : Row → Group)

/-- `WITH group, head(collect(row))`. -/
def heads : List Row → List Row
  | [] => []
  | row :: rest => row :: (heads rest).filter fun other => group other ≠ group row

variable {group}

theorem mem_heads (rows : List Row) (row : Row) :
    row ∈ heads group rows ↔ rows.find? (fun other => group other = group row) = some row := by
  induction rows with
  | nil => simp only [heads, List.not_mem_nil, List.find?_nil, reduceCtorEq]
  | cons first rest ih =>
      by_cases same : group first = group row
      · rw [List.find?_cons_of_pos (by rw [decide_eq_true_eq]; exact same), Option.some_inj, heads,
          List.mem_cons]
        constructor
        · rintro (isFirst | later)
          · exact isFirst.symm
          · have apart := (List.mem_filter.mp later).2
            rw [decide_eq_true_eq] at apart
            exact absurd same.symm apart
        · intro isFirst
          exact Or.inl isFirst.symm
      · rw [List.find?_cons_of_neg (by rw [decide_eq_true_eq]; exact same), ← ih, heads,
          List.mem_cons, List.mem_filter, decide_eq_true_eq]
        constructor
        · rintro (isFirst | ⟨later, -⟩)
          · exact absurd (congrArg group isFirst).symm same
          · exact later
        · intro later
          exact Or.inr ⟨later, fun back => same back.symm⟩

theorem heads_nodup (rows : List Row) : ((heads group rows).map group).Nodup := by
  induction rows with
  | nil => exact List.nodup_nil
  | cons first rest ih =>
      rw [heads, List.map_cons, List.nodup_cons]
      constructor
      · rintro listed
        obtain ⟨other, kept, same⟩ := List.mem_map.mp listed
        have apart := (List.mem_filter.mp kept).2
        rw [decide_eq_true_eq] at apart
        exact apart same
      · exact ih.sublist (List.filter_sublist.map group)

theorem heads_sublist (rows : List Row) : (heads group rows).Sublist rows := by
  induction rows with
  | nil => exact List.Sublist.refl _
  | cons first rest ih => exact (List.filter_sublist.trans ih).cons_cons first

theorem group_mem_heads (rows : List Row) (value : Group) :
    value ∈ (heads group rows).map group ↔ value ∈ rows.map group := by
  constructor
  · intro listed
    exact ((heads_sublist rows).map group).subset listed
  · intro listed
    obtain ⟨row, isRow, rfl⟩ := List.mem_map.mp listed
    cases found : rows.find? (fun other => group other = group row) with
    | none =>
        have failed := List.find?_eq_none.mp found row isRow
        rw [decide_eq_true_eq] at failed
        exact absurd rfl failed
    | some first =>
        have same := List.find?_some found
        rw [decide_eq_true_eq] at same
        have isHead : first ∈ heads group rows := by
          rw [mem_heads, same]
          exact found
        exact List.mem_map.mpr ⟨first, isHead, same⟩

end Heads

end OdooSemantic.Lib.Picks
