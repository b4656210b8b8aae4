import Mathlib.Data.List.Dedup
import Mathlib.Data.List.Sort

/-!
# Python built-ins on strings and collections

`sorted(set(xs))`, `str.startswith` and `sep.join(xs)` with the code-point order
and the list-of-characters view of a string, and computations that may raise.
-/

set_option autoImplicit false

namespace OdooSemantic.Lib.Py

/-- `sorted(set(items))`. -/
def sortedSet (items : List String) : List String :=
  items.dedup.insertionSort (· ≤ ·)

@[simp] theorem mem_sortedSet (items : List String) (item : String) :
    item ∈ sortedSet items ↔ item ∈ items := by
  rw [sortedSet, List.mem_insertionSort, List.mem_dedup]

@[simp] theorem sortedSet_eq_nil (items : List String) : sortedSet items = [] ↔ items = [] := by
  simp only [List.eq_nil_iff_forall_not_mem, mem_sortedSet]

/-- `sorted(set(items))` depends on the members only. -/
theorem sortedSet_congr {items others : List String}
    (same : ∀ item, item ∈ items ↔ item ∈ others) : sortedSet items = sortedSet others := by
  have dedup : items.dedup.Perm others.dedup :=
    (List.perm_ext_iff_of_nodup items.nodup_dedup others.nodup_dedup).mpr (by simpa using same)
  have sorted : (sortedSet items).Perm (sortedSet others) :=
    ((List.perm_insertionSort _ _).trans dedup).trans (List.perm_insertionSort _ _).symm
  exact sorted.eq_of_pairwise' (List.pairwise_insertionSort _ _) (List.pairwise_insertionSort _ _)

theorem sortedSet_nodup (items : List String) : (sortedSet items).Nodup :=
  (List.perm_insertionSort _ _).nodup_iff.mpr items.nodup_dedup

/-- The part of `sorted(set(items))` that is kept depends on the kept members only. -/
theorem sortedSet_filter_congr {items others : List String} {keep : String → Bool}
    (same : ∀ item, keep item = true → (item ∈ items ↔ item ∈ others)) :
    (sortedSet items).filter keep = (sortedSet others).filter keep := by
  have members : ∀ item, item ∈ (sortedSet items).filter keep ↔
      item ∈ (sortedSet others).filter keep := by
    intro item
    rw [List.mem_filter, List.mem_filter, mem_sortedSet, mem_sortedSet]
    exact and_congr_left (same item)
  have perm := (List.perm_ext_iff_of_nodup ((sortedSet_nodup items).filter keep)
    ((sortedSet_nodup others).filter keep)).mpr members
  exact perm.eq_of_pairwise' ((List.pairwise_insertionSort _ _).filter keep)
    ((List.pairwise_insertionSort _ _).filter keep)

theorem contains_eq_false_iff {Item : Type} [BEq Item] [LawfulBEq Item] (items : List Item)
    (item : Item) :
    items.contains item = false ↔ item ∉ items := by
  rw [← Bool.not_eq_true, List.contains_iff_mem]

/-- `text.startswith(lead)`. -/
def startsWith (text lead : String) : Bool :=
  lead.toList.isPrefixOf text.toList

theorem startsWith_append (lead rest : String) : startsWith (lead ++ rest) lead = true := by
  simp [startsWith]

/-- `text.endswith(suffixes)` of a tuple. -/
def endsWithAny (text : String) (suffixes : List String) : Bool :=
  suffixes.any fun suffix => suffix.toList.isSuffixOf text.toList

/-- `text.rpartition(sep)`, `none` when the separator is missing. -/
def rpartition (sep : Char) (text : String) : Option (String × String) :=
  let reversed := text.toList.reverse
  match reversed.dropWhile (· ≠ sep) with
  | [] => none
  | _ :: before =>
      some (String.ofList before.reverse,
        String.ofList (reversed.takeWhile (· ≠ sep)).reverse)

/-- `sep.join(parts)`. -/
def join (sep : String) (parts : List String) : String :=
  sep.intercalate parts

/-- `sep.join(parts)` of a separator of one character. -/
theorem join_toList (sep : Char) (parts : List String) :
    (join (String.singleton sep) parts).toList = [sep].intercalate (parts.map String.toList) := by
  simp [join, String.toList_intercalate]

/-- `sorted(items)`. -/
def sorted (items : List String) : List String :=
  items.insertionSort (· ≤ ·)

@[simp] theorem mem_sorted (items : List String) (item : String) :
    item ∈ sorted items ↔ item ∈ items :=
  List.mem_insertionSort _

section SortedBy
variable {Item Key : Type} [LinearOrder Key] (key : Item → Key)

/-- `sorted(items, key=key)`: stable. -/
def sortedBy (items : List Item) : List Item :=
  items.insertionSort fun first second => key first ≤ key second

local instance sortedBy_total : Std.Total fun first second : Item => key first ≤ key second :=
  ⟨fun first second => le_total (key first) (key second)⟩

local instance sortedBy_trans : IsTrans Item fun first second : Item => key first ≤ key second :=
  ⟨fun _ _ _ => le_trans⟩

theorem sortedBy_perm (items : List Item) : (sortedBy key items).Perm items :=
  List.perm_insertionSort _ _

@[simp] theorem mem_sortedBy (items : List Item) (item : Item) :
    item ∈ sortedBy key items ↔ item ∈ items :=
  (sortedBy_perm key items).mem_iff

theorem sortedBy_pairwise (items : List Item) :
    (sortedBy key items).Pairwise fun first second => key first ≤ key second :=
  List.pairwise_insertionSort _ _

end SortedBy

/-- `text or None`: the empty string counts as missing. -/
def truthy : Option String → Bool
  | none => false
  | some text => text != ""

theorem bind_eq_ok {Err Out Next : Type} (first : Except Err Out)
    (next : Out → Except Err Next) (result : Next) :
    (first >>= next) = .ok result ↔ ∃ out, first = .ok out ∧ next out = .ok result := by
  cases first with
  | error raised =>
      constructor
      · intro run
        cases run
      · rintro ⟨out, run, -⟩
        cases run
  | ok out =>
      constructor
      · intro run
        exact ⟨out, rfl, run⟩
      · rintro ⟨same, run, rest⟩
        cases run
        exact rest

theorem map_eq_ok {Err Out Next : Type} (view : Out → Next) (first : Except Err Out)
    (result : Next) :
    first.map view = .ok result ↔ ∃ out, first = .ok out ∧ view out = result := by
  cases first with
  | error raised | ok out => simp [Except.map]

theorem mapM_mem {Err In Out : Type} (f : In → Except Err Out) (inputs : List In) :
    ∀ outputs, inputs.mapM f = .ok outputs →
      (∀ input ∈ inputs, ∃ output ∈ outputs, f input = .ok output) ∧
        ∀ output ∈ outputs, ∃ input ∈ inputs, f input = .ok output := by
  induction inputs with
  | nil =>
      intro outputs run
      cases run
      simp
  | cons input rest ih =>
      intro outputs run
      rw [List.mapM_cons] at run
      obtain ⟨first, firstRun, run⟩ := (bind_eq_ok _ _ _).mp run
      obtain ⟨others, othersRun, run⟩ := (bind_eq_ok _ _ _).mp run
      cases run
      obtain ⟨forward, backward⟩ := ih others othersRun
      refine ⟨?_, ?_⟩
      · intro source member
        rcases List.mem_cons.mp member with rfl | inRest
        · exact ⟨first, List.mem_cons_self, firstRun⟩
        · obtain ⟨output, outputIn, ran⟩ := forward source inRest
          exact ⟨output, List.mem_cons_of_mem _ outputIn, ran⟩
      · intro output member
        rcases List.mem_cons.mp member with rfl | inRest
        · exact ⟨input, List.mem_cons_self, firstRun⟩
        · obtain ⟨source, sourceIn, ran⟩ := backward output inRest
          exact ⟨source, List.mem_cons_of_mem _ sourceIn, ran⟩

/-- A transaction: its result on success, the old state when it raised. -/
def commitOrRollback {Err State : Type} (state : State) : Except Err State → State
  | .ok next => next
  | .error _ => state

end OdooSemantic.Lib.Py
