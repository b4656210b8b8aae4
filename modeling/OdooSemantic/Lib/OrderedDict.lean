import Mathlib.Data.List.Induction
import Mathlib.Data.List.Pairwise
import Mathlib.Data.List.Nodup

/-!
# Ordered dictionaries

A dictionary that remembers the order of its writes is the list of its items, oldest write
first.  Reading by key, dropping by key and writing at the end are all it offers, and a bound
on its size drops the oldest writes.
-/

set_option autoImplicit false

namespace OdooSemantic.Lib.OrderedDict

section Dict
variable {Key Value : Type}

def KeysDistinct (dict : List (Key × Value)) : Prop := (dict.map Prod.fst).Nodup

/-- The oldest writes go while there are more than `cap` items. -/
def keepLast (cap : Nat) (dict : List (Key × Value)) : List (Key × Value) :=
  dict.drop (dict.length - cap)

theorem keepLast_suffix (cap : Nat) (dict : List (Key × Value)) : keepLast cap dict <:+ dict :=
  List.drop_suffix ..

theorem keepLast_length_le (cap : Nat) (dict : List (Key × Value)) :
    (keepLast cap dict).length ≤ cap := by
  rw [keepLast, List.length_drop]
  omega

variable {dict : List (Key × Value)} {key : Key} {value : Value}

theorem keepLast_distinct (cap : Nat) (distinct : KeysDistinct dict) :
    KeysDistinct (keepLast cap dict) :=
  distinct.sublist ((keepLast_suffix cap dict).sublist.map Prod.fst)

theorem keepLast_append (cap : Nat) (earlier later : List (Key × Value)) :
    keepLast cap (earlier ++ later) = keepLast (cap - later.length) earlier ++
      keepLast cap later := by
  have first : (earlier ++ later).length - cap = earlier.length - (cap - later.length) ∨
      earlier.length ≤ (earlier ++ later).length - cap ∧ cap ≤ later.length := by
    rw [List.length_append]
    omega
  have second : (earlier ++ later).length - cap - earlier.length = later.length - cap := by
    rw [List.length_append]
    omega
  rw [keepLast, keepLast, keepLast, List.drop_append, second]
  congr 1
  obtain same | ⟨all, full⟩ := first
  · rw [same]
  · rw [List.drop_of_length_le all, List.drop_of_length_le (by omega)]

/-- No item that is kept comes before one that is not. -/
def ExpiresInOrder (keep : Key × Value → Bool) (dict : List (Key × Value)) : Prop :=
  dict.Pairwise fun first second => keep first = true → keep second = true

theorem expiresInOrder_split {keep : Key × Value → Bool}
    (ordered : ExpiresInOrder keep dict) :
    ∃ gone, dict = gone ++ dict.filter keep ∧ gone.filter keep = [] := by
  induction dict with
  | nil => exact ⟨[], rfl, rfl⟩
  | cons first rest ih =>
      obtain ⟨firstOrdered, restOrdered⟩ := List.pairwise_cons.mp ordered
      cases keeps : keep first with
      | true =>
          have all : (first :: rest).filter keep = first :: rest := by
            refine List.filter_eq_self.mpr fun item listed => ?_
            obtain same | later := List.mem_cons.mp listed
            · rw [same, keeps]
            · exact firstOrdered item later keeps
          exact ⟨[], by rw [all, List.nil_append], rfl⟩
      | false =>
          obtain ⟨gone, split, none⟩ := ih restOrdered
          refine ⟨first :: gone, ?_, ?_⟩
          · rw [List.filter_cons, if_neg (by rw [keeps]; exact Bool.false_ne_true),
              List.cons_append, ← split]
          · rw [List.filter_cons, if_neg (by rw [keeps]; exact Bool.false_ne_true), none]

theorem keepLast_filter {keep : Key × Value → Bool} (cap : Nat)
    (ordered : ExpiresInOrder keep dict) :
    (keepLast cap dict).filter keep = keepLast cap (dict.filter keep) := by
  obtain ⟨gone, split, none⟩ := expiresInOrder_split ordered
  have goneLeft : ∀ count, (keepLast count gone).filter keep = [] := by
    intro count
    refine List.filter_eq_nil_iff.mpr fun item listed => ?_
    exact List.filter_eq_nil_iff.mp none item ((keepLast_suffix count gone).mem listed)
  have keptLeft : (keepLast cap (dict.filter keep)).filter keep =
      keepLast cap (dict.filter keep) := by
    refine List.filter_eq_self.mpr fun item listed => ?_
    exact (List.mem_filter.mp ((keepLast_suffix cap _).mem listed)).2
  calc (keepLast cap dict).filter keep
      = (keepLast cap (gone ++ dict.filter keep)).filter keep := by rw [← split]
    _ = keepLast cap (dict.filter keep) := by
        rw [keepLast_append, List.filter_append, goneLeft, keptLeft, List.nil_append]

variable [DecidableEq Key]

def pop (dict : List (Key × Value)) (key : Key) : List (Key × Value) :=
  dict.filter fun item => item.1 ≠ key

def put (dict : List (Key × Value)) (key : Key) (value : Value) : List (Key × Value) :=
  pop dict key ++ [(key, value)]

theorem lookup_cons_if (item : Key × Value) (rest : List (Key × Value)) (key : Key) :
    (item :: rest).lookup key = if key = item.1 then some item.2 else rest.lookup key := by
  by_cases same : key = item.1
  · rw [if_pos same, same]
    exact List.lookup_cons_self
  · rw [if_neg same, List.lookup_cons, (beq_eq_false_iff_ne).mpr same]

theorem lookup_mem
    (found : dict.lookup key = some value) : (key, value) ∈ dict := by
  obtain ⟨earlier, later, split, -⟩ := List.lookup_eq_some_iff.mp found
  rw [split]
  exact List.mem_append_right earlier List.mem_cons_self

theorem lookup_of_mem
    (distinct : KeysDistinct dict) (listed : (key, value) ∈ dict) :
    dict.lookup key = some value := by
  induction dict with
  | nil => cases listed
  | cons first rest ih =>
      obtain ⟨fresh, others⟩ := List.nodup_cons.mp distinct
      obtain same | later := List.mem_cons.mp listed
      · rw [← same]
        exact List.lookup_cons_self
      · have other : first.1 ≠ key := by
          intro same
          rw [same] at fresh
          exact fresh (List.mem_map_of_mem (f := Prod.fst) later)
        rw [lookup_cons_if, if_neg other.symm]
        exact ih others later

theorem lookup_filter (keep : Key × Value → Bool) (key : Key)
    (distinct : KeysDistinct dict) :
    (dict.filter keep).lookup key = (dict.lookup key).filter fun value => keep (key, value) := by
  have distinctKept : KeysDistinct (dict.filter keep) :=
    distinct.sublist (List.filter_sublist.map Prod.fst)
  cases found : dict.lookup key with
  | none =>
      have absent : ∀ value, (key, value) ∉ dict := by
        intro value listed
        rw [lookup_of_mem distinct listed] at found
        cases found
      cases kept : (dict.filter keep).lookup key with
      | none => rfl
      | some value => exact absurd (List.mem_of_mem_filter (lookup_mem kept)) (absent value)
  | some value =>
      have listed := lookup_mem found
      cases keeps : keep (key, value) with
      | true =>
          rw [lookup_of_mem distinctKept (List.mem_filter.mpr ⟨listed, keeps⟩),
            Option.filter_some, if_pos keeps]
      | false =>
          rw [Option.filter_some, if_neg (by rw [keeps]; exact Bool.false_ne_true)]
          cases kept : (dict.filter keep).lookup key with
          | none => rfl
          | some other =>
              obtain ⟨otherListed, otherKept⟩ := List.mem_filter.mp (lookup_mem kept)
              rw [lookup_of_mem distinct otherListed] at found
              cases found
              rw [keeps] at otherKept
              cases otherKept

/-- Fewer items answer the same or nothing. -/
theorem lookup_sublist {fewer dict : List (Key × Value)} (sublist : fewer.Sublist dict)
    (distinct : KeysDistinct dict) (key : Key) :
    fewer.lookup key = none ∨ fewer.lookup key = dict.lookup key := by
  cases found : fewer.lookup key with
  | none => exact .inl rfl
  | some value =>
      exact .inr (lookup_of_mem distinct (sublist.subset (lookup_mem found))).symm

theorem pop_distinct (key : Key) (distinct : KeysDistinct dict) :
    KeysDistinct (pop dict key) :=
  distinct.sublist (List.filter_sublist.map Prod.fst)

theorem lookup_pop (dict : List (Key × Value)) (key other : Key) :
    (pop dict key).lookup other = if other = key then none else dict.lookup other := by
  induction dict with
  | nil => simp [pop]
  | cons item rest ih =>
      simp only [pop, List.filter_cons] at ih ⊢
      by_cases same : item.1 = key
      · rw [if_neg (by simpa using same), ih, lookup_cons_if, same]
        by_cases asked : other = key
        · rw [if_pos asked, if_pos asked]
        · rw [if_neg asked, if_neg asked, if_neg asked]
      · rw [if_pos (by simpa using same), lookup_cons_if, lookup_cons_if, ih]
        by_cases asked : other = key
        · rw [if_pos asked, if_pos asked, asked, if_neg (Ne.symm same)]
        · rw [if_neg asked, if_neg asked]

theorem pop_of_absent (absent : dict.lookup key = none) :
    pop dict key = dict := by
  refine List.filter_eq_self.mpr fun item listed => ?_
  have other := List.lookup_eq_none_iff.mp absent item listed
  rw [bne_iff_ne] at other
  exact decide_eq_true other.symm

theorem pop_filter (keep : Key × Value → Bool) (dict : List (Key × Value)) (key : Key) :
    (pop dict key).filter keep = pop (dict.filter keep) key := by
  simp only [pop, List.filter_filter, Bool.and_comm]

theorem put_distinct (key : Key) (value : Value)
    (distinct : KeysDistinct dict) : KeysDistinct (put dict key value) := by
  have kept : KeysDistinct (pop dict key) := pop_distinct key distinct
  simp only [KeysDistinct, put, List.map_append, List.map_cons, List.map_nil]
  refine List.Nodup.append kept (List.nodup_singleton key) ?_
  intro other listed same
  obtain ⟨item, itemListed, itemKey⟩ := List.mem_map.mp listed
  have distinctKey := (List.mem_filter.mp itemListed).2
  rw [List.mem_singleton.mp same] at itemKey
  simp [itemKey] at distinctKey

theorem lookup_put (dict : List (Key × Value)) (key other : Key) (value : Value) :
    (put dict key value).lookup other =
      if other = key then some value else dict.lookup other := by
  rw [put, List.lookup_append, lookup_pop, lookup_cons_if, List.lookup_nil]
  by_cases same : other = key
  · rw [if_pos same, if_pos same, if_pos same, Option.none_or]
  · rw [if_neg same, if_neg same, if_neg same, Option.or_none]

theorem lookup_keepLast_put {cap : Nat} (room : 0 < cap) (dict : List (Key × Value)) (key : Key)
    (value : Value) (distinct : KeysDistinct dict) :
    (keepLast cap (put dict key value)).lookup key = some value := by
  refine lookup_of_mem (keepLast_distinct cap (put_distinct key value distinct)) ?_
  rw [put, keepLast_append, List.length_singleton]
  refine List.mem_append_right _ ?_
  rw [keepLast, List.length_singleton, Nat.sub_eq_zero_of_le room]
  exact List.mem_singleton_self _

/-- `dict[key] = value`: a key that is there keeps its place. -/
def assign : List (Key × Value) → Key → Value → List (Key × Value)
  | [], key, value => [(key, value)]
  | item :: rest, key, value =>
      if item.1 = key then (key, value) :: rest else item :: assign rest key value

theorem lookup_assign (dict : List (Key × Value)) (key other : Key) (value : Value) :
    (assign dict key value).lookup other =
      if other = key then some value else dict.lookup other := by
  induction dict with
  | nil => rw [assign, lookup_cons_if]
  | cons item rest ih =>
      rw [assign]
      by_cases same : item.1 = key
      · rw [if_pos same, lookup_cons_if, lookup_cons_if, same]
        by_cases asked : other = key
        · rw [if_pos asked, if_pos asked]
        · rw [if_neg asked, if_neg asked, if_neg asked]
      · rw [if_neg same, lookup_cons_if, lookup_cons_if, ih]
        by_cases asked : other = item.1
        · rw [if_pos asked, if_pos asked, asked, if_neg same]
        · rw [if_neg asked, if_neg asked]

theorem mem_assign {item : Key × Value}
    (listed : item ∈ assign dict key value) : item = (key, value) ∨ item ∈ dict := by
  induction dict with
  | nil => exact .inl (List.mem_singleton.mp listed)
  | cons first rest ih =>
      rw [assign] at listed
      split at listed
      · obtain new | old := List.mem_cons.mp listed
        · exact .inl new
        · exact .inr (List.mem_cons_of_mem _ old)
      · obtain old | further := List.mem_cons.mp listed
        · exact .inr (by rw [old]; exact List.mem_cons_self)
        · exact (ih further).imp_right (List.mem_cons_of_mem _)

theorem assign_distinct (key : Key) (value : Value)
    (distinct : KeysDistinct dict) : KeysDistinct (assign dict key value) := by
  induction dict with
  | nil => exact List.nodup_singleton key
  | cons first rest ih =>
      obtain ⟨fresh, others⟩ := List.nodup_cons.mp distinct
      rw [assign]
      by_cases same : first.1 = key
      · rw [if_pos same]
        exact List.nodup_cons.mpr ⟨by rwa [← same], others⟩
      · rw [if_neg same]
        refine List.nodup_cons.mpr ⟨fun listed => ?_, ih others⟩
        obtain ⟨item, itemListed, itemKey⟩ := List.mem_map.mp listed
        obtain new | old := mem_assign itemListed
        · rw [new] at itemKey
          exact same itemKey.symm
        · exact fresh (by rw [← itemKey]; exact List.mem_map_of_mem old)

theorem assign_append (absent : dict.lookup key = none)
    (later : List (Key × Value)) (value : Value) :
    assign (dict ++ later) key value = dict ++ assign later key value := by
  induction dict with
  | nil => rfl
  | cons first rest ih =>
      rw [lookup_cons_if] at absent
      by_cases same : key = first.1
      · rw [if_pos same] at absent
        cases absent
      · rw [if_neg same] at absent
        rw [List.cons_append, assign, if_neg (Ne.symm same), ih absent, List.cons_append]

/-- A new key goes to the end. -/
theorem assign_of_absent (value : Value)
    (absent : dict.lookup key = none) : assign dict key value = put dict key value := by
  have last := assign_append absent [] value
  rw [List.append_nil] at last
  rw [last, put, pop_of_absent absent, assign]

/-- `dict.move_to_end(key)`. -/
def moveToEnd (dict : List (Key × Value)) (key : Key) : List (Key × Value) :=
  match dict.lookup key with
  | none => dict
  | some value => put dict key value

theorem moveToEnd_of_found
    (found : dict.lookup key = some value) : moveToEnd dict key = put dict key value := by
  rw [moveToEnd, found]

theorem assign_moved {old : Value} (value : Value)
    (found : dict.lookup key = some old) :
    assign (moveToEnd dict key) key value = put dict key value := by
  have absent : (pop dict key).lookup key = none := by rw [lookup_pop, if_pos rfl]
  rw [moveToEnd_of_found found, put, assign_append absent, assign, if_pos rfl, put]

section Indexed
variable (keyOf : Value → Key)

def index (values : List Value) : List (Key × Value) :=
  values.foldl (fun dict value => assign dict (keyOf value) value) []

theorem index_snoc (values : List Value) (value : Value) :
    index keyOf (values ++ [value]) = assign (index keyOf values) (keyOf value) value := by
  rw [index, List.foldl_append]
  rfl

theorem index_distinct (values : List Value) : KeysDistinct (index keyOf values) := by
  induction values using List.reverseRecOn with
  | nil => exact List.nodup_nil
  | append_singleton values value ih =>
      rw [index_snoc]
      exact assign_distinct _ _ ih

theorem lookup_index (values : List Value) (key : Key) :
    (index keyOf values).lookup key = values.reverse.find? fun value => keyOf value = key := by
  induction values using List.reverseRecOn with
  | nil => rfl
  | append_singleton values value ih =>
      rw [index_snoc, lookup_assign, List.reverse_append, List.reverse_singleton,
        List.singleton_append, List.find?_cons, ih]
      by_cases same : key = keyOf value
      · rw [if_pos same, decide_eq_true same.symm]
      · rw [if_neg same, decide_eq_false (Ne.symm same)]

variable {keyOf}

theorem mem_index {values : List Value} {value : Value} :
    value ∈ (index keyOf values).map Prod.snd ↔
      (index keyOf values).lookup (keyOf value) = some value := by
  constructor
  · intro listed
    obtain ⟨⟨key, kept⟩, itemListed, same⟩ := List.mem_map.mp listed
    have found := lookup_of_mem (index_distinct keyOf values) itemListed
    have last := (lookup_index keyOf values key).symm.trans found
    have isKey := List.find?_some last
    have keyed : keyOf kept = key := of_decide_eq_true isKey
    dsimp only at same
    rw [← same, keyed]
    exact found
  · intro found
    exact List.mem_map_of_mem (lookup_mem found)

theorem index_keeps_iff {Part : Type} {part : Value → Part} {values : List Value} :
    (∀ value ∈ values, ∃ kept ∈ (index keyOf values).map Prod.snd,
      keyOf kept = keyOf value ∧ part kept = part value) ↔
        ∀ value ∈ values, ∀ other ∈ values, keyOf value = keyOf other → part value = part other := by
  constructor
  · intro keeps value listed other otherListed same
    obtain ⟨kept, keptIn, keptKey, keptPart⟩ := keeps value listed
    obtain ⟨again, againIn, againKey, againPart⟩ := keeps other otherListed
    have first := mem_index.mp keptIn
    have second := mem_index.mp againIn
    rw [keptKey, same] at first
    rw [againKey, first] at second
    cases second
    rw [← keptPart, againPart]
  · intro agree value listed
    cases found : (index keyOf values).lookup (keyOf value) with
    | none =>
        rw [lookup_index, List.find?_eq_none] at found
        have missed := found value (List.mem_reverse.mpr listed)
        exact absurd (decide_eq_true rfl) missed
    | some kept =>
        have last := (lookup_index keyOf values (keyOf value)).symm.trans found
        have isKey := List.find?_some last
        have keyed : keyOf kept = keyOf value := of_decide_eq_true isKey
        have keptIn := List.mem_reverse.mp (List.mem_of_find?_eq_some last)
        refine ⟨kept, mem_index.mpr (by rw [keyed]; exact found), keyed, ?_⟩
        exact agree kept keptIn value listed keyed

end Indexed

end Dict

end OdooSemantic.Lib.OrderedDict
