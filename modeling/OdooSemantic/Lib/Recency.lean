import Mathlib.Data.Set.Card
import OdooSemantic.Lib.OrderedDict

/-!
# Least recently used keys

A map whose keys carry the number of their last use drops the key with the least one.  An
ordered dictionary that moves a key to its end on each use follows it without any numbers.
-/

set_option autoImplicit false

namespace OdooSemantic.Lib.Recency

open Lib.OrderedDict

/-- A map where each key carries the number of its last use. -/
structure Used (Key Value : Type) where
  slots : Key → Option (Value × Nat)
  uses : Nat

section Maps
variable {Key Value : Type}

def unused : Used Key Value := ⟨fun _ => none, 0⟩

def Used.read (used : Used Key Value) (key : Key) : Option Value :=
  (used.slots key).map Prod.fst

def Used.usedAt (used : Used Key Value) (key : Key) : Nat :=
  ((used.slots key).map Prod.snd).getD 0

def Used.live (used : Used Key Value) : Set Key := fun key => used.read key ≠ none

/-- No other key's last use is as long ago. -/
def Used.Least (used : Used Key Value) (key : Key) : Prop :=
  key ∈ used.live ∧ ∀ other ∈ used.live, used.usedAt key ≤ used.usedAt other

variable [DecidableEq Key]

def Used.use (used : Used Key Value) (key : Key) (value : Value) : Used Key Value :=
  ⟨Function.update used.slots key (some (value, used.uses)), used.uses + 1⟩

def Used.drop (used : Used Key Value) (key : Key) : Used Key Value :=
  ⟨Function.update used.slots key none, used.uses⟩

open Classical in
/-- With more than `cap` keys the least recently used one goes. -/
noncomputable def Used.evict (used : Used Key Value) (cap : Nat) : Used Key Value :=
  if crowded : cap < used.live.ncard ∧ ∃ key, used.Least key then
    used.drop crowded.2.choose
  else used

variable {used : Used Key Value} {key other : Key} {value : Value}

theorem slots_use : (used.use key value).slots other =
    if other = key then some (value, used.uses) else used.slots other :=
  Function.update_apply used.slots key _ other

theorem slots_drop : (used.drop key).slots other =
    if other = key then none else used.slots other :=
  Function.update_apply used.slots key none other

theorem read_use : (used.use key value).read other =
    if other = key then some value else used.read other := by
  rw [Used.read, slots_use]
  by_cases same : other = key
  · rw [if_pos same, if_pos same]
    rfl
  · rw [if_neg same, if_neg same]
    rfl

theorem read_drop : (used.drop key).read other =
    if other = key then none else used.read other := by
  rw [Used.read, slots_drop]
  by_cases same : other = key
  · rw [if_pos same, if_pos same]
    rfl
  · rw [if_neg same, if_neg same]
    rfl

theorem usedAt_use_self : (used.use key value).usedAt key = used.uses := by
  rw [Used.usedAt, slots_use, if_pos rfl]
  rfl

theorem usedAt_use_of_ne (differs : other ≠ key) :
    (used.use key value).usedAt other = used.usedAt other := by
  rw [Used.usedAt, slots_use, if_neg differs]
  rfl

theorem usedAt_drop_of_ne (differs : other ≠ key) :
    (used.drop key).usedAt other = used.usedAt other := by
  rw [Used.usedAt, slots_drop, if_neg differs]
  rfl

end Maps

structure Follows {Key Value : Type} [DecidableEq Key] (dict : List (Key × Value))
    (used : Used Key Value) : Prop where
  distinct : KeysDistinct dict
  reads : ∀ key, dict.lookup key = used.read key
  ordered : dict.Pairwise fun first second => used.usedAt first.1 < used.usedAt second.1
  past : ∀ item ∈ dict, used.usedAt item.1 < used.uses

section Dictionaries
variable {Key Value : Type} [DecidableEq Key] {dict : List (Key × Value)}
  {used : Used Key Value} {key : Key} {value : Value}

theorem Follows.unused : Follows ([] : List (Key × Value)) unused where
  distinct := List.nodup_nil
  reads _ := rfl
  ordered := List.Pairwise.nil
  past _ := nofun

theorem Follows.drop (follows : Follows dict used) (key : Key) :
    Follows (pop dict key) (used.drop key) where
  distinct := pop_distinct key follows.distinct
  reads other := by rw [lookup_pop, read_drop, follows.reads]
  ordered := by
    refine List.Pairwise.imp_of_mem ?_ (follows.ordered.filter _)
    intro first second firstLeft secondLeft before
    have firstOther := of_decide_eq_true (List.mem_filter.mp firstLeft).2
    have secondOther := of_decide_eq_true (List.mem_filter.mp secondLeft).2
    rwa [usedAt_drop_of_ne firstOther, usedAt_drop_of_ne secondOther]
  past item listed := by
    obtain ⟨inDict, isOther⟩ := List.mem_filter.mp listed
    rw [usedAt_drop_of_ne (of_decide_eq_true isOther)]
    exact follows.past item inDict

theorem Follows.use (follows : Follows dict used) (key : Key) (value : Value) :
    Follows (put dict key value) (used.use key value) := by
  have others : ∀ item ∈ pop dict key, (used.use key value).usedAt item.1 = used.usedAt item.1 :=
    fun item listed => usedAt_use_of_ne (of_decide_eq_true (List.mem_filter.mp listed).2)
  have before : ∀ item ∈ pop dict key, used.usedAt item.1 < used.uses :=
    fun item listed => follows.past item (List.mem_filter.mp listed).1
  constructor
  · exact put_distinct key value follows.distinct
  · intro other
    rw [lookup_put, read_use, follows.reads]
  · refine List.pairwise_append.mpr ⟨?_, List.pairwise_singleton _ _, ?_⟩
    · refine List.Pairwise.imp_of_mem ?_ (follows.ordered.filter _)
      intro first second firstLeft secondLeft less
      rwa [others first firstLeft, others second secondLeft]
    · intro item listed last isLast
      rw [List.mem_singleton.mp isLast, others item listed, usedAt_use_self]
      exact before item listed
  · intro item listed
    obtain old | new := List.mem_append.mp listed
    · rw [others item old]
      exact Nat.lt_succ_of_lt (before item old)
    · rw [List.mem_singleton.mp new, usedAt_use_self]
      exact Nat.lt_succ_self _

theorem Follows.mem_live (follows : Follows dict used) :
    key ∈ used.live ↔ key ∈ dict.map Prod.fst := by
  have isLive : key ∈ used.live ↔ dict.lookup key ≠ none := by
    rw [follows.reads]
    exact Iff.rfl
  rw [isLive]
  constructor
  · intro found
    obtain ⟨value, read⟩ := Option.ne_none_iff_exists'.mp found
    exact List.mem_map_of_mem (lookup_mem read)
  · intro listed
    obtain ⟨item, inDict, same⟩ := List.mem_map.mp listed
    rw [← same, lookup_of_mem follows.distinct inDict]
    exact Option.some_ne_none _

theorem Follows.size (follows : Follows dict used) : used.live.ncard = dict.length := by
  have same : used.live = ((dict.map Prod.fst).toFinset : Set Key) := by
    ext key
    rw [follows.mem_live, Finset.mem_coe, List.mem_toFinset]
  rw [same, Set.ncard_coe_finset, List.toFinset_card_of_nodup follows.distinct, List.length_map]

theorem Follows.least_iff {first : Key × Value} {rest : List (Key × Value)}
    (follows : Follows (first :: rest) used) : used.Least key ↔ key = first.1 := by
  have after : ∀ item ∈ rest, used.usedAt first.1 < used.usedAt item.1 :=
    (List.pairwise_cons.mp follows.ordered).1
  have firstLive : first.1 ∈ used.live := follows.mem_live.mpr List.mem_cons_self
  constructor
  · intro least
    obtain same | later := List.mem_cons.mp (follows.mem_live.mp least.1)
    · exact same
    · obtain ⟨item, listed, same⟩ := List.mem_map.mp later
      have notAfter := least.2 first.1 firstLive
      rw [← same] at notAfter
      exact absurd (after item listed) (not_lt.mpr notAfter)
  · intro same
    rw [same]
    refine ⟨firstLive, fun other live => ?_⟩
    obtain isFirst | later := List.mem_cons.mp (follows.mem_live.mp live)
    · rw [isFirst]
    · obtain ⟨item, listed, itemKey⟩ := List.mem_map.mp later
      rw [← itemKey]
      exact (after item listed).le

theorem pop_first {first : Key × Value} {rest : List (Key × Value)}
    (distinct : KeysDistinct (first :: rest)) : pop (first :: rest) first.1 = rest := by
  obtain ⟨fresh, -⟩ := List.nodup_cons.mp distinct
  have absent : rest.lookup first.1 = none := by
    refine List.lookup_eq_none_iff.mpr fun item listed => ?_
    refine bne_iff_ne.mpr fun same => fresh ?_
    rw [same]
    exact List.mem_map_of_mem listed
  rw [pop, List.filter_cons, if_neg (by simp)]
  exact pop_of_absent absent

theorem Follows.evict (follows : Follows dict used) {cap : Nat}
    (bound : dict.length ≤ cap + 1) : Follows (keepLast cap dict) (used.evict cap) := by
  by_cases crowded : cap < dict.length
  · cases dict with
    | nil => exact absurd crowded (Nat.not_lt_zero cap)
    | cons first rest =>
        have exists_ : cap < used.live.ncard ∧ ∃ key, used.Least key :=
          ⟨by rw [follows.size]; exact crowded, first.1, follows.least_iff.mpr rfl⟩
        have chosen : exists_.2.choose = first.1 := follows.least_iff.mp exists_.2.choose_spec
        have one : (first :: rest).length - cap = 1 := by omega
        have left : keepLast cap (first :: rest) = pop (first :: rest) first.1 := by
          rw [pop_first follows.distinct, keepLast, one, List.drop_one, List.tail_cons]
        rw [Used.evict, dif_pos exists_, chosen, left]
        exact follows.drop first.1
  · have all : keepLast cap dict = dict := by
      rw [keepLast, Nat.sub_eq_zero_of_le (not_lt.mp crowded), List.drop_zero]
    rw [all, Used.evict, dif_neg (fun both => crowded (by rw [← follows.size]; exact both.1))]
    exact follows

theorem Follows.lost (follows : Follows dict used) {cap : Nat} (bound : dict.length ≤ cap + 1)
    (live : dict.lookup key ≠ none) (lost : (keepLast cap dict).lookup key = none) :
    used.Least key := by
  by_cases crowded : cap < dict.length
  · cases dict with
    | nil => exact absurd crowded (Nat.not_lt_zero cap)
    | cons first rest =>
        have one : (first :: rest).length - cap = 1 := by omega
        rw [keepLast, one, List.drop_one, List.tail_cons] at lost
        refine follows.least_iff.mpr ?_
        by_contra differs
        rw [lookup_cons_if, if_neg differs] at live
        exact live lost
  · rw [keepLast, Nat.sub_eq_zero_of_le (not_lt.mp crowded), List.drop_zero] at lost
    exact absurd lost live

end Dictionaries

end OdooSemantic.Lib.Recency
