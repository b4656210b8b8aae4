import Mathlib.Data.List.Nodup
import Mathlib.Data.List.Range

/-!
# Tables with a serial key

A table is the list of its rows together with the next value of its serial
key.  `updateWhere` is `UPDATE … WHERE`, `upsert` is a multi-row
`INSERT … ON CONFLICT DO UPDATE` whose values do not conflict with one another.

`Evolves` says once what a statement can do: every row stays in place and is
rewritten in a way `kept` allows, and the inserted rows carry the next serial
values.  The row invariants and the identity of a row over time follow from it.
-/

set_option autoImplicit false

namespace OdooSemantic.Lib

structure Table (Row : Type) where
  rows : List Row
  nextId : Nat

namespace Table

section Statements
variable {Row Value : Type}

def empty : Table Row := ⟨[], 0⟩

def updateWhere (guard : Row → Bool) (set : Row → Row) (table : Table Row) : Table Row :=
  { table with rows := table.rows.map fun row => if guard row then set row else row }

/-- `INSERT` of one row under the next serial value. -/
def insert (make : Nat → Row) (table : Table Row) : Table Row :=
  { rows := table.rows ++ [make table.nextId], nextId := table.nextId + 1 }

def unmatched (conflict : Value → Row → Bool) (values : List Value)
    (rows : List Row) : List Value :=
  values.filter fun value => !rows.any (conflict value)

/-- The `DO UPDATE` of the value a row conflicts with, if there is one. -/
def conflictUpdate (conflict : Value → Row → Bool) (update : Value → Row → Row)
    (values : List Value) (row : Row) : Row :=
  match values.find? fun value => conflict value row with
  | some value => update value row
  | none => row

def upsert (conflict : Value → Row → Bool) (update : Value → Row → Row)
    (insert : Nat → Value → Row) (values : List Value) (table : Table Row) : Table Row :=
  { rows :=
      table.rows.map (conflictUpdate conflict update values) ++
      ((unmatched conflict values table.rows).zipIdx table.nextId).map
        fun (value, id) => insert id value
    nextId := table.nextId + (unmatched conflict values table.rows).length }

@[simp] theorem insert_rows (make : Nat → Row) (table : Table Row) :
    (insert make table).rows = table.rows ++ [make table.nextId] := rfl

theorem mem_updateWhere {guard : Row → Bool} {set : Row → Row} {table : Table Row} {new : Row} :
    new ∈ (updateWhere guard set table).rows ↔
      ∃ old ∈ table.rows, (if guard old then set old else old) = new := by
  simp [updateWhere]

theorem upsert_nil (conflict : Value → Row → Bool) (update : Value → Row → Row)
    (insert : Nat → Value → Row) (table : Table Row) :
    table = upsert conflict update insert [] table := by
  have same : table.rows.map (conflictUpdate conflict update []) = table.rows :=
    List.map_id _
  simp [upsert, unmatched, same]

end Statements

section Evolution
variable {Row Value : Type} (id : Row → Nat)

/-- The serial key identifies a row and has only been given out below `nextId`. -/
structure Keyed (table : Table Row) : Prop where
  nodup : (table.rows.map id).Nodup
  bounded : ∀ row ∈ table.rows, id row < table.nextId

structure Evolution (kept : Row → Row → Prop) (fresh : Row → Prop)
    (before after : Table Row) where
  rewrite : Row → Row
  inserted : List Row
  rows_eq : after.rows = before.rows.map rewrite ++ inserted
  same_id : ∀ row ∈ before.rows, id (rewrite row) = id row
  keeps : ∀ row ∈ before.rows, kept row (rewrite row)
  serial : inserted.map id = List.range' before.nextId inserted.length
  is_fresh : ∀ row ∈ inserted, fresh row
  nextId_eq : after.nextId = before.nextId + inserted.length

def Evolves (kept : Row → Row → Prop) (fresh : Row → Prop)
    (before after : Table Row) : Prop :=
  Nonempty (Evolution id kept fresh before after)

variable {id} {kept : Row → Row → Prop} {fresh : Row → Prop} {before after : Table Row}

theorem keyed_empty : Keyed id (empty : Table Row) :=
  ⟨List.nodup_nil, fun _ member => absurd member List.not_mem_nil⟩

theorem Keyed.eq_of_id {table : Table Row} (keyed : Keyed id table) {first second : Row}
    (firstIn : first ∈ table.rows) (secondIn : second ∈ table.rows)
    (same : id first = id second) : first = second :=
  List.inj_on_of_nodup_map keyed.nodup firstIn secondIn same

theorem Keyed.find? {table : Table Row} (keyed : Keyed id table) {row : Row}
    (member : row ∈ table.rows) :
    table.rows.find? (fun other => id other == id row) = some row := by
  cases found : table.rows.find? (fun other => id other == id row) with
  | none => simpa using List.find?_eq_none.mp found row member
  | some other =>
      have same : id other = id row := by simpa using List.find?_some found
      rw [keyed.eq_of_id (List.mem_of_find?_eq_some found) member same]

theorem Keyed.insert {table : Table Row} (keyed : Keyed id table) {make : Nat → Row}
    (given_id : ∀ serial, id (make serial) = serial) : Keyed id (insert make table) := by
  refine ⟨?_, ?_⟩
  · rw [insert_rows, List.map_append, List.nodup_append']
    refine ⟨keyed.nodup, List.nodup_singleton _, ?_⟩
    intro key oldKey newKey
    obtain ⟨row, member, rfl⟩ := List.mem_map.mp oldKey
    have below := keyed.bounded row member
    have given := given_id table.nextId
    simp only [List.map_cons, List.map_nil, List.mem_singleton] at newKey
    omega
  · intro row member
    rcases List.mem_append.mp member with old | new
    · have below := keyed.bounded row old
      simp only [Table.insert]
      omega
    · rw [List.mem_singleton.mp new, given_id]
      simp only [Table.insert]
      omega

theorem Keyed.updateWhere {table : Table Row} (keyed : Keyed id table) {guard : Row → Bool}
    {set : Row → Row} (same_id : ∀ row, id (set row) = id row) :
    Keyed id (updateWhere guard set table) := by
  have keeps : ∀ row, id (if guard row then set row else row) = id row := by
    intro row
    cases test : guard row with
    | true => simpa using same_id row
    | false => simp
  refine ⟨?_, ?_⟩
  · have same : (Table.updateWhere guard set table).rows.map id = table.rows.map id := by
      rw [Table.updateWhere, List.map_map]
      exact List.map_congr_left fun row _ => keeps row
    rw [same]
    exact keyed.nodup
  · intro row member
    obtain ⟨old, oldIn, rfl⟩ := mem_updateWhere.mp member
    rw [keeps old]
    exact keyed.bounded old oldIn

theorem Evolves.refl (table : Table Row) (keptRefl : ∀ row ∈ table.rows, kept row row) :
    Evolves id kept fresh table table :=
  ⟨{ rewrite := fun row => row
     inserted := []
     rows_eq := by simp
     same_id := fun _ _ => rfl
     keeps := keptRefl
     serial := rfl
     is_fresh := fun _ member => absurd member List.not_mem_nil
     nextId_eq := rfl }⟩

theorem Evolves.trans_update {kept' kept'' : Row → Row → Prop} {fresh' : Row → Prop}
    {final : Table Row}
    (first : Evolves id kept fresh before after)
    (rewrite : Row → Row) (rows_eq : final.rows = after.rows.map rewrite)
    (nextId_eq : final.nextId = after.nextId)
    (same_id : ∀ row ∈ after.rows, id (rewrite row) = id row)
    (keeps : ∀ row ∈ after.rows, kept' row (rewrite row))
    (compose : ∀ old middle new, kept old middle → kept' middle new → kept'' old new)
    (freshen : ∀ middle new, fresh middle → kept' middle new → fresh' new) :
    Evolves id kept'' fresh' before final := by
  obtain ⟨step⟩ := first
  have oldIn : ∀ row ∈ before.rows, step.rewrite row ∈ after.rows := by
    intro row member
    rw [step.rows_eq]
    exact List.mem_append_left _ (List.mem_map_of_mem member)
  have newIn : ∀ row ∈ step.inserted, row ∈ after.rows := by
    intro row member
    rw [step.rows_eq]
    exact List.mem_append_right _ member
  refine ⟨{ rewrite := rewrite ∘ step.rewrite
            inserted := step.inserted.map rewrite
            rows_eq := ?_, same_id := ?_, keeps := ?_, serial := ?_
            is_fresh := ?_, nextId_eq := ?_ }⟩
  · rw [rows_eq, step.rows_eq, List.map_append, List.map_map]
  · intro row member
    exact (same_id _ (oldIn row member)).trans (step.same_id row member)
  · intro row member
    exact compose _ _ _ (step.keeps row member) (keeps _ (oldIn row member))
  · rw [List.map_map, List.length_map, ← step.serial]
    exact List.map_congr_left fun row member => same_id row (newIn row member)
  · intro row member
    obtain ⟨middle, middleIn, rfl⟩ := List.mem_map.mp member
    exact freshen _ _ (step.is_fresh middle middleIn) (keeps middle (newIn middle middleIn))
  · rw [nextId_eq, step.nextId_eq, List.length_map]

theorem updateWhere_evolves (table : Table Row) (guard : Row → Bool) (set : Row → Row)
    (same_id : ∀ row, id (set row) = id row)
    (updated : ∀ row ∈ table.rows, guard row = true → kept row (set row))
    (untouched : ∀ row ∈ table.rows, guard row = false → kept row row) :
    Evolves id kept fresh table (updateWhere guard set table) := by
  refine ⟨{ rewrite := fun row => if guard row then set row else row
            inserted := []
            rows_eq := by simp [updateWhere]
            same_id := ?_, keeps := ?_
            serial := rfl
            is_fresh := fun _ member => absurd member List.not_mem_nil
            nextId_eq := rfl }⟩
  · intro row _
    cases test : guard row with
    | true => simpa using same_id row
    | false => simp
  · intro row member
    cases test : guard row with
    | true => simpa using updated row member test
    | false => simpa using untouched row member test

theorem conflictUpdate_cases (conflict : Value → Row → Bool) (update : Value → Row → Row)
    (values : List Value) (row : Row) :
    (∃ value ∈ values, conflict value row = true ∧
        conflictUpdate conflict update values row = update value row) ∨
      ((∀ value ∈ values, conflict value row = false) ∧
        conflictUpdate conflict update values row = row) := by
  unfold conflictUpdate
  cases found : values.find? fun value => conflict value row with
  | none =>
      refine Or.inr ⟨fun value valueIn => ?_, rfl⟩
      simpa using List.find?_eq_none.mp found value valueIn
  | some value =>
      have conflicts : conflict value row = true := by
        simpa using List.find?_some found
      exact Or.inl ⟨value, List.mem_of_find?_eq_some found, conflicts, rfl⟩

theorem upsert_evolves (table : Table Row) (conflict : Value → Row → Bool)
    (update : Value → Row → Row) (insert : Nat → Value → Row) (values : List Value)
    (same_id : ∀ value row, id (update value row) = id row)
    (given_id : ∀ serial value, id (insert serial value) = serial)
    (updated : ∀ value ∈ values, ∀ row ∈ table.rows, conflict value row = true →
      kept row (update value row))
    (untouched : ∀ row ∈ table.rows, (∀ value ∈ values, conflict value row = false) →
      kept row row)
    (inserts : ∀ serial, ∀ value ∈ values, fresh (insert serial value)) :
    Evolves id kept fresh table (upsert conflict update insert values table) := by
  refine ⟨{ rewrite := conflictUpdate conflict update values
            inserted := ((unmatched conflict values table.rows).zipIdx table.nextId).map
              fun (value, id) => insert id value
            rows_eq := rfl
            same_id := ?_, keeps := ?_, serial := ?_, is_fresh := ?_
            nextId_eq := by simp [upsert] }⟩
  · intro row _
    rcases conflictUpdate_cases conflict update values row with
      ⟨value, -, -, same⟩ | ⟨-, same⟩
    · rw [same]
      exact same_id value row
    · rw [same]
  · intro row member
    rcases conflictUpdate_cases conflict update values row with
      ⟨value, valueIn, conflicts, same⟩ | ⟨apart, same⟩
    · rw [same]
      exact updated value valueIn row member conflicts
    · rw [same]
      exact untouched row member apart
  · have ids : (fun row => id row) ∘ (fun (pair : Value × Nat) => insert pair.2 pair.1) =
        Prod.snd := funext fun pair => given_id pair.2 pair.1
    rw [List.map_map, List.length_map, List.length_zipIdx]
    exact (congrArg (fun f => List.map f _) ids).trans (List.zipIdx_map_snd _ _)
  · intro row member
    obtain ⟨⟨value, serial⟩, pairIn, rfl⟩ := List.mem_map.mp member
    have valueIn := List.fst_mem_of_mem_zipIdx pairIn
    exact inserts serial value (List.mem_of_mem_filter valueIn)

theorem Evolves.keyed (step : Evolves id kept fresh before after)
    (keyed : Keyed id before) : Keyed id after := by
  obtain ⟨step⟩ := step
  have oldIds : (before.rows.map step.rewrite).map id = before.rows.map id := by
    rw [List.map_map]
    exact List.map_congr_left step.same_id
  refine ⟨?_, ?_⟩
  · rw [step.rows_eq, List.map_append, oldIds, step.serial]
    refine List.Nodup.append keyed.nodup List.nodup_range' ?_
    intro key oldKey newKey
    obtain ⟨row, member, rfl⟩ := List.mem_map.mp oldKey
    have below := keyed.bounded row member
    have above := (List.mem_range'_1.mp newKey).1
    omega
  · intro row member
    rw [step.rows_eq] at member
    rw [step.nextId_eq]
    rcases List.mem_append.mp member with old | new
    · obtain ⟨source, sourceIn, rfl⟩ := List.mem_map.mp old
      have below := keyed.bounded source sourceIn
      rw [step.same_id source sourceIn]
      omega
    · have key : id row ∈ step.inserted.map id := List.mem_map_of_mem new
      rw [step.serial] at key
      exact (List.mem_range'_1.mp key).2

theorem Evolves.origin (step : Evolves id kept fresh before after) {new : Row}
    (member : new ∈ after.rows) :
    (∃ old ∈ before.rows, id new = id old ∧ kept old new) ∨
      (before.nextId ≤ id new ∧ fresh new) := by
  obtain ⟨step⟩ := step
  rw [step.rows_eq] at member
  rcases List.mem_append.mp member with old | inserted
  · obtain ⟨source, sourceIn, rfl⟩ := List.mem_map.mp old
    exact Or.inl ⟨source, sourceIn, step.same_id source sourceIn, step.keeps source sourceIn⟩
  · have key : id new ∈ step.inserted.map id := List.mem_map_of_mem inserted
    rw [step.serial] at key
    exact Or.inr ⟨(List.mem_range'_1.mp key).1, step.is_fresh new inserted⟩

/-- No row ever leaves the table. -/
theorem Evolves.survives (step : Evolves id kept fresh before after) {old : Row}
    (member : old ∈ before.rows) :
    ∃ new ∈ after.rows, id new = id old ∧ kept old new := by
  obtain ⟨step⟩ := step
  refine ⟨step.rewrite old, ?_, step.same_id old member, step.keeps old member⟩
  rw [step.rows_eq]
  exact List.mem_append_left _ (List.mem_map_of_mem member)

theorem Evolves.nextId_le (step : Evolves id kept fresh before after) :
    before.nextId ≤ after.nextId := by
  obtain ⟨step⟩ := step
  rw [step.nextId_eq]
  omega

theorem Evolves.forall_rows (step : Evolves id kept fresh before after)
    {inv : Row → Prop} (keeps : ∀ old new, kept old new → inv old → inv new)
    (starts : ∀ new, fresh new → inv new)
    (holds : ∀ row ∈ before.rows, inv row) : ∀ row ∈ after.rows, inv row := by
  intro new member
  rcases step.origin member with ⟨old, oldIn, -, rewritten⟩ | ⟨-, isFresh⟩
  · exact keeps old new rewritten (holds old oldIn)
  · exact starts new isFresh

end Evolution

theorem forall₂_left {Left Right : Type} {related : Left → Right → Prop} {lefts : List Left}
    {rights : List Right} (all : List.Forall₂ related lefts rights) :
    ∀ left ∈ lefts, ∃ right ∈ rights, related left right := by
  induction all with
  | nil => intro left member; cases member
  | cons head rest ih =>
      intro left member
      rcases List.mem_cons.mp member with rfl | inRest
      · exact ⟨_, List.mem_cons_self, head⟩
      · obtain ⟨right, rightIn, found⟩ := ih left inRest
        exact ⟨right, List.mem_cons_of_mem _ rightIn, found⟩

theorem forall₂_right {Left Right : Type} {related : Left → Right → Prop} {lefts : List Left}
    {rights : List Right} (all : List.Forall₂ related lefts rights) :
    ∀ right ∈ rights, ∃ left ∈ lefts, related left right := by
  induction all with
  | nil => intro right member; cases member
  | cons head rest ih =>
      intro right member
      rcases List.mem_cons.mp member with rfl | inRest
      · exact ⟨_, List.mem_cons_self, head⟩
      · obtain ⟨left, leftIn, found⟩ := ih right inRest
        exact ⟨left, List.mem_cons_of_mem _ leftIn, found⟩

theorem forall₂_trans {Row : Type} {related : Row → Row → Prop}
    (trans : ∀ first second third, related first second → related second third →
      related first third) {firsts : List Row} :
    ∀ {seconds thirds : List Row}, List.Forall₂ related firsts seconds →
      List.Forall₂ related seconds thirds → List.Forall₂ related firsts thirds := by
  induction firsts with
  | nil =>
      intro seconds thirds one two
      cases one
      cases two
      exact List.Forall₂.nil
  | cons first rest ih =>
      intro seconds thirds one two
      cases one with
      | cons head tail =>
          cases two with
          | cons head' tail' =>
              exact List.Forall₂.cons (trans _ _ _ head head') (ih tail tail')

theorem forall₂_map_eq {Left Right Key : Type} {related : Left → Right → Prop}
    {view : Left → Key} {view' : Right → Key} {lefts : List Left} {rights : List Right}
    (same : ∀ left right, related left right → view' right = view left)
    (all : List.Forall₂ related lefts rights) : rights.map view' = lefts.map view := by
  induction all with
  | nil => rfl
  | cons head rest ih => rw [List.map_cons, List.map_cons, same _ _ head, ih]

theorem forall₂_map_step {Left Right : Type} {related related' : Left → Right → Prop}
    {lefts : List Left} {rights : List Right} (set : Right → Right)
    (all : List.Forall₂ related lefts rights) :
    (∀ left ∈ lefts, ∀ right ∈ rights, related left right → related' left (set right)) →
      List.Forall₂ related' lefts (rights.map set) := by
  induction all with
  | nil => intro _; exact List.Forall₂.nil
  | cons head rest ih =>
      intro step
      refine List.Forall₂.cons (step _ List.mem_cons_self _ List.mem_cons_self head) (ih ?_)
      intro left leftIn right rightIn related
      exact step left (List.mem_cons_of_mem _ leftIn) right (List.mem_cons_of_mem _ rightIn)
        related

end Table

end OdooSemantic.Lib
