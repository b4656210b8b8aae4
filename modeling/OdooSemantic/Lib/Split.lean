import Mathlib.Data.List.Infix

/-!
# Splitting at a separator of two symbols

The parts of joined texts are the parts of the texts, since the separator's symbols differ and
so an occurrence never lies across an end of a text.
-/

set_option autoImplicit false

namespace OdooSemantic.Lib.Split

section Pair
variable {Symbol : Type} [DecidableEq Symbol] (first second : Symbol)

/-- `text.split(sep)`. -/
def split : List Symbol → List (List Symbol)
  | [] => [[]]
  | [one] => [[one]]
  | one :: other :: rest =>
      if one = first ∧ other = second then [] :: split rest
      else (split (other :: rest)).modifyHead (one :: ·)

/-- `sep.join(parts)`. -/
def join (parts : List (List Symbol)) : List Symbol := [first, second].intercalate parts

omit [DecidableEq Symbol] in
def Free (text : List Symbol) : Prop := ¬ [first, second] <:+: text

variable {first second}

theorem split_sep (rest : List Symbol) :
    split first second (first :: second :: rest) = [] :: split first second rest := by
  rw [split, if_pos ⟨rfl, rfl⟩]

theorem split_step {one other : Symbol} (sep : ¬ (one = first ∧ other = second))
    (rest : List Symbol) : split first second (one :: other :: rest) =
      (split first second (other :: rest)).modifyHead (one :: ·) := by
  rw [split, if_neg sep]

theorem split_cons (text : List Symbol) :
    ∃ head tail, split first second text = head :: tail ∧ head <+: text := by
  induction text using split.induct first second with
  | case1 => exact ⟨[], [], rfl, List.prefix_refl _⟩
  | case2 one => exact ⟨[one], [], rfl, List.prefix_refl _⟩
  | case3 one other rest sep ih =>
      rw [sep.1, sep.2]
      exact ⟨[], split first second rest, split_sep rest, List.nil_prefix⟩
  | case4 one other rest sep ih =>
      obtain ⟨head, tail, parts, starts⟩ := ih
      rw [split_step sep, parts]
      exact ⟨one :: head, tail, rfl, List.cons_prefix_cons.mpr ⟨rfl, starts⟩⟩

theorem split_append (differ : first ≠ second) (text rest : List Symbol) :
    split first second (text ++ first :: second :: rest) =
      split first second text ++ split first second rest := by
  induction text using split.induct first second with
  | case1 => exact split_sep rest
  | case2 one =>
      have notSep : ¬ (one = first ∧ first = second) := fun sep => differ sep.2
      rw [List.cons_append, List.nil_append, split_step notSep, split_sep]
      rfl
  | case3 one other more sep ih =>
      rw [sep.1, sep.2, List.cons_append, List.cons_append, split_sep, ih, split_sep,
        List.cons_append]
  | case4 one other more sep ih =>
      obtain ⟨head, tail, parts, -⟩ := @split_cons _ _ first second (other :: more)
      rw [List.cons_append, List.cons_append, split_step sep, split_step sep, ← List.cons_append,
        ih, parts]
      rfl

theorem split_join (differ : first ≠ second) {texts : List (List Symbol)} (some : texts ≠ []) :
    split first second (join first second texts) = texts.flatMap (split first second) := by
  induction texts with
  | nil => exact absurd rfl some
  | cons text rest ih =>
      cases rest with
      | nil => simp [join, List.intercalate]
      | cons other others =>
          have joined : join first second (text :: other :: others) =
              text ++ first :: second :: join first second (other :: others) := by
            simp [join, List.intercalate]
          have further := ih (List.cons_ne_nil _ _)
          rw [joined, split_append differ, further]
          rfl

omit [DecidableEq Symbol] in
theorem Free.tail {one : Symbol} {rest : List Symbol} (free : Free first second (one :: rest)) :
    Free first second rest :=
  fun found => free (found.trans (List.suffix_cons one rest).isInfix)

omit [DecidableEq Symbol] in
theorem Free.append {text rest : List Symbol} (free : Free first second text)
    (restFree : Free first second rest)
    (apart : text.getLast? ≠ some first ∨ rest.head? ≠ some second) :
    Free first second (text ++ rest) := by
  induction text with
  | nil => exact restFree
  | cons one more ih =>
      intro found
      rw [List.cons_append] at found
      obtain front | inner := List.infix_cons_iff.mp found
      · obtain ⟨isFirst, next⟩ := List.cons_prefix_cons.mp front
        cases more with
        | nil =>
            rw [List.nil_append] at next
            obtain last | head := apart
            · exact last (congrArg some isFirst.symm)
            · obtain ⟨other, others, split⟩ : ∃ other others, rest = other :: others := by
                cases rest with
                | nil => exact absurd (List.prefix_nil.mp next) (List.cons_ne_nil _ _)
                | cons other others => exact ⟨other, others, rfl⟩
              rw [split] at next head
              exact head (congrArg some (List.cons_prefix_cons.mp next).1.symm)
        | cons other others =>
            obtain ⟨isSecond, -⟩ := List.cons_prefix_cons.mp next
            refine free (List.IsPrefix.isInfix ?_)
            rw [isFirst, isSecond]
            exact List.prefix_append [one, other] others
      · refine ih free.tail ?_ inner
        obtain last | head := apart
        · cases more with
          | nil => exact .inl (by simp)
          | cons other others => exact .inl (by rwa [List.getLast?_cons_cons] at last)
        · exact .inr head

theorem split_lead {lead : List Symbol} (clean : first ∉ lead) (rest : List Symbol) :
    split first second (lead ++ rest) =
      (split first second rest).modifyHead (lead ++ ·) := by
  induction lead with
  | nil =>
      obtain ⟨head, tail, parts, -⟩ := @split_cons _ _ first second rest
      rw [List.nil_append, parts]
      rfl
  | cons one more ih =>
      obtain ⟨notFirst, cleanMore⟩ := not_or.mp fun either => clean (List.mem_cons.mpr either)
      obtain ⟨head, tail, parts, -⟩ := @split_cons _ _ first second rest
      have further := ih cleanMore
      cases whole : more ++ rest with
      | nil =>
          obtain ⟨noMore, noRest⟩ := List.append_eq_nil_iff.mp whole
          rw [noMore, noRest]
          rfl
      | cons other others =>
          have notSep : ¬ (one = first ∧ other = second) := fun sep => notFirst sep.1.symm
          rw [List.cons_append, whole, split_step notSep, ← whole, further, parts]
          rfl

/-- A text without the separator is its only part. -/
theorem split_free {text : List Symbol} (free : Free first second text) :
    split first second text = [text] := by
  induction text using split.induct first second with
  | case1 | case2 one => rfl
  | case3 one other rest sep ih =>
      rw [sep.1, sep.2] at free
      exact absurd (List.prefix_append [first, second] rest).isInfix free
  | case4 one other rest sep ih =>
      rw [split_step sep, ih free.tail]
      rfl

theorem mem_split {text part : List Symbol} (listed : part ∈ split first second text) :
    Free first second part ∧ part <:+: text := by
  have short : ∀ {few : List Symbol}, few.length < 2 → Free first second few := by
    intro few less found
    have long := found.length_le
    simp only [List.length_cons, List.length_nil] at long
    omega
  induction text using split.induct first second generalizing part with
  | case1 =>
      rw [List.mem_singleton.mp listed]
      exact ⟨short Nat.zero_lt_two, List.infix_refl _⟩
  | case2 one =>
      rw [List.mem_singleton.mp listed]
      exact ⟨short (Nat.lt_succ_self 1), List.infix_refl _⟩
  | case3 one other rest sep ih =>
      rw [sep.1, sep.2, split_sep] at listed
      obtain here | later := List.mem_cons.mp listed
      · rw [here]
        exact ⟨short Nat.zero_lt_two, List.nil_infix⟩
      · obtain ⟨free, inside⟩ := ih later
        have ending : rest <:+ one :: other :: rest :=
          (List.suffix_cons other rest).trans (List.suffix_cons one _)
        exact ⟨free, inside.trans ending.isInfix⟩
  | case4 one other rest sep ih =>
      obtain ⟨head, tail, parts, starts⟩ := @split_cons _ _ first second (other :: rest)
      rw [split_step sep, parts] at listed
      rw [parts] at ih
      obtain here | later := List.mem_cons.mp listed
      · obtain ⟨free, -⟩ := ih List.mem_cons_self
        rw [here]
        refine ⟨?_, (List.cons_prefix_cons.mpr ⟨rfl, starts⟩).isInfix⟩
        -- one symbol more in front makes no separator with the one after it
        intro found
        obtain front | inner := List.infix_cons_iff.mp found
        · obtain ⟨isFirst, next⟩ := List.cons_prefix_cons.mp front
          obtain ⟨isOther, -⟩ := List.cons_prefix_cons.mp (next.trans starts)
          exact sep ⟨isFirst.symm, isOther.symm⟩
        · exact free inner
      · obtain ⟨free, inside⟩ := ih (List.mem_cons_of_mem head later)
        exact ⟨free, inside.trans (List.suffix_cons one _).isInfix⟩

end Pair

section One
variable {Symbol : Type} [BEq Symbol] [LawfulBEq Symbol] {sep : Symbol}

theorem mem_splitOn {text part : List Symbol} (listed : part ∈ text.splitOn sep) :
    sep ∉ part ∧ part <:+: text := by
  have parts : ∀ text : List Symbol, ∃ head tail, text.splitOn sep = head :: tail ∧
      head <+: text ∧ sep ∉ head ∧ ∀ part ∈ tail, sep ∉ part ∧ part <:+: text := by
    intro text
    induction text with
    | nil => exact ⟨[], [], List.splitOn_nil sep, List.nil_prefix, List.not_mem_nil, by simp⟩
    | cons one rest ih =>
        obtain ⟨head, tail, split, starts, clean, others⟩ := ih
        have wider : ∀ part, part <:+: rest → part <:+: one :: rest :=
          fun part inside => inside.trans (List.suffix_cons one rest).isInfix
        rw [List.splitOn_cons_eq_if_modifyHead]
        by_cases here : one = sep
        · rw [if_pos (beq_iff_eq.mpr here), split]
          refine ⟨[], head :: tail, rfl, List.nil_prefix, List.not_mem_nil, ?_⟩
          intro part listed
          obtain same | later := List.mem_cons.mp listed
          · rw [same]
            exact ⟨clean, wider head starts.isInfix⟩
          · exact ⟨(others part later).1, wider part (others part later).2⟩
        · rw [if_neg fun same => here (beq_iff_eq.mp same), split]
          refine ⟨one :: head, tail, rfl, List.cons_prefix_cons.mpr ⟨rfl, starts⟩, ?_, ?_⟩
          · intro inHead
            obtain same | later := List.mem_cons.mp inHead
            · exact here same.symm
            · exact clean later
          · intro part listed
            exact ⟨(others part listed).1, wider part (others part listed).2⟩
  obtain ⟨head, tail, split, starts, clean, others⟩ := parts text
  rw [split] at listed
  obtain same | later := List.mem_cons.mp listed
  · rw [same]
    exact ⟨clean, starts.isInfix⟩
  · exact others part later

end One

end OdooSemantic.Lib.Split
