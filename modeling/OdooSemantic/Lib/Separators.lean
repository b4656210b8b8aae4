import Mathlib.Data.List.Basic

/-!
# Texts joined with separators

When the parts of a joined text can be read back: a part without the separator ends
at the first one, and a part in front of a marked tail ends where the mark is, when
the tail repeats the mark nowhere.
-/

set_option autoImplicit false

namespace OdooSemantic.Lib.Separators

section Separators
variable {Symbol : Type} {sep : Symbol}

/-- Parts without the separator end at the first one. -/
theorem append_sep_inj {first second rest rest' : List Symbol} (clean : sep ∉ first)
    (clean' : sep ∉ second) (same : first ++ sep :: rest = second ++ sep :: rest') :
    first = second ∧ rest = rest' := by
  induction first generalizing second with
  | nil =>
      cases second with
      | nil => exact ⟨rfl, (List.cons.inj same).2⟩
      | cons head tail =>
          have isSep := (List.cons.inj same).1
          exact absurd (isSep ▸ List.mem_cons_self) clean'
  | cons head tail ih =>
      cases second with
      | nil =>
          have isSep := (List.cons.inj same).1
          exact absurd (isSep ▸ List.mem_cons_self) clean
      | cons head' tail' =>
          obtain ⟨rfl, sameTail⟩ := List.cons.inj same
          obtain ⟨rfl, sameRest⟩ := ih (fun member => clean (List.mem_cons_of_mem _ member))
            (fun member => clean' (List.mem_cons_of_mem _ member)) sameTail
          exact ⟨rfl, sameRest⟩

def Delimited (sep : Symbol) (rest : List Symbol) : Prop := rest = [] ∨ ∃ tail, rest = sep :: tail

theorem append_delimited_inj {first second rest rest' : List Symbol} (clean : sep ∉ first)
    (clean' : sep ∉ second) (delimited : Delimited sep rest) (delimited' : Delimited sep rest')
    (same : first ++ rest = second ++ rest') : first = second ∧ rest = rest' := by
  rcases delimited with rfl | ⟨tail, rfl⟩
  · rcases delimited' with rfl | ⟨tail', rfl⟩
    · rw [List.append_nil, List.append_nil] at same
      exact ⟨same, rfl⟩
    · rw [List.append_nil] at same
      exact absurd (same ▸ List.mem_append_right _ List.mem_cons_self) clean
  · rcases delimited' with rfl | ⟨tail', rfl⟩
    · rw [List.append_nil] at same
      exact absurd (same.symm ▸ List.mem_append_right _ List.mem_cons_self) clean'
    · obtain ⟨sameFirst, sameTail⟩ := append_sep_inj clean clean' same
      exact ⟨sameFirst, by rw [sameTail]⟩

theorem infix_skip {mark part rest : List Symbol} (clean : sep ∉ part)
    (found : sep :: mark <:+: part ++ rest) : sep :: mark <:+: rest := by
  induction part with
  | nil => exact found
  | cons head tail ih =>
      rw [List.cons_append, List.infix_cons_iff] at found
      rcases found with starts | later
      · have isSep := (List.cons_prefix_cons.mp starts).1
        exact absurd (isSep ▸ List.mem_cons_self) clean
      · exact ih (fun member => clean (List.mem_cons_of_mem _ member)) later

structure Marked (mark tail : List Symbol) : Prop where
  starts : mark <+: tail
  once : ¬ mark <:+: tail.tail

theorem Marked.at_start {mark lead tail : List Symbol} (marked : Marked mark (lead ++ tail))
    (starts : mark <+: tail) : lead = [] := by
  cases lead with
  | nil => rfl
  | cons head rest =>
      refine absurd ?_ marked.once
      rw [List.cons_append, List.tail_cons]
      exact starts.isInfix.trans (List.suffix_append rest tail).isInfix

theorem append_marked_inj {mark first second tail tail' : List Symbol} (marked : Marked mark tail)
    (marked' : Marked mark tail') (same : first ++ tail = second ++ tail') :
    first = second ∧ tail = tail' := by
  rcases List.append_eq_append_iff.mp same with ⟨lead, rfl, rfl⟩ | ⟨lead, rfl, rfl⟩
  · have nothing := marked.at_start marked'.starts
    subst nothing
    simp
  · have nothing := marked'.at_start marked.starts
    subst nothing
    simp

end Separators

end OdooSemantic.Lib.Separators
