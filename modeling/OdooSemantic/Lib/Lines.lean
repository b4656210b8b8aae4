import Mathlib.Data.List.Infix

/-!
# Lines of a text

A class of symbols ends lines, and a return with a newline after it ends one line.  Two
classes count lines alike up to the symbols only one of them has.
-/

set_option autoImplicit false

namespace OdooSemantic.Lib.Lines

/-- The newline of a pair that ended a line; `after` tells that a return came before. -/
def pairs (after : Bool) (char : Char) : Bool := after && char == '\n'

section Lines
variable (ends : Char → Bool)

def breaksFrom (after : Bool) : List Char → Nat
  | [] => 0
  | char :: rest => (ends char && !pairs after char).toNat + breaksFrom (char == '\r') rest

def breaks (text : List Char) : Nat := breaksFrom ends false text

/-- The lines of a text; `current` is the line being read, newest first. -/
def linesFrom (after : Bool) (current : List Char) : List Char → List (List Char)
  | [] => if current.isEmpty then [] else [current.reverse]
  | char :: rest =>
      if pairs after char then linesFrom (char == '\r') current rest
      else if ends char then current.reverse :: linesFrom (char == '\r') [] rest
      else linesFrom (char == '\r') (char :: current) rest

/-- `text.splitlines()`. -/
def lines (text : List Char) : List (List Char) := linesFrom ends false [] text

theorem breaksFrom_le_append (after : Bool) (text rest : List Char) :
    breaksFrom ends after text ≤ breaksFrom ends after (text ++ rest) := by
  induction text generalizing after with
  | nil => exact Nat.zero_le _
  | cons char others ih =>
      have further := ih (char == '\r')
      rw [List.cons_append, breaksFrom, breaksFrom]
      omega

theorem breaks_take_mono (text : List Char) {first second : Nat} (le : first ≤ second) :
    breaks ends (text.take first) ≤ breaks ends (text.take second) := by
  obtain ⟨rest, split⟩ := List.take_prefix_take_left (l := text) le
  rw [← split]
  exact breaksFrom_le_append ends false _ rest

/-- What is counted beside the lines of a smaller class. -/
theorem breaksFrom_extra {fewer : Char → Bool} (newline : fewer '\n' = true)
    (le : ∀ char, fewer char = true → ends char = true) (after : Bool) (text : List Char) :
    breaksFrom ends after text =
      breaksFrom fewer after text + text.countP fun char => ends char && !fewer char := by
  induction text generalizing after with
  | nil => rfl
  | cons char rest ih =>
      rw [breaksFrom, breaksFrom, ih, List.countP_cons]
      have one : (ends char && !pairs after char).toNat =
          (fewer char && !pairs after char).toNat +
            (if (ends char && !fewer char) = true then 1 else 0) := by
        cases isFewer : fewer char with
        | true =>
            rw [le char isFewer]
            simp
        | false =>
            have notPaired : pairs after char = false := by
              rw [pairs, Bool.and_eq_false_iff, beq_eq_false_iff_ne]
              refine .inr fun same => ?_
              rw [same, newline] at isFewer
              cases isFewer
            rw [notPaired]
            cases ends char <;> rfl
      omega

variable {ends}

theorem not_return {char : Char} (returns : ends '\r' = true) (inner : ends char = false) :
    (char == '\r') = false := by
  rw [beq_eq_false_iff_ne]
  intro same
  rw [same, returns] at inner
  cases inner

theorem not_pairs {after : Bool} {char : Char} (newline : ends '\n' = true)
    (inner : ends char = false) : pairs after char = false := by
  rw [pairs, Bool.and_eq_false_iff, beq_eq_false_iff_ne]
  refine .inr fun same => ?_
  rw [same, newline] at inner
  cases inner

theorem linesFrom_begun (returns : ends '\r' = true) (post : List Char) :
    ∀ {current : List Char}, current ≠ [] →
      ∃ right, right <+: post ∧
        (linesFrom ends false current post)[0]? = some (current.reverse ++ right) := by
  induction post with
  | nil =>
      intro current begun
      refine ⟨[], List.prefix_rfl, ?_⟩
      rw [linesFrom, if_neg (by simpa using begun), List.append_nil]
      rfl
  | cons char rest ih =>
      intro current begun
      rw [linesFrom, if_neg (by simp [pairs])]
      cases closing : ends char with
      | true =>
          rw [if_pos rfl]
          exact ⟨[], List.nil_prefix, by rw [List.append_nil]; rfl⟩
      | false =>
          rw [if_neg Bool.false_ne_true, not_return returns closing]
          obtain ⟨right, isPrefix, line⟩ := ih (List.cons_ne_nil char current)
          refine ⟨char :: right, List.cons_prefix_cons.mpr ⟨rfl, isPrefix⟩, ?_⟩
          rw [line, List.reverse_cons, List.append_assoc, List.singleton_append]

theorem linesFrom_inner (newline : ends '\n' = true) (returns : ends '\r' = true)
    (post : List Char) {part : List Char} (inner : ∀ char ∈ part, ends char = false) :
    ∀ {after : Bool} {current : List Char}, part ≠ [] →
      linesFrom ends after current (part ++ post) =
        linesFrom ends false (part.reverse ++ current) post := by
  induction part with
  | nil => intro after current nonempty; exact absurd rfl nonempty
  | cons char rest ih =>
      intro after current _
      have first := inner char List.mem_cons_self
      rw [List.cons_append, linesFrom, not_pairs newline first, if_neg Bool.false_ne_true, first,
        if_neg Bool.false_ne_true, not_return returns first]
      cases rest with
      | nil => rfl
      | cons other others =>
          rw [ih (fun symbol listed => inner symbol (List.mem_cons_of_mem _ listed))
            (List.cons_ne_nil _ _), @List.reverse_cons _ _ (other :: others), List.append_assoc]
          rfl

theorem linesFrom_part (newline : ends '\n' = true) (returns : ends '\r' = true)
    {part post : List Char} (nonempty : part ≠ []) (inner : ∀ char ∈ part, ends char = false)
    (pre : List Char) :
    ∀ {after : Bool} {current : List Char}, (after = true → current = []) →
      ∃ left right, left <:+ current.reverse ++ pre ∧ right <+: post ∧
        (linesFrom ends after current (pre ++ part ++ post))[breaksFrom ends after pre]? =
          some (left ++ part ++ right) := by
  induction pre with
  | nil =>
      intro after current _
      have begun : part.reverse ++ current ≠ [] := by simp [nonempty]
      obtain ⟨right, isPrefix, line⟩ := linesFrom_begun returns post begun
      refine ⟨current.reverse, right, by rw [List.append_nil], isPrefix, ?_⟩
      rw [List.nil_append, linesFrom_inner newline returns post inner nonempty, breaksFrom, line]
      simp
  | cons char rest ih =>
      intro after current alone
      rw [List.cons_append, List.cons_append, linesFrom, breaksFrom]
      cases paired : pairs after char with
      | true =>
          obtain ⟨isAfter, same⟩ := Bool.and_eq_true_iff.mp paired
          have none := alone isAfter
          obtain ⟨left, right, isSuffix, isPrefix, line⟩ :=
            @ih (char == '\r') current (fun _ => none)
          refine ⟨left, right, ?_, isPrefix, ?_⟩
          · rw [none] at isSuffix ⊢
            exact isSuffix.trans (List.suffix_cons char rest)
          · rw [if_pos rfl, Bool.not_true, Bool.and_false, Bool.toNat_false, Nat.zero_add]
            exact line
      | false =>
          rw [if_neg Bool.false_ne_true, Bool.not_false, Bool.and_true]
          cases closing : ends char with
          | true =>
              obtain ⟨left, right, isSuffix, isPrefix, line⟩ :=
                @ih (char == '\r') [] (fun _ => rfl)
              refine ⟨left, right, ?_, isPrefix, ?_⟩
              · rw [List.reverse_nil, List.nil_append] at isSuffix
                exact (isSuffix.trans (List.suffix_cons char rest)).trans
                  (List.suffix_append current.reverse (char :: rest))
              · rw [if_pos rfl, Bool.toNat_true, Nat.add_comm, List.getElem?_cons_succ]
                exact line
          | false =>
              have further := not_return returns closing
              obtain ⟨left, right, isSuffix, isPrefix, line⟩ :=
                @ih false (char :: current) nofun
              refine ⟨left, right, ?_, isPrefix, ?_⟩
              · rwa [List.reverse_cons, List.append_assoc, List.singleton_append] at isSuffix
              · rw [if_neg Bool.false_ne_true, further, Bool.toNat_false, Nat.zero_add]
                exact line

theorem lines_part (newline : ends '\n' = true) (returns : ends '\r' = true)
    {pre part post : List Char} (nonempty : part ≠ [])
    (inner : ∀ char ∈ part, ends char = false) :
    ∃ left right, left <:+ pre ∧ right <+: post ∧
      (lines ends (pre ++ part ++ post))[breaks ends pre]? = some (left ++ part ++ right) := by
  obtain ⟨left, right, isSuffix, isPrefix, line⟩ :=
    @linesFrom_part _ newline returns _ post nonempty inner pre false [] nofun
  exact ⟨left, right, isSuffix, isPrefix, line⟩

end Lines

/-- `"\n".join(lines)`. -/
def joinLines (lines : List (List Char)) : List Char := ['\n'].intercalate lines

theorem joinLines_of_mem {lines : List (List Char)} {line : List Char} (listed : line ∈ lines) :
    ∃ left right, joinLines lines = left ++ line ++ right ∧
      (∀ char, left.getLast? = some char → char = '\n') ∧
        ∀ char, right.head? = some char → char = '\n' := by
  induction lines with
  | nil => cases listed
  | cons first rest ih =>
      cases rest with
      | nil =>
          refine ⟨[], [], ?_, nofun, nofun⟩
          rw [List.mem_singleton.mp listed, joinLines]
          simp
      | cons second others =>
          have joined : joinLines (first :: second :: others) =
              first ++ '\n' :: joinLines (second :: others) := by
            simp [joinLines, List.intercalate]
          obtain same | later := List.mem_cons.mp listed
          · refine ⟨[], '\n' :: joinLines (second :: others), by rw [joined, same]; rfl, nofun, ?_⟩
            intro char next
            cases next
            rfl
          · obtain ⟨left, right, split, before, after⟩ := ih later
            refine ⟨first ++ '\n' :: left, right, ?_, ?_, after⟩
            · rw [joined, split]
              simp only [List.append_assoc, List.cons_append]
            · intro char last
              rw [List.getLast?_append, List.getLast?_cons] at last
              cases final : left.getLast? with
              | none =>
                  rw [final] at last
                  cases last
                  rfl
              | some other =>
                  rw [final] at last
                  cases last
                  exact before _ final

end OdooSemantic.Lib.Lines
