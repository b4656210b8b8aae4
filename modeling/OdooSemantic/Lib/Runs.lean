import Mathlib.Data.List.Basic

/-!
# Maximal runs of a class of symbols

What `re.findall` gives for one or more symbols of a class: the runs that cannot be longer.
A run of a part of a text is a run of the text when the part is bounded in it.
-/

set_option autoImplicit false

namespace OdooSemantic.Lib.Runs

section Runs
variable {Symbol : Type} (holds : Symbol → Bool)

/-- The runs of a text; `current` is the run being read, newest first. -/
def runsFrom : List Symbol → List Symbol → List (List Symbol)
  | [], [] => []
  | current, [] => [current.reverse]
  | [], symbol :: rest =>
      if holds symbol then runsFrom [symbol] rest else runsFrom [] rest
  | current, symbol :: rest =>
      if holds symbol then runsFrom (symbol :: current) rest
      else current.reverse :: runsFrom [] rest

def runs (text : List Symbol) : List (List Symbol) := runsFrom holds [] text

/-- Neither the symbol before nor the one after is of the class. -/
structure Bounded (before after : List Symbol) : Prop where
  left : ∀ symbol, before.getLast? = some symbol → holds symbol = false
  right : ∀ symbol, after.head? = some symbol → holds symbol = false

structure RunAt (text run before after : List Symbol) : Prop where
  split : text = before ++ run ++ after
  nonempty : run ≠ []
  all : ∀ symbol ∈ run, holds symbol = true
  bounded : Bounded holds before after

theorem runAt_gap {lead rest run : List Symbol} {symbol : Symbol}
    (all : ∀ other ∈ lead, holds other = true) (gap : holds symbol = false) :
    (∃ before after, RunAt holds (lead ++ symbol :: rest) run before after) ↔
      (run = lead ∧ lead ≠ []) ∨ ∃ before after, RunAt holds rest run before after := by
  constructor
  · intro given
    obtain ⟨before, after, split, nonempty, runAll, bounded⟩ := given
    rw [List.append_assoc] at split
    obtain ⟨middle, front, back⟩ | ⟨middle, front, back⟩ := List.append_eq_append_iff.mp split
    · cases middle with
      | nil =>
          obtain ⟨first, others, parts⟩ := List.exists_cons_of_ne_nil nonempty
          rw [parts] at back
          have same : symbol = first := (List.cons_eq_cons.mp back).1
          have word := runAll first (by rw [parts]; exact List.mem_cons_self)
          rw [← same, gap] at word
          cases word
      | cons first others =>
          obtain ⟨-, restSplit⟩ := List.cons_eq_cons.mp back
          refine .inr ⟨others, after, by rw [restSplit, List.append_assoc]; rfl, nonempty, runAll,
            ?_, bounded.right⟩
          intro other last
          refine bounded.left other ?_
          rw [front, List.getLast?_append, List.getLast?_cons, last]
          rfl
    · have none : before = [] := by
        cases last : before.getLast? with
        | none => exact List.getLast?_eq_none_iff.mp last
        | some other =>
            have word := all other (by
              rw [front]
              exact List.mem_append_left middle (List.mem_of_getLast? last))
            rw [bounded.left other last] at word
            cases word
      rw [none, List.nil_append] at front
      rw [← front] at back
      refine .inl ?_
      obtain ⟨extra, runParts, tail⟩ | ⟨extra, leadParts, tail⟩ :=
        List.append_eq_append_iff.mp back.symm
      · cases extra with
        | nil =>
            rw [List.append_nil] at runParts
            exact ⟨runParts, by rwa [← runParts]⟩
        | cons first others =>
            have word := runAll first (by
              rw [runParts]
              exact List.mem_append_right lead List.mem_cons_self)
            rw [← (List.cons_eq_cons.mp tail).1, gap] at word
            cases word
      · cases extra with
        | nil =>
            rw [List.append_nil] at leadParts
            exact ⟨leadParts.symm, by rwa [leadParts]⟩
        | cons first others =>
            have word := all first (by
              rw [leadParts]
              exact List.mem_append_right run List.mem_cons_self)
            rw [bounded.right first (by rw [tail]; rfl)] at word
            cases word
  · intro given
    obtain ⟨same, nonempty⟩ | ⟨before, after, split, nonempty, runAll, bounded⟩ := given
    · refine ⟨[], symbol :: rest, by rw [same]; rfl, by rwa [same], by rwa [same], ?_, ?_⟩
      · intro other last
        cases last
      · intro other next
        cases next
        exact gap
    · refine ⟨lead ++ symbol :: before, after, ?_, nonempty, runAll, ?_, bounded.right⟩
      · rw [split]
        simp only [List.append_assoc, List.cons_append]
      · intro other last
        rw [List.getLast?_append, List.getLast?_cons] at last
        cases inner : before.getLast? with
        | none =>
            rw [inner] at last
            cases last
            exact gap
        | some final =>
            rw [inner] at last
            cases last
            exact bounded.left final inner

theorem runAt_whole {text run : List Symbol} (all : ∀ symbol ∈ text, holds symbol = true) :
    (∃ before after, RunAt holds text run before after) ↔ run = text ∧ text ≠ [] := by
  constructor
  · intro given
    obtain ⟨before, after, split, nonempty, runAll, bounded⟩ := given
    have noneBefore : before = [] := by
      cases last : before.getLast? with
      | none => exact List.getLast?_eq_none_iff.mp last
      | some symbol =>
          have word := all symbol (by
            rw [split, List.append_assoc]
            exact List.mem_append_left _ (List.mem_of_getLast? last))
          rw [bounded.left symbol last] at word
          cases word
    have noneAfter : after = [] := by
      cases after with
      | nil => rfl
      | cons symbol rest =>
          have word := all symbol (by
            rw [split]
            exact List.mem_append_right _ List.mem_cons_self)
          rw [bounded.right symbol rfl] at word
          cases word
    rw [noneBefore, noneAfter, List.nil_append, List.append_nil] at split
    exact ⟨split.symm, by rwa [split]⟩
  · intro given
    obtain ⟨same, nonempty⟩ := given
    exact ⟨[], [], by rw [same, List.nil_append, List.append_nil], by rwa [same], by rwa [same],
      nofun, nofun⟩

theorem mem_runsFrom {current text run : List Symbol}
    (read : ∀ symbol ∈ current, holds symbol = true) :
    run ∈ runsFrom holds current text ↔
      ∃ before after, RunAt holds (current.reverse ++ text) run before after := by
  have readReverse : ∀ symbol ∈ current.reverse, holds symbol = true :=
    fun symbol listed => read symbol (List.mem_reverse.mp listed)
  induction text generalizing current with
  | nil =>
      rw [List.append_nil, runAt_whole holds readReverse]
      cases current with
      | nil | cons symbol rest => simp [runsFrom]
  | cons symbol rest ih =>
      cases word : holds symbol with
      | true =>
          have readNow : ∀ other ∈ symbol :: current, holds other = true := by
            intro other listed
            obtain same | earlier := List.mem_cons.mp listed
            · rw [same, word]
            · exact read other earlier
          have further := ih readNow fun other listed => readNow other (List.mem_reverse.mp listed)
          rw [List.reverse_cons, List.append_assoc, List.singleton_append] at further
          refine Iff.trans ?_ further
          cases current with
          | nil | cons first others => simp only [runsFrom, word, if_true]
      | false =>
          have further := ih (fun other listed => absurd listed List.not_mem_nil)
            (fun other listed => absurd listed List.not_mem_nil)
          rw [List.reverse_nil, List.nil_append] at further
          refine Iff.trans ?_ (runAt_gap holds readReverse word).symm
          refine Iff.trans ?_ (or_congr Iff.rfl further)
          cases current with
          | nil | cons first others => simp [runsFrom, word]

theorem runsFrom_gap {current text rest : List Symbol} {symbol : Symbol}
    (gap : holds symbol = false) :
    runsFrom holds current (text ++ symbol :: rest) =
      runsFrom holds current text ++ runsFrom holds [] rest := by
  induction text generalizing current with
  | nil => cases current <;> simp [runsFrom, gap]
  | cons first others ih =>
      cases word : holds first <;> cases current <;> simp [runsFrom, word, ih]

theorem runs_gap {text rest : List Symbol} {symbol : Symbol} (gap : holds symbol = false) :
    runs holds (text ++ symbol :: rest) = runs holds text ++ runs holds rest :=
  runsFrom_gap holds gap

theorem runsFrom_whole {current text : List Symbol} (all : ∀ symbol ∈ text, holds symbol = true)
    (nonempty : current.reverse ++ text ≠ []) :
    runsFrom holds current text = [current.reverse ++ text] := by
  induction text generalizing current with
  | nil =>
      cases current with
      | nil => exact absurd rfl nonempty
      | cons first others => simp [runsFrom]
  | cons first others ih =>
      rw [List.forall_mem_cons] at all
      have further : runsFrom holds (first :: current) others =
          [(first :: current).reverse ++ others] := ih all.2 (by simp)
      cases current <;> simp [runsFrom, all.1, further]

theorem runs_whole {text : List Symbol} (all : ∀ symbol ∈ text, holds symbol = true)
    (nonempty : text ≠ []) : runs holds text = [text] :=
  runsFrom_whole holds all nonempty

theorem mem_runs {text run : List Symbol} :
    run ∈ runs holds text ↔ ∃ before after, RunAt holds text run before after :=
  mem_runsFrom holds (fun _ listed => absurd listed List.not_mem_nil)

theorem runs_of_bounded {before part after run : List Symbol} (bounded : Bounded holds before after)
    (listed : run ∈ runs holds part) : run ∈ runs holds (before ++ part ++ after) := by
  obtain ⟨left, right, split, nonempty, all, inner⟩ := (mem_runs holds).mp listed
  refine (mem_runs holds).mpr ⟨before ++ left, right ++ after, ?_, nonempty, all, ?_, ?_⟩
  · rw [split]
    simp only [List.append_assoc]
  · intro symbol last
    rw [List.getLast?_append] at last
    cases there : left.getLast? with
    | none =>
        rw [there, Option.none_or] at last
        exact bounded.left symbol last
    | some other =>
        rw [there, Option.some_or] at last
        cases last
        exact inner.left symbol there
  · intro symbol next
    rw [List.head?_append] at next
    cases there : right.head? with
    | none =>
        rw [there, Option.none_or] at next
        exact bounded.right symbol next
    | some other =>
        rw [there, Option.some_or] at next
        cases next
        exact inner.right symbol there

end Runs

end OdooSemantic.Lib.Runs
