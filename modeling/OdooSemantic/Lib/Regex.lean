import Mathlib.Data.List.Basic

/-!
# Regular expressions with lookaround

Single symbols are matched by classes, only classes are repeated, and lookaround looks at
one symbol back or a few symbols ahead.  What precedes a match is kept newest first.  The
search enumerates every way to match, so it finds a match exactly when there is one.
-/

set_option autoImplicit false

namespace OdooSemantic.Lib.Regex

inductive Pattern (Symbol : Type) where
  | one (holds : Symbol → Bool)
  | many (holds : Symbol → Bool)
  | seq (first second : Pattern Symbol)
  | alt (first second : Pattern Symbol)
  | notBehind (holds : Symbol → Bool)
  | notAhead (classes : List (Symbol → Bool))

section Regex
variable {Symbol : Type}

def beginsWith : List (Symbol → Bool) → List Symbol → Bool
  | [], _ => true
  | _ :: _, [] => false
  | holds :: classes, symbol :: rest => holds symbol && beginsWith classes rest

/-- `matched` is a match between what is before it, newest first, and what is after it. -/
def Matches : Pattern Symbol → List Symbol → List Symbol → List Symbol → Prop
  | .one holds, _, matched, _ => ∃ symbol, matched = [symbol] ∧ holds symbol = true
  | .many holds, _, matched, _ => ∀ symbol ∈ matched, holds symbol = true
  | .seq first second, before, matched, after =>
      ∃ left right, matched = left ++ right ∧ Matches first before left (right ++ after) ∧
        Matches second (left.reverse ++ before) right after
  | .alt first second, before, matched, after =>
      Matches first before matched after ∨ Matches second before matched after
  | .notBehind holds, before, matched, _ =>
      matched = [] ∧ ∀ symbol, before.head? = some symbol → holds symbol = false
  | .notAhead classes, _, matched, after => matched = [] ∧ beginsWith classes after = false

/-- Every split of the text whose left part is of the class, after what is before. -/
def runMany (holds : Symbol → Bool) : List Symbol → List Symbol →
    List (List Symbol × List Symbol)
  | before, [] => [(before, [])]
  | before, symbol :: rest =>
      (before, symbol :: rest) ::
        if holds symbol then runMany holds (symbol :: before) rest else []

def ends : Pattern Symbol → List Symbol → List Symbol → List (List Symbol × List Symbol)
  | .one _, _, [] => []
  | .one holds, before, symbol :: rest => if holds symbol then [(symbol :: before, rest)] else []
  | .many holds, before, text => runMany holds before text
  | .seq first second, before, text =>
      (ends first before text).flatMap fun middle => ends second middle.1 middle.2
  | .alt first second, before, text => ends first before text ++ ends second before text
  | .notBehind holds, before, text =>
      if before.head?.any holds then [] else [(before, text)]
  | .notAhead classes, before, text => if beginsWith classes text then [] else [(before, text)]

variable {pattern : Pattern Symbol} {before text : List Symbol} {place : List Symbol × List Symbol}

theorem mem_runMany {holds : Symbol → Bool}
    :
    place ∈ runMany holds before text ↔
      ∃ matched, text = matched ++ place.2 ∧ place.1 = matched.reverse ++ before ∧
        ∀ symbol ∈ matched, holds symbol = true := by
  induction text generalizing before with
  | nil =>
      rw [runMany, List.mem_singleton]
      constructor
      · intro same
        rw [same]
        exact ⟨[], rfl, rfl, fun _ listed => absurd listed List.not_mem_nil⟩
      · intro given
        obtain ⟨matched, split, past, -⟩ := given
        obtain ⟨none, rest⟩ := List.append_eq_nil_iff.mp split.symm
        rw [none] at past
        exact Prod.ext past rest
  | cons symbol rest ih =>
      rw [runMany, List.mem_cons]
      constructor
      · intro reached
        obtain here | further := reached
        · rw [here]
          exact ⟨[], rfl, rfl, fun _ listed => absurd listed List.not_mem_nil⟩
        · cases of : holds symbol with
          | false => simp [of] at further
          | true =>
              rw [of, if_pos rfl] at further
              obtain ⟨matched, split, past, all⟩ := ih.mp further
              refine ⟨symbol :: matched, by rw [split, List.cons_append], ?_, ?_⟩
              · rw [past, List.reverse_cons, List.append_assoc, List.singleton_append]
              · intro other listed
                obtain same | later := List.mem_cons.mp listed
                · rw [same, of]
                · exact all other later
      · intro given
        obtain ⟨matched, split, past, all⟩ := given
        cases matched with
        | nil =>
            rw [List.nil_append] at split
            exact .inl (Prod.ext past split.symm)
        | cons first others =>
            rw [List.cons_append] at split
            obtain ⟨same, restSplit⟩ := List.cons_eq_cons.mp split
            have of : holds symbol = true := by
              rw [same]
              exact all first List.mem_cons_self
            rw [of, if_pos rfl]
            refine .inr (ih.mpr ⟨others, restSplit, ?_, fun other listed =>
              all other (List.mem_cons_of_mem first listed)⟩)
            rw [past, same, List.reverse_cons, List.append_assoc, List.singleton_append]

theorem mem_ends
    :
    place ∈ ends pattern before text ↔
      ∃ matched, text = matched ++ place.2 ∧ place.1 = matched.reverse ++ before ∧
        Matches pattern before matched place.2 := by
  induction pattern generalizing before text place with
  | one holds =>
      cases text with
      | nil =>
          rw [ends]
          constructor
          · intro none
            cases none
          · intro given
            obtain ⟨matched, split, -, symbol, single, -⟩ := given
            rw [single] at split
            cases split
      | cons symbol rest =>
          rw [ends]
          cases of : holds symbol with
          | true =>
              rw [if_pos rfl, List.mem_singleton]
              constructor
              · intro same
                rw [same]
                exact ⟨[symbol], rfl, rfl, symbol, rfl, of⟩
              · intro given
                obtain ⟨matched, split, past, other, single, -⟩ := given
                rw [single, List.singleton_append] at split
                obtain ⟨same, others⟩ := List.cons_eq_cons.mp split
                rw [single, ← same] at past
                exact Prod.ext past others.symm
          | false =>
              rw [if_neg Bool.false_ne_true]
              constructor
              · intro none
                cases none
              · intro given
                obtain ⟨matched, split, -, other, single, holdsOther⟩ := given
                rw [single, List.singleton_append] at split
                rw [← (List.cons_eq_cons.mp split).1, of] at holdsOther
                cases holdsOther
  | many holds => exact mem_runMany
  | seq first second ihFirst ihSecond =>
      rw [ends, List.mem_flatMap]
      constructor
      · intro given
        obtain ⟨middle, reached, ended⟩ := given
        obtain ⟨left, leftSplit, leftPast, leftMatches⟩ := ihFirst.mp reached
        obtain ⟨right, rightSplit, rightPast, rightMatches⟩ := ihSecond.mp ended
        refine ⟨left ++ right, ?_, ?_, left, right, rfl, ?_, ?_⟩
        · rw [leftSplit, rightSplit, List.append_assoc]
        · rw [rightPast, leftPast, List.reverse_append, List.append_assoc]
        · rwa [← rightSplit]
        · rwa [← leftPast]
      · intro given
        obtain ⟨matched, split, past, left, right, parts, leftMatches, rightMatches⟩ := given
        refine ⟨(left.reverse ++ before, right ++ place.2), ?_, ?_⟩
        · refine ihFirst.mpr ⟨left, ?_, rfl, leftMatches⟩
          rw [split, parts, List.append_assoc]
        · refine ihSecond.mpr ⟨right, rfl, ?_, rightMatches⟩
          rw [past, parts, List.reverse_append, List.append_assoc]
  | alt first second ihFirst ihSecond =>
      rw [ends, List.mem_append, ihFirst, ihSecond]
      constructor
      · intro either
        obtain ⟨matched, split, past, found⟩ | ⟨matched, split, past, found⟩ := either
        · exact ⟨matched, split, past, .inl found⟩
        · exact ⟨matched, split, past, .inr found⟩
      · intro given
        obtain ⟨matched, split, past, found⟩ := given
        obtain left | right := found
        · exact .inl ⟨matched, split, past, left⟩
        · exact .inr ⟨matched, split, past, right⟩
  | notBehind holds =>
      rw [ends]
      cases last : before.head? with
      | none =>
          rw [Option.any_none, if_neg Bool.false_ne_true, List.mem_singleton]
          constructor
          · intro same
            rw [same]
            exact ⟨[], rfl, rfl, rfl, by simp [last]⟩
          · intro given
            obtain ⟨matched, split, past, nothing, -⟩ := given
            rw [nothing] at split past
            exact Prod.ext past split.symm
      | some symbol =>
          rw [Option.any_some]
          cases of : holds symbol with
          | true =>
              rw [if_pos rfl]
              constructor
              · intro none
                cases none
              · intro given
                obtain ⟨matched, -, -, -, free⟩ := given
                rw [free symbol last] at of
                cases of
          | false =>
              rw [if_neg Bool.false_ne_true, List.mem_singleton]
              constructor
              · intro same
                rw [same]
                refine ⟨[], rfl, rfl, rfl, fun other there => ?_⟩
                rw [last] at there
                cases there
                exact of
              · intro given
                obtain ⟨matched, split, past, nothing, -⟩ := given
                rw [nothing] at split past
                exact Prod.ext past split.symm
  | notAhead classes =>
      rw [ends]
      cases begins : beginsWith classes text with
      | true =>
          rw [if_pos rfl]
          constructor
          · intro none
            cases none
          · intro given
            obtain ⟨matched, split, -, nothing, free⟩ := given
            rw [nothing, List.nil_append] at split
            rw [split, free] at begins
            cases begins
      | false =>
          rw [if_neg Bool.false_ne_true, List.mem_singleton]
          constructor
          · intro same
            rw [same]
            exact ⟨[], rfl, rfl, rfl, begins⟩
          · intro given
            obtain ⟨matched, split, past, nothing, -⟩ := given
            rw [nothing] at split past
            exact Prod.ext past split.symm

/-- A match that starts in the rest of a text. -/
def searchFrom (pattern : Pattern Symbol) : List Symbol → List Symbol → Bool
  | before, [] => !(ends pattern before []).isEmpty
  | before, symbol :: rest =>
      !(ends pattern before (symbol :: rest)).isEmpty || searchFrom pattern (symbol :: before) rest

def search (pattern : Pattern Symbol) (text : List Symbol) : Bool := searchFrom pattern [] text

theorem ends_nonempty :
    (!(ends pattern before text).isEmpty) = true ↔
      ∃ matched after, text = matched ++ after ∧ Matches pattern before matched after := by
  rw [Bool.not_eq_true', List.isEmpty_eq_false_iff_exists_mem]
  constructor
  · intro given
    obtain ⟨place, listed⟩ := given
    obtain ⟨matched, split, -, found⟩ := mem_ends.mp listed
    exact ⟨matched, place.2, split, found⟩
  · intro given
    obtain ⟨matched, after, split, found⟩ := given
    exact ⟨(matched.reverse ++ before, after), mem_ends.mpr ⟨matched, split, rfl, found⟩⟩

theorem searchFrom_iff {past text : List Symbol} :
    searchFrom pattern past text = true ↔
      ∃ before matched after, text = before ++ matched ++ after ∧
        Matches pattern (before.reverse ++ past) matched after := by
  induction text generalizing past with
  | nil =>
      rw [searchFrom, ends_nonempty]
      constructor
      · intro given
        obtain ⟨matched, after, split, found⟩ := given
        exact ⟨[], matched, after, split, found⟩
      · intro given
        obtain ⟨before, matched, after, split, found⟩ := given
        obtain ⟨front, back⟩ := List.append_eq_nil_iff.mp split.symm
        obtain ⟨nothing, none⟩ := List.append_eq_nil_iff.mp front
        rw [nothing] at found
        exact ⟨matched, after, by rw [none, back, List.append_nil], found⟩
  | cons symbol rest ih =>
      rw [searchFrom, Bool.or_eq_true, ends_nonempty, ih]
      constructor
      · intro either
        obtain ⟨matched, after, split, found⟩ | ⟨before, matched, after, split, found⟩ := either
        · exact ⟨[], matched, after, split, found⟩
        · refine ⟨symbol :: before, matched, after, by rw [split]; rfl, ?_⟩
          rwa [List.reverse_cons, List.append_assoc, List.singleton_append]
      · intro given
        obtain ⟨before, matched, after, split, found⟩ := given
        cases before with
        | nil => exact .inl ⟨matched, after, split, found⟩
        | cons first others =>
            obtain ⟨same, restSplit⟩ := List.cons_eq_cons.mp split
            rw [List.reverse_cons, List.append_assoc, List.singleton_append, ← same] at found
            exact .inr ⟨others, matched, after, restSplit, found⟩

theorem search_iff {text : List Symbol} :
    search pattern text = true ↔
      ∃ before matched after, text = before ++ matched ++ after ∧
        Matches pattern before.reverse matched after := by
  rw [search, searchFrom_iff]
  simp only [List.append_nil]

def literal [DecidableEq Symbol] : List Symbol → Pattern Symbol
  | [] => .many fun _ => false
  | symbol :: rest => .seq (.one (· = symbol)) (literal rest)

theorem matches_literal [DecidableEq Symbol] {text before matched after : List Symbol} :
    Matches (literal text) before matched after ↔ matched = text := by
  induction text generalizing before matched with
  | nil =>
      constructor
      · intro none
        cases matched with
        | nil => rfl
        | cons symbol rest => exact absurd (none symbol List.mem_cons_self) Bool.false_ne_true
      · intro same symbol listed
        rw [same] at listed
        cases listed
  | cons symbol rest ih =>
      constructor
      · intro given
        obtain ⟨left, right, split, ⟨other, single, same⟩, others⟩ := given
        rw [split, single, ih.mp others, of_decide_eq_true same]
        rfl
      · intro same
        exact ⟨[symbol], rest, same, ⟨symbol, rfl, decide_eq_true rfl⟩, ih.mpr rfl⟩

end Regex

end OdooSemantic.Lib.Regex
