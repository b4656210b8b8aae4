import Mathlib.Data.List.Basic

/-!
# Counting brackets

A counter goes up at an opening bracket and down at a closing one; a block ends where it first
comes back to zero.
-/

set_option autoImplicit false

namespace OdooSemantic.Lib.Nesting

section Nesting
variable {Symbol : Type} [DecidableEq Symbol] (opening closing : Symbol)

def step (symbol : Symbol) : Int :=
  if symbol = opening then 1 else if symbol = closing then -1 else 0

/-- How much the counter changes over a text. -/
def net : List Symbol → Int
  | [] => 0
  | symbol :: rest => step opening closing symbol + net rest

def closeAt : Int → List Symbol → Option Nat
  | _, [] => none
  | depth, symbol :: rest =>
      if symbol = opening then (closeAt (depth + 1) rest).map (· + 1)
      else if symbol = closing then
        if depth - 1 = 0 then some 1 else (closeAt (depth - 1) rest).map (· + 1)
      else (closeAt depth rest).map (· + 1)

/-- The counter is above zero all through a text and ends at `last`. -/
def StaysOpen (depth last : Int) (text : List Symbol) : Prop :=
  (∀ count, 0 < depth + net opening closing (text.take count)) ∧
    depth + net opening closing text = last

variable {opening closing}

theorem staysOpen_nil {depth last : Int} :
    StaysOpen opening closing depth last [] ↔ 0 < depth ∧ depth = last := by
  constructor
  · intro stays
    obtain ⟨above, ends⟩ := stays
    have here := above 0
    rw [List.take_nil, net] at here
    rw [net] at ends
    exact ⟨by omega, by omega⟩
  · intro given
    obtain ⟨above, same⟩ := given
    refine ⟨fun count => ?_, ?_⟩
    · rw [List.take_nil, net]
      omega
    · rw [net]
      omega

theorem staysOpen_cons {depth last : Int} {symbol : Symbol} {rest : List Symbol} :
    StaysOpen opening closing depth last (symbol :: rest) ↔
      0 < depth ∧ StaysOpen opening closing (depth + step opening closing symbol) last rest := by
  constructor
  · intro stays
    obtain ⟨above, ends⟩ := stays
    have here := above 0
    rw [List.take_zero, net] at here
    refine ⟨by omega, fun count => ?_, ?_⟩
    · have later := above (count + 1)
      rw [List.take_succ_cons, net] at later
      omega
    · rw [net] at ends
      omega
  · intro given
    obtain ⟨here, above, ends⟩ := given
    refine ⟨fun count => ?_, ?_⟩
    · cases count with
      | zero =>
          rw [List.take_zero, net]
          omega
      | succ count =>
          have later := above count
          rw [List.take_succ_cons, net]
          omega
    · rw [net]
      omega

theorem closeAt_some {depth : Int} {text : List Symbol} {count : Nat}
    (found : closeAt opening closing depth text = some count) :
    ∃ front back, text = front ++ closing :: back ∧ count = front.length + 1 := by
  induction text generalizing depth count with
  | nil => cases found
  | cons symbol rest ih =>
      have further : ∀ {level : Int},
          (closeAt opening closing level rest).map (· + 1) = some count →
            ∃ front back, symbol :: rest = front ++ closing :: back ∧
              count = front.length + 1 := by
        intro level later
        rw [Option.map_eq_some_iff] at later
        obtain ⟨fewer, later, same⟩ := later
        obtain ⟨front, back, split, length⟩ := ih later
        refine ⟨symbol :: front, back, by rw [split, List.cons_append], ?_⟩
        rw [List.length_cons, ← length, same]
      rw [closeAt] at found
      split at found
      · exact further found
      · split at found
        · rename_i closes
          split at found
          · cases found
            exact ⟨[], rest, by rw [closes, List.nil_append], rfl⟩
          · exact further found
        · exact further found

/-- A block ends right after a text exactly when the counter stays above zero over it and the
closing bracket after it takes the last level. -/
theorem closeAt_append_iff (apart : opening ≠ closing) {depth : Int} (open_ : 0 < depth)
    (text after : List Symbol) :
    closeAt opening closing depth (text ++ closing :: after) = some (text.length + 1) ↔
      StaysOpen opening closing depth 1 text := by
  induction text generalizing depth with
  | nil =>
      rw [staysOpen_nil, List.nil_append, closeAt, if_neg apart.symm, if_pos rfl, List.length_nil]
      constructor
      · intro closes
        split at closes
        · exact ⟨open_, by omega⟩
        · rw [Option.map_eq_some_iff] at closes
          obtain ⟨more, found, zero⟩ := closes
          have none : more = 0 := by omega
          rw [none] at found
          cases after with
          | nil => cases found
          | cons next others =>
              rw [closeAt] at found
              split at found
              · rw [Option.map_eq_some_iff] at found
                obtain ⟨_, -, wrong⟩ := found
                omega
              · split at found
                · split at found
                  · cases found
                  · rw [Option.map_eq_some_iff] at found
                    obtain ⟨_, -, wrong⟩ := found
                    omega
                · rw [Option.map_eq_some_iff] at found
                  obtain ⟨_, -, wrong⟩ := found
                  omega
      · intro given
        rw [if_pos (by omega)]
  | cons symbol rest ih =>
      have further : ∀ {next : Int}, 0 < next →
          ((closeAt opening closing next (rest ++ closing :: after)).map (· + 1) =
            some ((symbol :: rest).length + 1) ↔ StaysOpen opening closing next 1 rest) := by
        intro next above
        rw [← ih above, Option.map_eq_some_iff, List.length_cons]
        constructor
        · intro found
          obtain ⟨count, found, same⟩ := found
          rw [found]
          congr 1
          omega
        · intro found
          exact ⟨_, found, rfl⟩
      rw [staysOpen_cons, List.cons_append, closeAt]
      by_cases opens : symbol = opening
      · rw [if_pos opens, further (by omega), step, if_pos opens]
        exact ⟨fun stays => ⟨open_, stays⟩, fun both => both.2⟩
      · rw [if_neg opens]
        by_cases closes : symbol = closing
        · rw [if_pos closes, step, if_neg opens, if_pos closes]
          by_cases last : depth - 1 = 0
          · rw [if_pos last, List.length_cons]
            constructor
            · intro wrong
              rw [Option.some.injEq] at wrong
              omega
            · intro both
              have above := both.2.1 0
              rw [List.take_zero, net] at above
              omega
          · rw [if_neg last, further (by omega)]
            exact ⟨fun stays => ⟨open_, stays⟩, fun both => both.2⟩
        · rw [if_neg closes, further open_, step, if_neg opens, if_neg closes, Int.add_zero]
          exact ⟨fun stays => ⟨open_, stays⟩, fun both => both.2⟩

/-- A block never ends exactly when the counter stays above zero to the end of the text. -/
theorem closeAt_none_iff {depth : Int} (open_ : 0 < depth)
    (text : List Symbol) :
    closeAt opening closing depth text = none ↔
      ∀ count, 0 < depth + net opening closing (text.take count) := by
  have stays : ∀ rest : List Symbol, ∀ level : Int,
      (∀ count, 0 < level + net opening closing (rest.take count)) ↔
        StaysOpen opening closing level (level + net opening closing rest) rest :=
    fun rest level => ⟨fun above => ⟨above, rfl⟩, fun both => both.1⟩
  induction text generalizing depth with
  | nil =>
      refine ⟨fun _ count => ?_, fun _ => rfl⟩
      rw [List.take_nil, net]
      omega
  | cons symbol rest ih =>
      rw [stays, staysOpen_cons, closeAt]
      have shift : depth + net opening closing (symbol :: rest) =
          depth + step opening closing symbol + net opening closing rest := by
        rw [net]
        omega
      have further : ∀ {level : Int}, 0 < level →
          ((closeAt opening closing level rest).map (· + 1) = none ↔
            ∀ count, 0 < level + net opening closing (rest.take count)) := by
        intro level above
        rw [Option.map_eq_none_iff]
        exact ih above
      rw [shift, ← stays]
      by_cases opens : symbol = opening
      · rw [if_pos opens, further (by omega), step, if_pos opens]
        exact ⟨fun above => ⟨open_, above⟩, fun both => both.2⟩
      · rw [if_neg opens]
        by_cases closes : symbol = closing
        · rw [if_pos closes, step, if_neg opens, if_pos closes]
          by_cases last : depth - 1 = 0
          · rw [if_pos last]
            constructor
            · intro wrong
              cases wrong
            · intro both
              have above := both.2 0
              rw [List.take_zero, net] at above
              omega
          · rw [if_neg last, further (by omega)]
            exact ⟨fun above => ⟨open_, above⟩, fun both => both.2⟩
        · rw [if_neg closes, further open_, step, if_neg opens, if_neg closes,
            Int.add_zero]
          exact ⟨fun above => ⟨open_, above⟩, fun both => both.2⟩

variable (opening closing) in
/-- Text in which every bracket has its partner. -/
inductive Balanced : List Symbol → Prop where
  | nothing : Balanced []
  | plain {symbol : Symbol} {rest : List Symbol} (noOpening : symbol ≠ opening)
      (noClosing : symbol ≠ closing) (balanced : Balanced rest) : Balanced (symbol :: rest)
  | brackets {inner rest : List Symbol} (inside : Balanced inner) (balanced : Balanced rest) :
      Balanced (opening :: (inner ++ closing :: rest))

theorem staysOpen_append {depth middle last : Int} {left right : List Symbol}
    (first : StaysOpen opening closing depth middle left)
    (second : StaysOpen opening closing middle last right) :
    StaysOpen opening closing depth last (left ++ right) := by
  induction left generalizing depth with
  | nil =>
      obtain ⟨-, same⟩ := staysOpen_nil.mp first
      rwa [same]
  | cons symbol rest ih =>
      obtain ⟨above, further⟩ := staysOpen_cons.mp first
      exact staysOpen_cons.mpr ⟨above, ih further⟩

theorem balanced_staysOpen (apart : opening ≠ closing) {text : List Symbol}
    (balanced : Balanced opening closing text) {depth : Int} (above : 0 < depth) :
    StaysOpen opening closing depth depth text := by
  induction balanced generalizing depth with
  | nothing => exact staysOpen_nil.mpr ⟨above, rfl⟩
  | @plain symbol rest noOpening noClosing balanced ih =>
      have still : step opening closing symbol = 0 := by
        rw [step, if_neg noOpening, if_neg noClosing]
      refine staysOpen_cons.mpr ⟨above, ?_⟩
      rw [still, Int.add_zero]
      exact ih above
  | @brackets inner rest inside balanced ihInside ih =>
      have up : step opening closing opening = 1 := by rw [step, if_pos rfl]
      have down : step opening closing closing = -1 := by
        rw [step, if_neg apart.symm, if_pos rfl]
      refine staysOpen_cons.mpr ⟨above, ?_⟩
      rw [up]
      refine staysOpen_append (ihInside (by omega)) (staysOpen_cons.mpr ⟨by omega, ?_⟩)
      have back : depth + 1 + step opening closing closing = depth := by
        rw [down]
        omega
      rw [back]
      exact ih above

end Nesting

end OdooSemantic.Lib.Nesting
