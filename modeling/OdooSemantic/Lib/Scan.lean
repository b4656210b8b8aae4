import OdooSemantic.Lib.Regex

/-!
# All matches in a text

`finditer`: matches are taken from left to right, each from where the last one ended. What is
found at a place depends on the matches that start before it only through the ones that run
over it.
-/

set_option autoImplicit false

namespace OdooSemantic.Lib.Scan

open Lib.Regex

section Scan
variable (matchLen : Nat → Option Nat)

/-- The matches that start at one of the next positions, the first `skip` of them taken. -/
def scanFrom : Nat → Nat → Nat → List (Nat × Nat)
  | 0, _, _ => []
  | remaining + 1, skip + 1, position => scanFrom remaining skip (position + 1)
  | remaining + 1, 0, position =>
      match matchLen position with
      | some len => (position, len) :: scanFrom remaining (len - 1) (position + 1)
      | none => scanFrom remaining 0 (position + 1)

variable {matchLen}

/-- When a match that starts inside another one ends in it, a match is found exactly when no
match that starts before it runs over its start. -/
theorem mem_scanFrom (positive : ∀ position len, matchLen position = some len → 0 < len)
    (nested : ∀ first second len other, matchLen first = some len →
      matchLen second = some other → first < second → second < first + len →
      second + other ≤ first + len)
    {remaining skip position start len : Nat} :
    (start, len) ∈ scanFrom matchLen remaining skip position ↔
      position + skip ≤ start ∧ start < position + remaining ∧ matchLen start = some len ∧
        ∀ earlier other, position + skip ≤ earlier → earlier < start →
          matchLen earlier = some other → earlier + other ≤ start := by
  induction remaining generalizing skip position with
  | zero =>
      rw [scanFrom]
      constructor
      · intro none
        cases none
      · intro given
        obtain ⟨after, before, -⟩ := given
        omega
  | succ remaining ih =>
      cases skip with
      | succ skip =>
          have same : position + 1 + skip = position + (skip + 1) := by omega
          rw [scanFrom, ih, same]
          constructor
          · intro given
            obtain ⟨after, before, found, free⟩ := given
            exact ⟨after, by omega, found, free⟩
          · intro given
            obtain ⟨after, before, found, free⟩ := given
            exact ⟨after, by omega, found, free⟩
      | zero =>
          cases here : matchLen position with
          | none =>
              rw [scanFrom]
              simp only [here]
              rw [ih]
              constructor
              · intro given
                obtain ⟨after, before, found, free⟩ := given
                refine ⟨by omega, by omega, found, fun earlier other since below matched => ?_⟩
                by_cases first : earlier = position
                · rw [first, here] at matched
                  cases matched
                · exact free earlier other (by omega) below matched
              · intro given
                obtain ⟨after, before, found, free⟩ := given
                have other : start ≠ position := by
                  intro same
                  rw [same, here] at found
                  cases found
                exact ⟨by omega, by omega, found, fun earlier other since below matched =>
                  free earlier other (by omega) below matched⟩
          | some first =>
              have some := positive position first here
              have next : position + 1 + (first - 1) = position + first := by omega
              rw [scanFrom]
              simp only [here]
              rw [List.mem_cons, ih, next, Prod.mk.injEq]
              constructor
              · intro given
                obtain ⟨same, sameLen⟩ | ⟨after, before, found, free⟩ := given
                · rw [same, sameLen]
                  exact ⟨by omega, by omega, here, fun earlier other since below _ => by omega⟩
                · refine ⟨by omega, by omega, found, fun earlier other since below matched => ?_⟩
                  by_cases inside : earlier < position + first
                  · by_cases begins : earlier = position
                    · rw [begins, here] at matched
                      cases matched
                      omega
                    · have ends := nested position earlier first other here matched
                        (by omega) inside
                      omega
                  · exact free earlier other (by omega) below matched
              · intro given
                obtain ⟨after, before, found, free⟩ := given
                by_cases begins : start = position
                · rw [begins, here] at found
                  cases found
                  exact .inl ⟨begins, rfl⟩
                · have past := free position first (by omega) (by omega) here
                  exact .inr ⟨past, by omega, found, fun earlier other since below matched =>
                    free earlier other (by omega) below matched⟩

/-- Each place is found at most once, in order. -/
theorem scanFrom_sorted (remaining skip position : Nat) :
    (scanFrom matchLen remaining skip position).Pairwise (fun left right => left.1 < right.1) ∧
      ∀ found ∈ scanFrom matchLen remaining skip position, position ≤ found.1 := by
  induction remaining generalizing skip position with
  | zero => exact ⟨.nil, fun _ listed => absurd listed List.not_mem_nil⟩
  | succ remaining ih =>
      cases skip with
      | succ skip =>
          obtain ⟨sorted, after⟩ := ih skip (position + 1)
          exact ⟨sorted, fun found listed => Nat.le_of_succ_le (after found listed)⟩
      | zero =>
          rw [scanFrom]
          cases here : matchLen position with
          | none =>
              obtain ⟨sorted, after⟩ := ih 0 (position + 1)
              exact ⟨sorted, fun found listed => Nat.le_of_succ_le (after found listed)⟩
          | some first =>
              obtain ⟨sorted, after⟩ := ih (first - 1) (position + 1)
              refine ⟨List.pairwise_cons.mpr ⟨fun found listed => after found listed, sorted⟩, ?_⟩
              intro found listed
              obtain same | later := List.mem_cons.mp listed
              · exact Nat.le_of_eq (by rw [same])
              · exact Nat.le_of_succ_le (after found later)

theorem filter_scanFrom {remaining skip position start len : Nat}
    (found : (start, len) ∈ scanFrom matchLen remaining skip position) :
    (scanFrom matchLen remaining skip position).filter (fun one => one.1 == start) =
      [(start, len)] := by
  obtain ⟨front, back, split⟩ := List.append_of_mem found
  have sorted := (@scanFrom_sorted matchLen remaining skip position).1
  rw [split] at sorted ⊢
  obtain ⟨-, tail, across⟩ := List.pairwise_append.mp sorted
  obtain ⟨later, -⟩ := List.pairwise_cons.mp tail
  have noneFront : front.filter (fun one => one.1 == start) = [] := by
    refine List.filter_eq_nil_iff.mpr fun one listed same => ?_
    have before := across one listed (start, len) List.mem_cons_self
    rw [eq_of_beq same] at before
    exact Nat.lt_irrefl _ before
  have noneBack : back.filter (fun one => one.1 == start) = [] := by
    refine List.filter_eq_nil_iff.mpr fun one listed same => ?_
    have after := later one listed
    rw [eq_of_beq same] at after
    exact Nat.lt_irrefl _ after
  rw [List.filter_append, noneFront, List.nil_append, List.filter_cons,
    if_pos (beq_self_eq_true start), noneBack]

end Scan

section Pattern
variable {Symbol : Type} (pattern : Pattern Symbol) (text : List Symbol)

def matchLen (position : Nat) : Option Nat :=
  ((ends pattern (text.take position).reverse (text.drop position)).head?).map fun place =>
    place.1.length - (text.take position).length

/-- `pattern.finditer(text)`: start and length of each match. -/
def finditer : List (Nat × Nat) := scanFrom (matchLen pattern text) text.length 0 0

/-- `pattern.match(text)`. -/
def matchesAtStart : Bool := (matchLen pattern text 0).isSome

variable {pattern text}

theorem matchLen_some {position len : Nat} (found : matchLen pattern text position = some len) :
    ∃ matched after, text.drop position = matched ++ after ∧ matched.length = len ∧
      Matches pattern (text.take position).reverse matched after := by
  rw [matchLen, Option.map_eq_some_iff] at found
  obtain ⟨place, first, length⟩ := found
  obtain ⟨matched, split, past, meets⟩ := mem_ends.mp (List.mem_of_head? first)
  refine ⟨matched, place.2, split, ?_, meets⟩
  rw [← length, past, List.length_append, List.length_reverse, List.length_reverse]
  omega

theorem matchLen_of_unique {position len : Nat}
    (unique : ∀ matched after, text.drop position = matched ++ after →
      Matches pattern (text.take position).reverse matched after → matched.length = len)
    {matched after : List Symbol} (split : text.drop position = matched ++ after)
    (meets : Matches pattern (text.take position).reverse matched after) :
    matchLen pattern text position = some len := by
  have listed : (matched.reverse ++ (text.take position).reverse, after) ∈
      ends pattern (text.take position).reverse (text.drop position) :=
    mem_ends.mpr ⟨matched, split, rfl, meets⟩
  cases first : (ends pattern (text.take position).reverse (text.drop position)).head? with
  | none =>
      rw [List.head?_eq_none_iff] at first
      rw [first] at listed
      cases listed
  | some place =>
      obtain ⟨other, splitOther, past, meetsOther⟩ := mem_ends.mp (List.mem_of_head? first)
      have same := unique other place.2 splitOther meetsOther
      rw [matchLen, first, Option.map_some, past, List.length_append, List.length_reverse,
        List.length_reverse, ← same]
      congr 1
      omega

theorem mem_finditer
    (positive : ∀ position len, matchLen pattern text position = some len → 0 < len)
    (nested : ∀ first second len other, matchLen pattern text first = some len →
      matchLen pattern text second = some other → first < second → second < first + len →
      second + other ≤ first + len) {start len : Nat} :
    (start, len) ∈ finditer pattern text ↔
      start < text.length ∧ matchLen pattern text start = some len ∧
        ¬ ∃ earlier other, earlier < start ∧ matchLen pattern text earlier = some other ∧
          start < earlier + other := by
  rw [finditer, mem_scanFrom positive nested]
  constructor
  · intro given
    obtain ⟨-, inside, found, free⟩ := given
    refine ⟨by omega, found, fun spanned => ?_⟩
    obtain ⟨earlier, other, below, matched, past⟩ := spanned
    have before := free earlier other (by omega) below matched
    omega
  · intro given
    obtain ⟨inside, found, free⟩ := given
    refine ⟨by omega, by omega, found, fun earlier other _ below matched => ?_⟩
    by_contra past
    exact free ⟨earlier, other, below, matched, by omega⟩

end Pattern

section Classes
variable {Symbol : Type} {holds : Symbol → Bool}

/-- Two splits of one text after a run of a class are the same split. -/
theorem run_unique {left right afterLeft afterRight : List Symbol}
    (same : left ++ afterLeft = right ++ afterRight)
    (allLeft : ∀ symbol ∈ left, holds symbol = true)
    (allRight : ∀ symbol ∈ right, holds symbol = true)
    (stopLeft : ∀ symbol, afterLeft.head? = some symbol → holds symbol = false)
    (stopRight : ∀ symbol, afterRight.head? = some symbol → holds symbol = false) :
    left = right ∧ afterLeft = afterRight := by
  induction left generalizing right with
  | nil =>
      cases right with
      | nil => exact ⟨rfl, same⟩
      | cons symbol others =>
          rw [List.nil_append] at same
          have stop := stopLeft symbol (by rw [same]; rfl)
          rw [allRight symbol List.mem_cons_self] at stop
          cases stop
  | cons symbol others ih =>
      cases right with
      | nil =>
          rw [List.nil_append] at same
          have stop := stopRight symbol (by rw [← same]; rfl)
          rw [allLeft symbol List.mem_cons_self] at stop
          cases stop
      | cons other rest =>
          rw [List.cons_append, List.cons_append] at same
          obtain ⟨head, tail⟩ := List.cons_eq_cons.mp same
          obtain ⟨runs, afters⟩ := ih tail
            (fun one listed => allLeft one (List.mem_cons_of_mem _ listed))
            (fun one listed => allRight one (List.mem_cons_of_mem _ listed))
          exact ⟨by rw [head, runs], afters⟩

theorem split_run {run after : List Symbol} (all : ∀ symbol ∈ run, holds symbol = true)
    (stop : ∀ symbol, after.head? = some symbol → holds symbol = false) :
    (run ++ after).takeWhile holds = run ∧ (run ++ after).dropWhile holds = after := by
  rw [List.takeWhile_append_of_pos all, List.dropWhile_append_of_pos all]
  cases after with
  | nil => exact ⟨List.append_nil run, rfl⟩
  | cons symbol rest =>
      have off : ¬ holds symbol = true := by
        rw [stop symbol rfl]
        exact Bool.false_ne_true
      rw [List.takeWhile_cons_of_neg off, List.dropWhile_cons_of_neg off, List.append_nil]
      exact ⟨rfl, rfl⟩

/-- What stands before a symbol goes on past a text without the symbol. -/
theorem free_append {symbol : Symbol} {free rest left right : List Symbol}
    (absent : symbol ∉ free) (same : free ++ rest = left ++ symbol :: right) :
    ∃ further, left = free ++ further ∧ rest = further ++ symbol :: right := by
  induction free generalizing left with
  | nil => exact ⟨left, rfl, same⟩
  | cons first others ih =>
      cases left with
      | nil =>
          have head := (List.cons_eq_cons.mp same).1
          exact absurd (by rw [head]; exact List.mem_cons_self) absent
      | cons other front =>
          rw [List.cons_append, List.cons_append] at same
          obtain ⟨head, tail⟩ := List.cons_eq_cons.mp same
          obtain ⟨further, leftParts, restParts⟩ :=
            ih (fun listed => absent (List.mem_cons_of_mem _ listed)) tail
          exact ⟨further, by rw [head, leftParts, List.cons_append], restParts⟩

end Classes

end OdooSemantic.Lib.Scan
