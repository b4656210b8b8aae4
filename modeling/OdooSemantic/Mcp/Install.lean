import Mathlib.Data.Finset.Card
import Mathlib.Data.String.Basic
import OdooSemantic.Lib.Closure
import OdooSemantic.Lib.Py

/-!
# What an install pulls in

Installing modules marks their depends closure; then every auto-install module whose triggers
are in the set joins with its own closure, round after round.  The rounds are compared with
the least set that is closed under this rule.
-/

set_option autoImplicit false

namespace OdooSemantic.Mcp.Install

open Lib.Closure Lib.Py

/-- What the lookups know of a module; `triggers` is `none` when it is not auto-installable. -/
structure ModuleRow where
  name : String
  available : Bool
  depends : List String
  triggers : Option (List String)
  countries : List String

structure Universe where
  modules : List ModuleRow
  distinct : (modules.map ModuleRow.name).Nodup

def Universe.find (u : Universe) (name : String) : Option ModuleRow :=
  u.modules.find? (·.name == name)

/-- `depends_of` of one name: an unknown module is not available. -/
def Universe.dependsOf (u : Universe) (name : String) : Bool × List String :=
  match u.find name with
  | some row => (row.available, row.depends)
  | none => (false, [])

def Universe.Available (u : Universe) (name : String) : Prop := (u.dependsOf name).1 = true

instance (u : Universe) (name : String) : Decidable (u.Available name) :=
  inferInstanceAs (Decidable (_ = true))

def Universe.deps (u : Universe) (name : String) : List String := (u.dependsOf name).2

structure Candidate where
  name : String
  triggers : List String
  countries : List String
  deriving DecidableEq

def listed (installed excluded : Finset String) (row : ModuleRow) : Option Candidate :=
  match row.triggers with
  | some triggers =>
      if row.available ∧ row.name ∉ installed ∧ row.name ∉ excluded ∧
          ∀ trigger ∈ triggers, trigger ∈ installed then
        some { name := row.name, triggers, countries := row.countries }
      else none
  | none => none

def Universe.candidates (u : Universe) (installed excluded : Finset String) : List Candidate :=
  u.modules.filterMap (listed installed excluded)

structure CandidateLookup (u : Universe) where
  rows : Finset String → Finset String → List Candidate
  lists : ∀ installed excluded, (rows installed excluded).Perm (u.candidates installed excluded)

structure Walk where
  seen : List String
  order : List String
  missing : Option String
  nextFrontier : List String

section DependsClosure
variable (u : Universe) (known : Finset String)

def visit (walk : Walk) (name : String) : Walk :=
  if name ∈ walk.seen then walk
  else if u.Available name then
    { seen := name :: walk.seen
      order := walk.order ++ [name]
      missing := walk.missing
      nextFrontier := walk.nextFrontier ++
        (u.deps name).filter fun dep => dep ∉ known ∧ dep ∉ name :: walk.seen }
  else { walk with seen := name :: walk.seen, missing := walk.missing.or (some name) }

def hop (walk : Walk) (frontier : List String) : Walk :=
  frontier.foldl (visit u known) { walk with nextFrontier := [] }

/-- `sorted(set(next_frontier) - seen)`. -/
def Walk.frontier (walk : Walk) : List String :=
  sortedSet (walk.nextFrontier.filter (· ∉ walk.seen))

/-- The loop, for at most this many frontiers. -/
def hops : Nat → Walk → List String → Walk
  | _, walk, [] => walk
  | 0, walk, _ => walk
  | turns + 1, walk, name :: rest =>
      let walk := hop u known walk (name :: rest)
      hops turns walk walk.frontier

/-- `_depends_closure`: every frontier but the last finds an available module. -/
def dependsClosure (start : List String) : List String × Option String :=
  let walk := hops u known (u.modules.length + 1) ⟨[], [], none, []⟩
    (start.eraseDups.filter (· ∉ known))
  (walk.order, walk.missing)

end DependsClosure

structure AutoInstalled where
  name : String
  round : Nat
  triggers : List String
  requiredBy : Option String

/-- The arguments of `_fixpoint` that do not change. -/
structure Mode where
  requireNew : Bool
  record : Bool
  countryGate : Bool

/-- What `_fixpoint` mutates: the three sets and the fields of the result. -/
structure Progress where
  installed : Finset String
  newly : Finset String
  rejected : Finset String
  auto : List AutoInstalled
  unsatisfiable : List (String × String)
  countryConditional : List (String × List String)

/-- `tuple(sorted(set(…)))` of the triggers and of the countries. -/
def Candidate.normal (row : Candidate) : Candidate :=
  { row with triggers := sortedSet row.triggers, countries := sortedSet row.countries }

/-- The first loop of a round: which rows are accepted, and which the country gate rejects. -/
def screen (mode : Mode) (progress : Progress × List Candidate) (row : Candidate) :
    Progress × List Candidate :=
  let (now, accepted) := progress
  if row.name ∈ now.installed ∨ row.name ∈ now.rejected then progress
  else if ¬ ∀ trigger ∈ row.triggers, trigger ∈ now.installed then progress
  else if mode.requireNew ∧ ¬ ∃ trigger ∈ row.triggers, trigger ∈ now.newly then progress
  else if mode.countryGate ∧ row.countries ≠ [] then
    ({ now with
      rejected := insert row.name now.rejected
      countryConditional :=
        if mode.record then now.countryConditional ++ [(row.name, row.countries)]
        else now.countryConditional }, accepted)
  else (now, accepted ++ [row])

section Fixpoint
variable {u : Universe} (lookup : CandidateLookup u) (mode : Mode)

def sortedRows (now : Progress) : List Candidate :=
  ((lookup.rows now.installed now.rejected).map Candidate.normal).insertionSort
    fun first second => first.name ≤ second.name

def admitRow (u : Universe) (mode : Mode) (round : Nat) (acceptedNames : List String)
    (progress : Progress × Finset String) (row : Candidate) : Progress × Finset String :=
  let (now, added) := progress
  let (closure, missing) := dependsClosure u (now.installed ∪ added) [row.name]
  match missing with
  | some missing =>
      ({ now with
        rejected := insert row.name now.rejected
        unsatisfiable :=
          if mode.record then now.unsatisfiable ++ [(row.name, missing)] else now.unsatisfiable },
        added)
  | none =>
      ({ now with
        auto :=
          if mode.record then
            now.auto ++ ⟨row.name, round, row.triggers, none⟩ ::
              ((sorted closure).filter fun dep => dep ≠ row.name ∧ dep ∉ acceptedNames).map
                fun dep => ⟨dep, round, [], some row.name⟩
          else now.auto },
        added ∪ closure.toFinset)

/-- The rounds `_fixpoint` has left, and whether the cap was hit. -/
def fixpoint : Nat → Nat → Progress → Progress × Bool
  | 0, _, now => (now, true)
  | left + 1, round, now =>
      let (now, accepted) := (sortedRows lookup now).foldl (screen mode) (now, [])
      if accepted = [] then (now, false)
      else
        let (now, added) :=
          accepted.foldl (admitRow u mode round (accepted.map Candidate.name)) (now, ∅)
        if added = ∅ then (now, false)
        else fixpoint left (round + 1)
          { now with installed := now.installed ∪ added, newly := now.newly ∪ added }

end Fixpoint

def baselineRoot : String := "base"

structure Baseline where
  installed : Finset String
  rejected : Finset String
  truncated : Bool

structure InstallSet where
  roots : List String
  installed : Finset String
  baseline : Finset String
  auto : List AutoInstalled
  unsatisfiable : List (String × String)
  countryConditional : List (String × List String)
  truncated : Bool

def InstallSet.answer (result : InstallSet) : InstallSet := { result with roots := [] }

/-- The sets before the first round. -/
def Progress.initial (installed newly rejected : Finset String) : Progress :=
  { installed, newly, rejected, auto := [], unsatisfiable := [], countryConditional := [] }

section Resolve
variable {u : Universe} (lookup : CandidateLookup u)

def computeBaseline (maxRounds : Nat) : Baseline :=
  let closure := (dependsClosure u ∅ [baselineRoot]).1.toFinset
  let (now, truncated) := fixpoint lookup ⟨false, false, false⟩ maxRounds 1
    (.initial closure closure ∅)
  { installed := now.installed, rejected := now.rejected, truncated }

/-- The baseline an install starts from: installing `base` is database creation. -/
def startingBaseline (roots : List String) (maxRounds : Nat) (baseline : Option Baseline) :
    Baseline :=
  if baselineRoot ∈ roots then ⟨∅, ∅, false⟩
  else baseline.getD (computeBaseline lookup maxRounds)

def resolveInstallSet (roots : List String) (maxRounds : Nat) (countryGate : Bool)
    (baseline : Option Baseline) : InstallSet :=
  let roots := roots.eraseDups
  let isCreation := baselineRoot ∈ roots
  let base := startingBaseline lookup roots maxRounds baseline
  let newly := (dependsClosure u base.installed roots).1.toFinset
  let (now, capped) := fixpoint lookup
    ⟨!decide isCreation, true, countryGate && !decide isCreation⟩ maxRounds 1
    (.initial (base.installed ∪ newly) newly base.rejected)
  { roots
    installed := now.installed
    baseline := base.installed
    auto := now.auto
    unsatisfiable := now.unsatisfiable
    countryConditional := now.countryConditional
    truncated := base.truncated || capped }

end Resolve

section Closure
variable {u : Universe} {known : Finset String} {start : List String}

def Found (u : Universe) (known : Finset String) (start : List String) (name : String) : Prop :=
  Reached u.deps u.Available (known : Set String) start name

/-- Everything found is seen or still to be visited, and nothing else is. -/
structure WalkInv (u : Universe) (known : Finset String) (start : List String) (walk : Walk)
    (pending : List String) : Prop where
  found : ∀ name, name ∈ walk.seen ∨ name ∈ pending ∨ name ∈ walk.nextFrontier →
    Found u known start name
  starts : ∀ name ∈ start, name ∉ known →
    name ∈ walk.seen ∨ name ∈ pending ∨ name ∈ walk.nextFrontier
  steps : ∀ name ∈ walk.seen, u.Available name → ∀ dep ∈ u.deps name, dep ∉ known →
    dep ∈ walk.seen ∨ dep ∈ pending ∨ dep ∈ walk.nextFrontier
  order : ∀ name, name ∈ walk.order ↔ name ∈ walk.seen ∧ u.Available name
  complete : walk.missing = none → ∀ name ∈ walk.seen, u.Available name
  lacks : ∀ name, walk.missing = some name → name ∈ walk.seen ∧ ¬ u.Available name

variable {name : String}

theorem visit_inv {walk : Walk} {pending : List String}
    (inv : WalkInv u known start walk (name :: pending)) :
    WalkInv u known start (visit u known walk name) pending := by
  have nameFound : Found u known start name := inv.found name (by simp)
  by_cases isSeen : name ∈ walk.seen
  · rw [visit, if_pos isSeen]
    have drop : ∀ other, other ∈ walk.seen ∨ other ∈ name :: pending ∨ other ∈ walk.nextFrontier →
        other ∈ walk.seen ∨ other ∈ pending ∨ other ∈ walk.nextFrontier := by
      rintro other (seen | isPending | later)
      · exact Or.inl seen
      · rcases List.mem_cons.mp isPending with rfl | rest
        · exact Or.inl isSeen
        · exact Or.inr (Or.inl rest)
      · exact Or.inr (Or.inr later)
    refine ⟨fun other listed => inv.found other ?_, fun other listed fresh =>
      drop other (inv.starts other listed fresh), fun other seen isOpen dep listed fresh =>
      drop dep (inv.steps other seen isOpen dep listed fresh), inv.order, inv.complete, inv.lacks⟩
    rcases listed with seen | isPending | later
    · exact Or.inl seen
    · exact Or.inr (Or.inl (List.mem_cons_of_mem _ isPending))
    · exact Or.inr (Or.inr later)
  · by_cases isOpen : u.Available name
    · rw [visit, if_neg isSeen, if_pos isOpen]
      have drop : ∀ other,
          other ∈ walk.seen ∨ other ∈ name :: pending ∨ other ∈ walk.nextFrontier →
          other ∈ name :: walk.seen ∨ other ∈ pending ∨ other ∈ walk.nextFrontier ++
            (u.deps name).filter fun dep => dep ∉ known ∧ dep ∉ name :: walk.seen := by
        intro other cases
        simp only [List.mem_cons, List.mem_append] at cases ⊢
        tauto
      refine ⟨?_, fun other listed fresh => drop other (inv.starts other listed fresh), ?_, ?_, ?_,
        ?_⟩
      · intro other listed
        simp only [List.mem_cons, List.mem_append, List.mem_filter, decide_eq_true_eq] at listed
        rcases listed with (rfl | seen) | isPending | later | ⟨isDep, fresh, -⟩
        · exact nameFound
        · exact inv.found other (Or.inl seen)
        · exact inv.found other (Or.inr (Or.inl (List.mem_cons_of_mem _ isPending)))
        · exact inv.found other (Or.inr (Or.inr later))
        · exact .step nameFound isOpen isDep fresh
      · intro other seen otherOpen dep listed fresh
        rcases List.mem_cons.mp seen with rfl | seen
        · by_cases depSeen : dep ∈ other :: walk.seen
          · exact Or.inl depSeen
          · exact Or.inr (Or.inr (List.mem_append_right _ (List.mem_filter.mpr
              ⟨listed, by simpa using ⟨fresh, by simpa using depSeen⟩⟩)))
        · exact drop dep (inv.steps other seen otherOpen dep listed fresh)
      · intro other
        rw [List.mem_append, List.mem_singleton, List.mem_cons, inv.order]
        constructor
        · rintro (⟨seen, otherOpen⟩ | rfl)
          · exact ⟨Or.inr seen, otherOpen⟩
          · exact ⟨Or.inl rfl, isOpen⟩
        · rintro ⟨rfl | seen, otherOpen⟩
          · exact Or.inr rfl
          · exact Or.inl ⟨seen, otherOpen⟩
      · intro none other seen
        rcases List.mem_cons.mp seen with rfl | seen
        · exact isOpen
        · exact inv.complete none other seen
      · intro other isMissing
        obtain ⟨seen, isShut⟩ := inv.lacks other isMissing
        exact ⟨List.mem_cons_of_mem _ seen, isShut⟩
    · rw [visit, if_neg isSeen, if_neg isOpen]
      have drop : ∀ other,
          other ∈ walk.seen ∨ other ∈ name :: pending ∨ other ∈ walk.nextFrontier →
          other ∈ name :: walk.seen ∨ other ∈ pending ∨ other ∈ walk.nextFrontier := by
        intro other cases
        simp only [List.mem_cons] at cases ⊢
        tauto
      refine ⟨?_, fun other listed fresh => drop other (inv.starts other listed fresh), ?_, ?_, ?_,
        ?_⟩
      · rintro other (seen | isPending | later)
        · rcases List.mem_cons.mp seen with rfl | seen
          · exact nameFound
          · exact inv.found other (Or.inl seen)
        · exact inv.found other (Or.inr (Or.inl (List.mem_cons_of_mem _ isPending)))
        · exact inv.found other (Or.inr (Or.inr later))
      · intro other seen otherOpen dep listed fresh
        rcases List.mem_cons.mp seen with rfl | seen
        · exact absurd otherOpen isOpen
        · exact drop dep (inv.steps other seen otherOpen dep listed fresh)
      · intro other
        simp only [List.mem_cons, inv.order]
        constructor
        · rintro ⟨seen, otherOpen⟩
          exact ⟨Or.inr seen, otherOpen⟩
        · rintro ⟨rfl | seen, otherOpen⟩
          · exact absurd otherOpen isOpen
          · exact ⟨seen, otherOpen⟩
      · intro isNone
        simp at isNone
      · intro other isMissing
        cases was : walk.missing with
        | none =>
            rw [was] at isMissing
            cases isMissing
            exact ⟨List.mem_cons_self, isOpen⟩
        | some earlier =>
            obtain ⟨seen, isShut⟩ := inv.lacks earlier was
            rw [was, Option.some_or, Option.some.injEq] at isMissing
            rw [← isMissing]
            exact ⟨List.mem_cons_of_mem _ seen, isShut⟩

theorem foldl_visit_inv (frontier : List String) : ∀ walk : Walk,
    WalkInv u known start walk frontier →
    WalkInv u known start (frontier.foldl (visit u known) walk) [] := by
  induction frontier with
  | nil => exact fun walk inv => inv
  | cons name rest ih => exact fun walk inv => ih _ (visit_inv inv)

def Turn (u : Universe) (known : Finset String) (start : List String) (walk : Walk)
    (frontier : List String) : Prop :=
  WalkInv u known start { walk with nextFrontier := [] } frontier

theorem mem_frontier (walk : Walk) (name : String) :
    name ∈ walk.frontier ↔ name ∈ walk.nextFrontier ∧ name ∉ walk.seen := by
  simp [Walk.frontier]

theorem hop_turn {walk : Walk} {frontier : List String} (turn : Turn u known start walk frontier) :
    Turn u known start (hop u known walk frontier) (hop u known walk frontier).frontier := by
  have inv : WalkInv u known start (hop u known walk frontier) [] :=
    foldl_visit_inv frontier _ turn
  generalize hop u known walk frontier = after at inv
  have settle : ∀ name, name ∈ after.seen ∨ name ∈ [] ∨ name ∈ after.nextFrontier →
      name ∈ after.seen ∨ name ∈ after.frontier ∨ name ∈ [] := by
    rintro name (seen | none | later)
    · exact Or.inl seen
    · cases none
    · by_cases seen : name ∈ after.seen
      · exact Or.inl seen
      · exact Or.inr (Or.inl ((mem_frontier after name).mpr ⟨later, seen⟩))
  refine ⟨?_, fun name listed fresh => settle name (inv.starts name listed fresh),
    fun name seen isOpen dep listed fresh => settle dep (inv.steps name seen isOpen dep listed fresh),
    inv.order, inv.complete, inv.lacks⟩
  rintro name (seen | later | none)
  · exact inv.found name (Or.inl seen)
  · exact inv.found name (Or.inr (Or.inr ((mem_frontier after name).mp later).1))
  · cases none

/-! The loop ends: a frontier is empty unless the turn before found an available module. -/

def Universe.availableNames (u : Universe) : Finset String :=
  ((u.modules.filter (·.available)).map ModuleRow.name).toFinset

theorem Universe.Available.listed (isOpen : u.Available name) :
    name ∈ u.availableNames := by
  unfold Universe.Available Universe.dependsOf Universe.find at isOpen
  cases found : u.modules.find? (·.name == name) with
  | none => simp [found] at isOpen
  | some row =>
      simp only [found] at isOpen
      have isName : row.name = name := by simpa using List.find?_some found
      simp only [Universe.availableNames, List.mem_toFinset, List.mem_map, List.mem_filter]
      exact ⟨row, ⟨List.mem_of_find?_eq_some found, isOpen⟩, isName⟩

theorem Universe.card_availableNames (u : Universe) :
    u.availableNames.card ≤ u.modules.length := by
  calc u.availableNames.card
      ≤ ((u.modules.filter (·.available)).map ModuleRow.name).length := List.toFinset_card_le _
    _ = (u.modules.filter (·.available)).length := List.length_map _
    _ ≤ u.modules.length := List.length_filter_le _ _

/-- How many available modules are not seen yet. -/
def Walk.unseen (u : Universe) (walk : Walk) : Nat := (u.availableNames \ walk.seen.toFinset).card

theorem visit_seen (walk : Walk) (name : String) : walk.seen ⊆ (visit u known walk name).seen := by
  unfold visit
  split
  · exact List.Subset.refl _
  · split <;> exact List.subset_cons_self _ _

theorem visit_next {walk before : Walk} (kept : before.seen ⊆ walk.seen)
    (source : walk.nextFrontier ≠ [] →
      ∃ found ∈ walk.seen, found ∉ before.seen ∧ u.Available found)
    (left : (visit u known walk name).nextFrontier ≠ []) :
    ∃ found ∈ (visit u known walk name).seen, found ∉ before.seen ∧ u.Available found := by
  unfold visit at left ⊢
  by_cases isSeen : name ∈ walk.seen
  · rw [if_pos isSeen] at left ⊢
    exact source left
  · by_cases isOpen : u.Available name
    · simp only [if_neg isSeen, if_pos isOpen]
      exact ⟨name, List.mem_cons_self, fun was => isSeen (kept was), isOpen⟩
    · simp only [if_neg isSeen, if_neg isOpen] at left ⊢
      obtain ⟨found, seen, rest⟩ := source left
      exact ⟨found, List.mem_cons_of_mem _ seen, rest⟩

variable (u known) in
theorem foldl_visit_next (before : Walk) (frontier : List String) : ∀ walk : Walk,
    before.seen ⊆ walk.seen →
    (walk.nextFrontier ≠ [] → ∃ found ∈ walk.seen, found ∉ before.seen ∧ u.Available found) →
    before.seen ⊆ (frontier.foldl (visit u known) walk).seen ∧
      ((frontier.foldl (visit u known) walk).nextFrontier ≠ [] →
        ∃ found ∈ (frontier.foldl (visit u known) walk).seen,
          found ∉ before.seen ∧ u.Available found) := by
  induction frontier with
  | nil => exact fun walk kept source => ⟨kept, source⟩
  | cons name rest ih =>
      intro walk kept source
      exact ih _ (List.Subset.trans kept (visit_seen walk name)) (visit_next kept source)

variable (u known) in
theorem hop_unseen (walk : Walk) (frontier : List String)
    (left : (hop u known walk frontier).frontier ≠ []) :
    (hop u known walk frontier).unseen u < walk.unseen u := by
  obtain ⟨kept, source⟩ := foldl_visit_next u known
    { walk with nextFrontier := [] } frontier { walk with nextFrontier := [] }
    (List.Subset.refl _) (fun none => absurd rfl none)
  have hasNext : (hop u known walk frontier).nextFrontier ≠ [] := by
    intro none
    apply left
    rw [Walk.frontier, none]
    rfl
  obtain ⟨found, seen, fresh, isOpen⟩ := source hasNext
  refine Finset.card_lt_card (Finset.ssubset_iff_subset_ne.mpr ⟨?_, fun same => ?_⟩)
  · refine Finset.sdiff_subset_sdiff (Finset.Subset.refl _) fun other seen => ?_
    exact List.mem_toFinset.mpr (kept (List.mem_toFinset.mp seen))
  · have before : found ∈ u.availableNames \ walk.seen.toFinset :=
      Finset.mem_sdiff.mpr ⟨isOpen.listed, by simpa using fresh⟩
    rw [← same] at before
    exact (Finset.mem_sdiff.mp before).2 (List.mem_toFinset.mpr seen)

theorem hops_done (turns : Nat) : ∀ (walk : Walk) (frontier : List String),
    Turn u known start walk frontier → walk.unseen u < turns →
    Turn u known start (hops u known turns walk frontier) [] := by
  induction turns with
  | zero => exact fun walk frontier turn fuel => absurd fuel (Nat.not_lt_zero _)
  | succ turns ih =>
      intro walk frontier turn fuel
      cases frontier with
      | nil => exact turn
      | cons name rest =>
          have next := hop_turn turn
          simp only [hops]
          cases left : (hop u known walk (name :: rest)).frontier with
          | nil =>
              rw [left] at next
              cases turns <;> exact next
          | cons first others =>
              rw [left] at next
              have fewer := hop_unseen u known walk (name :: rest) (by rw [left]; exact List.cons_ne_nil _ _)
              exact ih _ _ next (by omega)

theorem dependsClosure_spec (u : Universe) (known : Finset String) (start : List String) :
    (∀ name, name ∈ (dependsClosure u known start).1 ↔
        Found u known start name ∧ u.Available name) ∧
      ((dependsClosure u known start).2 = none →
        ∀ name, Found u known start name → u.Available name) ∧
      ∀ name, (dependsClosure u known start).2 = some name →
        Found u known start name ∧ ¬ u.Available name := by
  have begun : Turn u known start ⟨[], [], none, []⟩ (start.eraseDups.filter (· ∉ known)) := by
    refine ⟨?_, ?_, by simp, by simp, by simp, by simp⟩
    · rintro name (none | listed | none)
      · cases none
      · simp only [List.mem_filter, List.mem_eraseDups, decide_eq_true_eq] at listed
        exact .start listed.1 listed.2
      · cases none
    · intro name listed fresh
      exact Or.inr (Or.inl (by simpa using ⟨listed, fresh⟩))
  have enough : Walk.unseen u ⟨[], [], none, []⟩ < u.modules.length + 1 := by
    have := u.card_availableNames
    simp only [Walk.unseen, List.toFinset_nil, Finset.sdiff_empty]
    omega
  have done := hops_done (u.modules.length + 1) _ _ begun enough
  unfold dependsClosure
  generalize hops u known (u.modules.length + 1) ⟨[], [], none, []⟩
    (start.eraseDups.filter (· ∉ known)) = walk at done
  have found : ∀ name, Found u known start name → name ∈ walk.seen := by
    intro name isFound
    refine @Reached.inside _ _ _ _ {name | name ∈ walk.seen} _ _ ?_ ?_ isFound
    · intro other listed fresh
      simpa using done.starts other listed fresh
    · intro other seen isOpen dep listed fresh
      simpa using done.steps other seen isOpen dep listed fresh
  refine ⟨fun name => ?_, fun isNone name isFound => ?_, fun name isMissing => ?_⟩
  · rw [done.order name]
    constructor
    · rintro ⟨seen, isOpen⟩
      exact ⟨done.found name (Or.inl seen), isOpen⟩
    · rintro ⟨isFound, isOpen⟩
      exact ⟨found name isFound, isOpen⟩
  · exact done.complete isNone name (found name isFound)
  · obtain ⟨seen, isShut⟩ := done.lacks name isMissing
    exact ⟨done.found name (Or.inl seen), isShut⟩

theorem mem_dependsClosure (name : String) : name ∈ (dependsClosure u known start).1.toFinset ↔
    Found u known start name ∧ u.Available name := by
  rw [List.mem_toFinset, (dependsClosure_spec u known start).1]

end Closure

/-! ## The rule and what a round keeps -/

def installRules (u : Universe) (baseline : Finset String) (requireNew countryGate : Bool) :
    Rules String ModuleRow where
  fires stage row :=
    row ∈ u.modules ∧ row.available = true ∧
      (∃ triggers, row.triggers = some triggers ∧ (∀ trigger ∈ triggers, trigger ∈ stage) ∧
        (requireNew = true → ∃ trigger ∈ triggers, trigger ∉ baseline)) ∧
      (countryGate = true → row.countries = []) ∧
      ∀ name, Reached u.deps u.Available stage [row.name] name → u.Available name
  gives stage row := {name | Reached u.deps u.Available stage [row.name] name}

theorem Universe.eq_of_name (u : Universe) {first second : ModuleRow} (firstIn : first ∈ u.modules)
    (secondIn : second ∈ u.modules) (same : first.name = second.name) : first = second :=
  List.inj_on_of_nodup_map u.distinct firstIn secondIn same

structure Shows (u : Universe) (row : Candidate) (m : ModuleRow) (triggers : List String) :
    Prop where
  listed : m ∈ u.modules
  available : m.available = true
  name : row.name = m.name
  auto : m.triggers = some triggers
  triggers : ∀ trigger, trigger ∈ row.triggers ↔ trigger ∈ triggers
  countries : row.countries = [] ↔ m.countries = []

section Rounds
variable {u : Universe} {lookup : CandidateLookup u} {mode : Mode} {base : Finset String}
  {start : Set String} {now : Progress}

variable {m : ModuleRow} {row : Candidate} {after : Progress × List Candidate}

theorem listed_eq_some {installed excluded : Finset String} :
    listed installed excluded m = some row ↔ ∃ triggers, m.triggers = some triggers ∧
      (m.available = true ∧ m.name ∉ installed ∧ m.name ∉ excluded ∧
        ∀ trigger ∈ triggers, trigger ∈ installed) ∧ ⟨m.name, triggers, m.countries⟩ = row := by
  cases auto : m.triggers with
  | none | some triggers => simp [listed, auto]

theorem mem_sortedRows : row ∈ sortedRows lookup now ↔
    ∃ m ∈ u.modules, ∃ raw, listed now.installed now.rejected m = some raw ∧ raw.normal = row := by
  simp only [sortedRows, List.mem_insertionSort, List.mem_map,
    (lookup.lists now.installed now.rejected).mem_iff, Universe.candidates, List.mem_filterMap]
  constructor
  · rintro ⟨raw, ⟨m, listedM, isRaw⟩, rfl⟩
    exact ⟨m, listedM, raw, isRaw, rfl⟩
  · rintro ⟨m, listedM, raw, isRaw, rfl⟩
    exact ⟨raw, ⟨m, listedM, isRaw⟩, rfl⟩

theorem shows_of_mem (member : row ∈ sortedRows lookup now) :
    ∃ m triggers, Shows u row m triggers := by
  obtain ⟨m, listedM, raw, isRaw, rfl⟩ := mem_sortedRows.mp member
  obtain ⟨triggers, auto, ⟨available, -⟩, rfl⟩ := listed_eq_some.mp isRaw
  exact ⟨m, triggers, listedM, available, rfl, auto, by simp [Candidate.normal],
    by simp [Candidate.normal]⟩

theorem mem_of_eligible {triggers : List String} (listedM : m ∈ u.modules)
    (available : m.available = true) (auto : m.triggers = some triggers)
    (met : ∀ trigger ∈ triggers, trigger ∈ now.installed) (fresh : m.name ∉ now.installed)
    (kept : m.name ∉ now.rejected) :
    ∃ row ∈ sortedRows lookup now, Shows u row m triggers := by
  refine ⟨Candidate.normal ⟨m.name, triggers, m.countries⟩, mem_sortedRows.mpr ⟨m, listedM, _,
    listed_eq_some.mpr ⟨triggers, auto, ⟨available, fresh, kept, met⟩, rfl⟩, rfl⟩, ?_⟩
  exact ⟨listedM, available, rfl, auto, by simp [Candidate.normal], by simp [Candidate.normal]⟩

/-- Why a rejected module stays out: its triggers are all in the baseline, the country gate
holds it, or its closure needs a module that is not available. -/
def Refused (u : Universe) (mode : Mode) (base : Finset String) (members : Set String)
    (name : String) : Prop :=
  ∀ m ∈ u.modules, m.name = name → ∀ triggers, m.triggers = some triggers →
    (mode.requireNew = true ∧ ∀ trigger ∈ triggers, trigger ∈ base) ∨
      (∀ trigger ∈ triggers, trigger ∈ members) ∧
        ((mode.countryGate = true ∧ m.countries ≠ []) ∨
          Blocked u.deps u.Available members name)

theorem Refused.grow {members added : Set String} {name : String}
    (opens : ∀ other ∈ added, u.Available other)
    (complete : ∀ other ∈ added, ∀ dep ∈ u.deps other, dep ∈ members ∪ added)
    (refused : Refused u mode base members name) :
    Refused u mode base (members ∪ added) name := by
  intro m listedM isName triggers auto
  rcases refused m listedM isName triggers auto with old | ⟨met, why⟩
  · exact Or.inl old
  · refine Or.inr ⟨fun trigger member => Or.inl (met trigger member), ?_⟩
    rcases why with gated | blocked
    · exact Or.inl gated
    · exact Or.inr (blocked.grow opens complete)

structure Sound (u : Universe) (mode : Mode) (base : Finset String) (start : Set String)
    (now : Progress) : Prop where
  grown : Grown (installRules u base mode.requireNew mode.countryGate) start
    (now.installed : Set String)
  closed : NextClosed u.deps u.Available (now.installed : Set String)
  above : base ⊆ now.installed
  newly : ∀ name, name ∈ now.newly ↔ name ∈ now.installed ∧ name ∉ base
  refused : ∀ name ∈ now.rejected, Refused u mode base (now.installed : Set String) name

/-- Every candidate whose triggers are met is in the set or rejected. -/
def Settled (u : Universe) (mode : Mode) (base : Finset String) (now : Progress) : Prop :=
  ∀ m ∈ u.modules, m.available = true → ∀ triggers, m.triggers = some triggers →
    (∀ trigger ∈ triggers, trigger ∈ now.installed) →
    (mode.requireNew = true → ∃ trigger ∈ triggers, trigger ∉ base) →
    m.name ∈ now.installed ∨ m.name ∈ now.rejected

theorem Sound.isClosed (sound : Sound u mode base start now) (settled : Settled u mode base now) :
    Closed (installRules u base mode.requireNew mode.countryGate) start
      (now.installed : Set String) := by
  refine ⟨sound.grown.from_start, ?_⟩
  rintro stage - inside m ⟨listedM, available, ⟨triggers, auto, met, isNew⟩, gate, opens⟩
  have joined : m.name ∈ now.installed := by
    rcases settled m listedM available triggers auto (fun trigger member => inside (met trigger
      member)) isNew with member | rejected
    · exact member
    · exfalso
      rcases sound.refused m.name rejected m listedM rfl triggers auto with
        ⟨required, old⟩ | ⟨-, ⟨gated, some⟩ | blocked⟩
      · obtain ⟨trigger, member, fresh⟩ := isNew required
        exact fresh (old trigger member)
      · exact some (gate gated)
      · obtain ⟨shut, reached, isShut⟩ := blocked_iff.mp blocked
        exact isShut (opens shut (reached.mono inside fun other listed => listed))
  intro name given
  have both : name ∈ {name | Reached u.deps u.Available stage [m.name] name ∧
      name ∈ now.installed} := by
    refine Reached.inside ?_ ?_ given
    · intro other listedOther fresh
      cases List.mem_singleton.mp listedOther
      exact ⟨.start listedOther fresh, joined⟩
    · rintro other ⟨reached, member⟩ isOpen dep listedDep fresh
      have reachedDep := Reached.step reached isOpen listedDep fresh
      exact ⟨reachedDep, sound.closed other member dep listedDep (opens dep reachedDep)⟩
  exact both.2

/-! The first loop of a round. -/

/-- What the first loop has done with the rows up to here. -/
structure Screened (mode : Mode) (now : Progress) (rows : List Candidate)
    (after : Progress × List Candidate) : Prop where
  installed : after.1.installed = now.installed
  newly : after.1.newly = now.newly
  kept : ∀ name ∈ now.rejected, name ∈ after.1.rejected
  gated : ∀ name ∈ after.1.rejected, name ∈ now.rejected ∨ ∃ row ∈ rows, row.name = name ∧
    (∀ trigger ∈ row.triggers, trigger ∈ now.installed) ∧ mode.countryGate = true ∧
      row.countries ≠ []
  accepted : ∀ row ∈ after.2, row ∈ rows ∧ row.name ∉ now.installed ∧
    (∀ trigger ∈ row.triggers, trigger ∈ now.installed) ∧
    (mode.requireNew = true → ∃ trigger ∈ row.triggers, trigger ∈ now.newly) ∧
    (mode.countryGate = true → row.countries = [])
  covered : ∀ row ∈ rows, row.name ∈ now.installed ∨ row.name ∈ after.1.rejected ∨
    (¬ ∀ trigger ∈ row.triggers, trigger ∈ now.installed) ∨
    (mode.requireNew = true ∧ ¬ ∃ trigger ∈ row.triggers, trigger ∈ now.newly) ∨ row ∈ after.2

theorem Screened.next {rows : List Candidate}
    (done : Screened mode now rows after) (row : Candidate) :
    Screened mode now (rows ++ [row]) (screen mode after row) := by
  have keepCovered : ∀ other ∈ rows ++ [row], other ∉ rows → other = row := by
    intro other member old
    rcases List.mem_append.mp member with inRows | isRow
    · exact absurd inRows old
    · exact List.mem_singleton.mp isRow
  have wider : ∀ {name}, (name ∈ now.rejected ∨ ∃ row ∈ rows, row.name = name ∧
      (∀ trigger ∈ row.triggers, trigger ∈ now.installed) ∧ mode.countryGate = true ∧
        row.countries ≠ []) →
      name ∈ now.rejected ∨ ∃ row_1 ∈ rows ++ [row], row_1.name = name ∧
      (∀ trigger ∈ row_1.triggers, trigger ∈ now.installed) ∧ mode.countryGate = true ∧
        row_1.countries ≠ [] := by
    rintro name (old | ⟨other, member, rest⟩)
    · exact Or.inl old
    · exact Or.inr ⟨other, List.mem_append_left _ member, rest⟩
  -- a skipped row is covered by the reason it is skipped for
  have skipped : (row.name ∈ now.installed ∨ row.name ∈ after.1.rejected ∨
      (¬ ∀ trigger ∈ row.triggers, trigger ∈ now.installed) ∨
      (mode.requireNew = true ∧ ¬ ∃ trigger ∈ row.triggers, trigger ∈ now.newly)) →
      Screened mode now (rows ++ [row]) after := by
    intro reason
    refine ⟨done.installed, done.newly, done.kept, fun name member => wider (done.gated name
      member), fun other member => ?_, fun other member => ?_⟩
    · obtain ⟨inRows, rest⟩ := done.accepted other member
      exact ⟨List.mem_append_left _ inRows, rest⟩
    · by_cases inRows : other ∈ rows
      · exact done.covered other inRows
      · rw [keepCovered other member inRows]
        tauto
  obtain ⟨current, accepted⟩ := after
  have installed : current.installed = now.installed := done.installed
  have newly : current.newly = now.newly := done.newly
  by_cases known : row.name ∈ current.installed ∨ row.name ∈ current.rejected
  · rw [screen, if_pos known]
    exact skipped (known.imp (installed ▸ ·) Or.inl)
  by_cases met : ∀ trigger ∈ row.triggers, trigger ∈ current.installed
  swap
  · rw [screen, if_neg known, if_pos met]
    exact skipped (Or.inr (Or.inr (Or.inl (installed ▸ met))))
  by_cases old : mode.requireNew ∧ ¬ ∃ trigger ∈ row.triggers, trigger ∈ current.newly
  · rw [screen, if_neg known, if_neg (not_not.mpr met), if_pos old]
    exact skipped (Or.inr (Or.inr (Or.inr (newly ▸ old))))
  by_cases gate : mode.countryGate ∧ row.countries ≠ []
  · rw [screen, if_neg known, if_neg (not_not.mpr met), if_neg old, if_pos gate]
    refine ⟨installed, newly, fun name member => Finset.mem_insert_of_mem (done.kept name
      member), fun name member => ?_, fun other member => ?_, fun other member => ?_⟩
    · rcases Finset.mem_insert.mp member with rfl | earlier
      · exact Or.inr ⟨row, by simp, rfl, installed ▸ met, gate⟩
      · exact wider (done.gated name earlier)
    · obtain ⟨inRows, rest⟩ := done.accepted other member
      exact ⟨List.mem_append_left _ inRows, rest⟩
    · by_cases inRows : other ∈ rows
      · rcases done.covered other inRows with joined | rejected | rest
        · exact Or.inl joined
        · exact Or.inr (Or.inl (Finset.mem_insert_of_mem rejected))
        · exact Or.inr (Or.inr rest)
      · rw [keepCovered other member inRows]
        exact Or.inr (Or.inl (Finset.mem_insert_self _ _))
  · rw [screen, if_neg known, if_neg (not_not.mpr met), if_neg old, if_neg gate]
    refine ⟨installed, newly, done.kept, fun name member => wider (done.gated name
      member), fun other member => ?_, fun other member => ?_⟩
    · rcases List.mem_append.mp member with earlier | isRow
      · obtain ⟨inRows, rest⟩ := done.accepted other earlier
        exact ⟨List.mem_append_left _ inRows, rest⟩
      · cases List.mem_singleton.mp isRow
        rw [installed] at known met
        rw [newly] at old
        refine ⟨by simp, fun joined => known (Or.inl joined), met, fun required => ?_,
          fun gated => ?_⟩
        · by_contra none
          exact old ⟨required, none⟩
        · by_contra some
          exact gate ⟨gated, some⟩
    · by_cases inRows : other ∈ rows
      · rcases done.covered other inRows with joined | rejected | unmet | notNew | accepted
        · exact Or.inl joined
        · exact Or.inr (Or.inl rejected)
        · exact Or.inr (Or.inr (Or.inl unmet))
        · exact Or.inr (Or.inr (Or.inr (Or.inl notNew)))
        · exact Or.inr (Or.inr (Or.inr (Or.inr (List.mem_append_left _ accepted))))
      · rw [keepCovered other member inRows]
        exact Or.inr (Or.inr (Or.inr (Or.inr (List.mem_append_right _ (List.mem_singleton_self _)))))

theorem screened (mode : Mode) (now : Progress) (rows : List Candidate) :
    Screened mode now rows (rows.foldl (screen mode) (now, [])) := by
  induction rows using List.reverseRecOn with
  | nil => exact ⟨rfl, rfl, fun _ member => member, fun _ member => Or.inl member, by simp, by simp⟩
  | append_singleton rows row ih =>
      rw [List.foldl_append, List.foldl_cons, List.foldl_nil]
      exact ih.next row

/-! The second loop of a round. -/

/-- What the second loop has done with the accepted rows up to here. -/
structure Admitted (u : Universe) (mode : Mode) (base : Finset String) (start : Set String)
    (now : Progress) (rows : List Candidate) (after : Progress × Finset String) : Prop where
  installed : after.1.installed = now.installed
  newly : after.1.newly = now.newly
  grown : Grown (installRules u base mode.requireNew mode.countryGate) start
    ((now.installed ∪ after.2 : Finset String) : Set String)
  fresh : ∀ name ∈ after.2, name ∉ now.installed
  opens : ∀ name ∈ after.2, u.Available name
  complete : ∀ name ∈ after.2, ∀ dep ∈ u.deps name, dep ∈ now.installed ∪ after.2
  refused : ∀ name ∈ after.1.rejected,
    Refused u mode base ((now.installed ∪ after.2 : Finset String) : Set String) name
  kept : ∀ name ∈ now.rejected, name ∈ after.1.rejected
  judged : ∀ row ∈ rows, row.name ∈ after.1.rejected ∨ row.name ∈ now.installed ∪ after.2

/-- An accepted row passes the checks of the rule. -/
structure Eligible (u : Universe) (mode : Mode) (base : Finset String) (now : Progress)
    (row : Candidate) (m : ModuleRow) (triggers : List String) : Prop where
  shows : Shows u row m triggers
  met : ∀ trigger ∈ triggers, trigger ∈ now.installed
  isNew : mode.requireNew = true → ∃ trigger ∈ triggers, trigger ∉ base
  gate : mode.countryGate = true → m.countries = []

theorem Admitted.next {rows : List Candidate} {after : Progress × Finset String}
    {round : Nat} {acceptedNames : List String}
    {triggers : List String} (done : Admitted u mode base start now rows after)
    (eligible : Eligible u mode base now row m triggers) :
    Admitted u mode base start now (rows ++ [row])
      (admitRow u mode round acceptedNames after row) := by
  obtain ⟨current, added⟩ := after
  have installed : current.installed = now.installed := done.installed
  obtain ⟨inClosure, allOpen, lacks⟩ :=
    dependsClosure_spec u (now.installed ∪ added) [row.name]
  simp only [admitRow, installed]
  -- the accepted row is rejected for what its closure lacks, or joins with the closure
  cases result : dependsClosure u (now.installed ∪ added) [row.name] with
  | mk closure missing =>
    rw [result] at inClosure allOpen lacks
    cases missing with
    | some missing =>
        obtain ⟨found, isShut⟩ := lacks missing rfl
        refine ⟨rfl, done.newly, done.grown, done.fresh, done.opens, done.complete, ?_,
          fun name member => Finset.mem_insert_of_mem (done.kept name member), ?_⟩
        · intro name member
          rcases Finset.mem_insert.mp member with rfl | earlier
          · intro other listedOther isName others auto
            have same : other = m :=
              u.eq_of_name listedOther eligible.shows.listed (isName.trans eligible.shows.name)
            subst same
            rw [eligible.shows.auto] at auto
            cases auto
            refine Or.inr ⟨fun trigger member => ?_, Or.inr (blocked_iff.mpr ⟨missing, found,
              isShut⟩)⟩
            exact Finset.mem_coe.mpr (Finset.mem_union_left _ (eligible.met trigger member))
          · exact done.refused name earlier
        · intro other member
          rcases List.mem_append.mp member with earlier | isRow
          · exact (done.judged other earlier).imp_left Finset.mem_insert_of_mem
          · cases List.mem_singleton.mp isRow
            exact Or.inl (Finset.mem_insert_self _ _)
    | none =>
        have openAll := allOpen rfl
        have members : ∀ name, name ∈ closure.toFinset ↔
            Found u (now.installed ∪ added) [row.name] name := by
          intro name
          rw [List.mem_toFinset, inClosure name]
          exact ⟨And.left, fun found => ⟨found, openAll name found⟩⟩
        have opens : ∀ name ∈ closure.toFinset, u.Available name :=
          fun name member => openAll name ((members name).mp member)
        have complete : ∀ name ∈ closure.toFinset, ∀ dep ∈ u.deps name,
            dep ∈ now.installed ∪ added ∪ closure.toFinset := by
          intro name member dep listedDep
          by_cases isKnown : dep ∈ now.installed ∪ added
          · exact Finset.mem_union_left _ isKnown
          · refine Finset.mem_union_right _ ((members dep).mpr ?_)
            exact .step ((members name).mp member) (opens name member) listedDep isKnown
        have stage : ((now.installed ∪ (added ∪ closure.toFinset) : Finset String) : Set String) =
            ((now.installed ∪ added : Finset String) : Set String) ∪
              (installRules u base mode.requireNew mode.countryGate).gives
                ((now.installed ∪ added : Finset String) : Set String) m := by
          rw [← Finset.union_assoc, Finset.coe_union _ closure.toFinset]
          congr 1
          ext name
          rw [Finset.mem_coe, members, eligible.shows.name]
          rfl
        refine ⟨rfl, done.newly, ?_, ?_, ?_, ?_, ?_, done.kept, ?_⟩
        · rw [stage]
          refine .fire done.grown ⟨eligible.shows.listed, eligible.shows.available, ⟨triggers,
            eligible.shows.auto, fun trigger member => ?_, eligible.isNew⟩, eligible.gate, ?_⟩
          · exact Finset.mem_coe.mpr (Finset.mem_union_left _ (eligible.met trigger member))
          · intro name reached
            exact openAll name (eligible.shows.name ▸ reached)
        · intro name member
          rcases Finset.mem_union.mp member with earlier | found
          · exact done.fresh name earlier
          · exact fun old => ((members name).mp found).fresh (Finset.mem_union_left _ old)
        · intro name member
          rcases Finset.mem_union.mp member with earlier | found
          · exact done.opens name earlier
          · exact opens name found
        · intro name member dep listedDep
          rw [← Finset.union_assoc]
          rcases Finset.mem_union.mp member with earlier | found
          · exact Finset.mem_union_left _ (done.complete name earlier dep listedDep)
          · exact complete name found dep listedDep
        · intro name member
          rw [← Finset.union_assoc, Finset.coe_union _ closure.toFinset]
          refine (done.refused name member).grow opens fun other found dep listedDep => ?_
          simpa [or_assoc] using complete other found dep listedDep
        · intro other member
          rw [← Finset.union_assoc]
          rcases List.mem_append.mp member with earlier | isRow
          · exact (done.judged other earlier).imp_right (Finset.mem_union_left _)
          · cases List.mem_singleton.mp isRow
            by_cases isKnown : row.name ∈ now.installed ∪ added
            · exact Or.inr (Finset.mem_union_left _ isKnown)
            · refine Or.inr (Finset.mem_union_right _ ((members row.name).mpr ?_))
              exact .start (List.mem_singleton_self _) isKnown

theorem admitted (round : Nat) (acceptedNames : List String) (rows : List Candidate)
    (sound : Sound u mode base start now)
    (eligible : ∀ row ∈ rows, ∃ m triggers, Eligible u mode base now row m triggers) :
    Admitted u mode base start now rows
      (rows.foldl (admitRow u mode round acceptedNames) (now, ∅)) := by
  induction rows using List.reverseRecOn with
  | nil =>
      refine ⟨rfl, rfl, ?_, by simp, by simp, by simp, ?_, fun _ member => member, by simp⟩
      · simpa using sound.grown
      · simpa using sound.refused
  | append_singleton rows row ih =>
      rw [List.foldl_append, List.foldl_cons, List.foldl_nil]
      obtain ⟨m, triggers, isEligible⟩ := eligible row (by simp)
      exact (ih fun other member => eligible other (List.mem_append_left _ member)).next isEligible

/-! The rounds. -/

theorem Screened.sound (sound : Sound u mode base start now)
    (done : Screened mode now (sortedRows lookup now) after) :
    Sound u mode base start after.1 := by
  refine ⟨done.installed ▸ sound.grown, done.installed ▸ sound.closed,
    done.installed ▸ sound.above, done.installed ▸ done.newly ▸ sound.newly, ?_⟩
  rw [done.installed]
  intro name member
  rcases done.gated name member with old | ⟨row, inRows, rfl, met, gate, some⟩
  · exact sound.refused name old
  · obtain ⟨m, triggers, shows⟩ := shows_of_mem inRows
    intro other listedOther isName others auto
    have same : other = m := u.eq_of_name listedOther shows.listed (isName.trans shows.name)
    subst same
    rw [shows.auto] at auto
    cases auto
    refine Or.inr ⟨fun trigger member => met trigger ((shows.triggers trigger).mpr member),
      Or.inl ⟨gate, fun none => some (shows.countries.mpr none)⟩⟩

theorem Screened.eligible (sound : Sound u mode base start now)
    (done : Screened mode now (sortedRows lookup now) after) :
    ∀ row ∈ after.2, ∃ m triggers, Eligible u mode base after.1 row m triggers := by
  intro row member
  obtain ⟨inRows, -, met, isNew, gate⟩ := done.accepted row member
  obtain ⟨m, triggers, shows⟩ := shows_of_mem inRows
  refine ⟨m, triggers, shows, fun trigger member => ?_, fun required => ?_, fun gated => ?_⟩
  · rw [done.installed]
    exact met trigger ((shows.triggers trigger).mpr member)
  · obtain ⟨trigger, member, new⟩ := isNew required
    exact ⟨trigger, (shows.triggers trigger).mp member, ((sound.newly trigger).mp new).2⟩
  · exact shows.countries.mp (gate gated)

theorem Screened.settled {rejected members : Finset String}
    (sound : Sound u mode base start now)
    (done : Screened mode now (sortedRows lookup now) after)
    (inside : now.installed ⊆ members)
    (kept : ∀ name ∈ after.1.rejected, name ∈ rejected)
    (judged : ∀ row ∈ after.2, row.name ∈ rejected ∨ row.name ∈ members) :
    ∀ m ∈ u.modules, m.available = true → ∀ triggers, m.triggers = some triggers →
      (∀ trigger ∈ triggers, trigger ∈ now.installed) →
      (mode.requireNew = true → ∃ trigger ∈ triggers, trigger ∉ base) →
      m.name ∈ members ∨ m.name ∈ rejected := by
  intro m listedM available triggers auto met isNew
  by_cases joined : m.name ∈ now.installed
  · exact Or.inl (inside joined)
  by_cases old : m.name ∈ now.rejected
  · exact Or.inr (kept _ (done.kept _ old))
  obtain ⟨row, inRows, shows⟩ := mem_of_eligible listedM available auto met joined old
  rw [← shows.name]
  rcases done.covered row inRows with was | refused | unmet | ⟨required, none⟩ | accepted
  · exact Or.inl (inside was)
  · exact Or.inr (kept _ refused)
  · exact absurd (fun trigger member => met trigger ((shows.triggers trigger).mp member)) unmet
  · obtain ⟨trigger, member, fresh⟩ := isNew required
    exact absurd ⟨trigger, (shows.triggers trigger).mpr member,
      (sound.newly trigger).mpr ⟨met trigger member, fresh⟩⟩ none
  · exact (judged row accepted).symm

variable (lookup mode) in
/-- The first loop of a round. -/
def screening (now : Progress) : Progress × List Candidate :=
  (sortedRows lookup now).foldl (screen mode) (now, [])

variable (lookup mode) in
def turn (round : Nat) (now : Progress) : Progress × Finset String :=
  (screening lookup mode now).2.foldl
    (admitRow u mode round ((screening lookup mode now).2.map Candidate.name))
    ((screening lookup mode now).1, ∅)

/-- A round ends with what it adds in the set. -/
def grown (after : Progress × Finset String) : Progress :=
  { after.1 with
    installed := after.1.installed ∪ after.2
    newly := after.1.newly ∪ after.2 }

theorem grown_nothing {after : Progress × Finset String} (nothing : after.2 = ∅) :
    grown after = after.1 := by
  simp only [grown, nothing, Finset.union_empty]

variable (lookup mode) in
theorem fixpoint_succ (left round : Nat) (now : Progress) :
    fixpoint lookup mode (left + 1) round now =
      if (turn lookup mode round now).2 = ∅ then (grown (turn lookup mode round now), false)
      else fixpoint lookup mode left (round + 1) (grown (turn lookup mode round now)) := by
  have ends : fixpoint lookup mode (left + 1) round now =
      if (screening lookup mode now).2 = [] then ((screening lookup mode now).1, false)
      else if (turn lookup mode round now).2 = ∅ then ((turn lookup mode round now).1, false)
      else fixpoint lookup mode left (round + 1) (grown (turn lookup mode round now)) := rfl
  rw [ends]
  by_cases none : (screening lookup mode now).2 = []
  · have same : turn lookup mode round now = ((screening lookup mode now).1, ∅) := by
      rw [turn, none, List.foldl_nil]
    rw [if_pos none, if_pos (by rw [same]), grown_nothing (by rw [same]), same]
  · rw [if_neg none]
    by_cases nothing : (turn lookup mode round now).2 = ∅
    · rw [if_pos nothing, if_pos nothing, grown_nothing nothing]
    · rw [if_neg nothing, if_neg nothing]

variable (lookup mode) in
theorem screening_screened (now : Progress) :
    Screened mode now (sortedRows lookup now) (screening lookup mode now) :=
  screened mode now _

variable (lookup) in
theorem turn_admitted (round : Nat) (sound : Sound u mode base start now) :
    Admitted u mode base start (screening lookup mode now).1 (screening lookup mode now).2
      (turn lookup mode round now) :=
  have screened := screening_screened lookup mode now
  admitted round _ _ (screened.sound sound) (screened.eligible sound)

variable (lookup) in
theorem turn_sound (round : Nat) (sound : Sound u mode base start now) :
    Sound u mode base start (grown (turn lookup mode round now)) := by
  have screened := (screening_screened lookup mode now).sound sound
  have admitting := turn_admitted lookup round sound
  generalize turn lookup mode round now = after at admitting
  refine ⟨?_, ?_, ?_, ?_, ?_⟩
  · simpa only [grown, admitting.installed] using admitting.grown
  · simp only [grown, admitting.installed]
    intro name member dep listedDep isOpen
    rcases Finset.mem_union.mp member with old | new
    · exact Finset.mem_union_left _ (screened.closed name old dep listedDep isOpen)
    · exact admitting.complete name new dep listedDep
  · simp only [grown, admitting.installed]
    exact screened.above.trans Finset.subset_union_left
  · intro name
    simp only [grown, admitting.installed, admitting.newly, Finset.mem_union, screened.newly]
    constructor
    · rintro (⟨old, fresh⟩ | new)
      · exact ⟨Or.inl old, fresh⟩
      · exact ⟨Or.inr new, fun isBase => admitting.fresh name new (screened.above isBase)⟩
    · rintro ⟨old | new, fresh⟩
      · exact Or.inl ⟨old, fresh⟩
      · exact Or.inr new
  · simpa only [grown, admitting.installed] using admitting.refused

variable (lookup) in
theorem turn_judged (round : Nat) (sound : Sound u mode base start now) :
    ∀ m ∈ u.modules, m.available = true → ∀ triggers, m.triggers = some triggers →
      (∀ trigger ∈ triggers, trigger ∈ now.installed) →
      (mode.requireNew = true → ∃ trigger ∈ triggers, trigger ∉ base) →
      m.name ∈ (grown (turn lookup mode round now)).installed ∨
        m.name ∈ (grown (turn lookup mode round now)).rejected := by
  have screened := screening_screened lookup mode now
  have admitting := turn_admitted lookup round sound
  generalize turn lookup mode round now = after at admitting
  refine screened.settled sound ?_ admitting.kept ?_
  · simp only [grown, admitting.installed, screened.installed]
    exact Finset.subset_union_left
  · simpa only [grown, admitting.installed] using admitting.judged

variable (lookup) in
theorem fixpoint_sound (left : Nat) : ∀ (round : Nat) (now : Progress),
    Sound u mode base start now →
    Sound u mode base start (fixpoint lookup mode left round now).1 ∧
      ((fixpoint lookup mode left round now).2 = false →
        Settled u mode base (fixpoint lookup mode left round now).1) := by
  induction left with
  | zero => exact fun round now sound => ⟨sound, fun done => by simp [fixpoint] at done⟩
  | succ left ih =>
      intro round now sound
      have after := turn_sound lookup round sound
      rw [fixpoint_succ]
      by_cases nothing : (turn lookup mode round now).2 = ∅
      · rw [if_pos nothing]
        have same : (grown (turn lookup mode round now)).installed = now.installed := by
          rw [grown_nothing nothing, (turn_admitted lookup round sound).installed,
            (screening_screened lookup mode now).installed]
        refine ⟨after, fun _ m listedM available triggers auto met isNew => ?_⟩
        exact turn_judged lookup round sound m listedM available triggers auto (same ▸ met) isNew
      · rw [if_neg nothing]
        exact ih (round + 1) _ after

variable (lookup) in
theorem fixpoint_closure {start : Finset String} {newly rejected : Finset String} (rounds : Nat)
    (sound : Sound u mode base (start : Set String) (.initial start newly rejected)) :
    let final := fixpoint lookup mode rounds 1 (.initial start newly rejected)
    let least := leastSet (installRules u base mode.requireNew mode.countryGate) (start : Set String)
    (final.1.installed : Set String) ⊆ least ∧
      (final.2 = false → (final.1.installed : Set String) = least) := by
  obtain ⟨grown, settled⟩ := fixpoint_sound lookup rounds 1 _ sound
  exact ⟨grown.grown.subset_leastSet, fun done =>
    grown.grown.eq_leastSet (grown.isClosed (settled done))⟩

end Rounds

def installStart (u : Universe) (baseline : Finset String) (roots : List String) : Set String :=
  (baseline : Set String) ∪
    {name | Reached u.deps u.Available ∅ roots name ∧ u.Available name}

section Install
variable {u : Universe} {lookup : CandidateLookup u} {base : Finset String} {roots : List String}

theorem installStart_eq (closed : NextClosed u.deps u.Available (base : Set String)) :
    installStart u base roots =
      ((base ∪ (dependsClosure u base roots).1.toFinset : Finset String) : Set String) := by
  ext name
  simp only [installStart, Finset.coe_union, Set.mem_union, Finset.mem_coe, mem_dependsClosure,
    Set.mem_ofPred_eq]
  constructor
  · rintro (old | ⟨reached, isOpen⟩)
    · exact Or.inl old
    · exact (closed.past reached isOpen).imp_right fun found => ⟨found, isOpen⟩
  · rintro (old | ⟨found, isOpen⟩)
    · exact Or.inl old
    · exact Or.inr ⟨found.mono (Set.empty_subset _) fun _ listed => listed, isOpen⟩

theorem initial_sound {mode : Mode} {rejected : Finset String}
    (closed : NextClosed u.deps u.Available (base : Set String))
    (refused : ∀ name ∈ rejected, Refused u mode base
      ((base ∪ (dependsClosure u base roots).1.toFinset : Finset String) : Set String) name) :
    Sound u mode base ((base ∪ (dependsClosure u base roots).1.toFinset : Finset String) :
        Set String)
      (.initial (base ∪ (dependsClosure u base roots).1.toFinset)
        (dependsClosure u base roots).1.toFinset rejected) := by
  refine ⟨.start, ?_, Finset.subset_union_left, fun name => ?_, refused⟩
  · have grown : NextClosed u.deps u.Available (installStart u base roots) := by
      have same : installStart u base roots = (base : Set String) ∪
          {name | Reached u.deps u.Available base roots name ∧ u.Available name} := by
        rw [installStart_eq closed, Finset.coe_union]
        congr 1
        ext name
        exact mem_dependsClosure name
      rw [same]
      exact closed.reached roots
    rwa [installStart_eq closed] at grown
  · simp only [Progress.initial, Finset.mem_union, mem_dependsClosure]
    constructor
    · intro found
      exact ⟨Or.inr found, found.1.fresh⟩
    · rintro ⟨old | found, fresh⟩
      · exact absurd old fresh
      · exact found

structure Carried (u : Universe) (base : Baseline) : Prop where
  closed : NextClosed u.deps u.Available (base.installed : Set String)
  triggered : ∀ name ∈ base.rejected, ∀ m ∈ u.modules, m.name = name → ∀ triggers,
    m.triggers = some triggers → ∀ trigger ∈ triggers, trigger ∈ base.installed

theorem nextClosed_empty : NextClosed u.deps u.Available ((∅ : Finset String) : Set String) := by
  intro name member
  simp at member

/-- The rounds of `compute_baseline`. -/
theorem baseline_sound : Sound u ⟨false, false, false⟩ ∅
    (((dependsClosure u ∅ [baselineRoot]).1.toFinset : Finset String) : Set String)
    (.initial (dependsClosure u ∅ [baselineRoot]).1.toFinset
      (dependsClosure u ∅ [baselineRoot]).1.toFinset ∅) := by
  have sound := @initial_sound u ∅ [baselineRoot] ⟨false, false, false⟩ ∅ nextClosed_empty (by simp)
  rwa [Finset.empty_union] at sound

theorem computeBaseline_carried (rounds : Nat) : Carried u (computeBaseline lookup rounds) := by
  have sound := (fixpoint_sound lookup rounds 1 _ baseline_sound).1
  refine ⟨sound.closed, fun name member m listedM isName triggers auto trigger isTrigger => ?_⟩
  rcases sound.refused name member m listedM isName triggers auto with ⟨required, -⟩ | ⟨met, -⟩
  · cases required
  · exact met trigger isTrigger

/-- The baseline is what `base` and its depends trigger, unless the cap is hit. -/
theorem computeBaseline_isLeast (rounds : Nat)
    (whole : (computeBaseline lookup rounds).truncated = false) :
    IsLeast {members | Closed (installRules u ∅ false false) (installStart u ∅ [baselineRoot])
      members} ((computeBaseline lookup rounds).installed : Set String) := by
  have done := (fixpoint_closure lookup rounds baseline_sound).2 whole
  rw [installStart_eq nextClosed_empty, Finset.empty_union]
  exact done ▸ leastSet_isLeast _

end Install

def bridged : Universe where
  modules := [⟨"bus", true, ["base"], none, []⟩, ⟨"base", true, [], none, []⟩,
    ⟨"web", true, ["base", "bus"], some ["base"], []⟩]
  distinct := by decide

def bridgedLookup : CandidateLookup bridged where
  rows := bridged.candidates
  lists _ _ := .refl _

/-- The depends that `web` lists join with it. -/
theorem bridged_isLeast : "bus" ∈ (computeBaseline bridgedLookup 50).installed ∧
    IsLeast {members | Closed (installRules bridged ∅ false false)
      (installStart bridged ∅ [baselineRoot]) members}
      ((computeBaseline bridgedLookup 50).installed : Set String) :=
  ⟨by decide +kernel, computeBaseline_isLeast 50 (by decide +kernel)⟩

end OdooSemantic.Mcp.Install
