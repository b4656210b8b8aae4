import OdooSemantic.Mcp.Install

/-!
# The install set as a least set, whatever the order of its inputs

Universes that list the same modules in other orders, with their depends, triggers and
countries in other orders, give the same result for the same roots.
-/

set_option autoImplicit false

namespace OdooSemantic.Mcp.InstallOrder

open Lib.Closure Lib.Py Mcp.Install

def normal (row : ModuleRow) : ModuleRow :=
  { row with
    depends := sortedSet row.depends
    triggers := row.triggers.map sortedSet
    countries := sortedSet row.countries }

def SameModules (u v : Universe) : Prop :=
  (u.modules.map normal).Perm (v.modules.map normal)

theorem find_normal (u : Universe) (name : String) (row : ModuleRow) :
    (u.find name).map normal = some row ↔ row ∈ u.modules.map normal ∧ row.name = name := by
  constructor
  · intro found
    obtain ⟨raw, isRaw, rfl⟩ := Option.map_eq_some_iff.mp found
    have isName : raw.name = name := by simpa using List.find?_some isRaw
    exact ⟨List.mem_map_of_mem (List.mem_of_find?_eq_some isRaw), isName⟩
  · rintro ⟨member, rfl⟩
    obtain ⟨raw, rawIn, rfl⟩ := List.mem_map.mp member
    have found : u.find raw.name = some raw := by
      cases result : u.find raw.name with
      | none =>
          have := List.find?_eq_none.mp result raw rawIn
          simp at this
      | some other =>
          rw [u.eq_of_name (List.mem_of_find?_eq_some result) rawIn
            (by simpa using List.find?_some result)]
    change (u.find raw.name).map normal = _
    rw [found, Option.map_some]

section Same
variable {u v : Universe} (same : SameModules u v)
include same

theorem find_same (name : String) : (u.find name).map normal = (v.find name).map normal := by
  refine Option.ext fun row => ?_
  rw [find_normal, find_normal, same.mem_iff]

theorem dependsOf_same (name : String) : (u.dependsOf name).1 = (v.dependsOf name).1 ∧
    ∀ dep, dep ∈ (u.dependsOf name).2 ↔ dep ∈ (v.dependsOf name).2 := by
  have related := find_same same name
  unfold Universe.dependsOf
  cases first : u.find name with
  | none =>
      cases second : v.find name with
      | none => exact ⟨rfl, fun _ => Iff.rfl⟩
      | some other => simp [first, second] at related
  | some row =>
      cases second : v.find name with
      | none => simp [first, second] at related
      | some other =>
          rw [first, second] at related
          have rows : normal row = normal other := Option.some.inj related
          have available : (normal row).available = (normal other).available := by rw [rows]
          have depends : (normal row).depends = (normal other).depends := by rw [rows]
          refine ⟨available, fun dep => ?_⟩
          rw [← mem_sortedSet row.depends, ← mem_sortedSet other.depends]
          exact iff_of_eq (congrArg (dep ∈ ·) depends)

theorem available_same (name : String) : u.Available name ↔ v.Available name := by
  rw [Universe.Available, Universe.Available, (dependsOf_same same name).1]

theorem deps_same (name dep : String) : dep ∈ u.deps name ↔ dep ∈ v.deps name :=
  (dependsOf_same same name).2 dep

theorem length_same : u.modules.length = v.modules.length := by
  simpa using same.length_eq

end Same

section Walks
variable {u v : Universe} {known : Finset String}

structure SameWalk (first second : Walk) : Prop where
  seen : first.seen = second.seen
  order : first.order = second.order
  missing : first.missing = second.missing
  next : ∀ name, name ∈ first.nextFrontier ↔ name ∈ second.nextFrontier

theorem visit_same (same : SameModules u v) {first second : Walk} (walks : SameWalk first second)
    (name : String) : SameWalk (visit u known first name) (visit v known second name) := by
  obtain ⟨seen, order, missing, next⟩ := walks
  unfold visit
  simp only [seen, available_same same]
  split_ifs with isSeen isOpen
  · exact ⟨seen, order, missing, next⟩
  · refine ⟨rfl, by rw [order], missing, fun other => ?_⟩
    simp only [List.mem_append, next, List.mem_filter, deps_same same]
  · exact ⟨rfl, order, by rw [missing], next⟩

theorem foldl_visit_same (same : SameModules u v) (frontier : List String) :
    ∀ first second : Walk, SameWalk first second →
      SameWalk (frontier.foldl (visit u known) first) (frontier.foldl (visit v known) second) := by
  induction frontier with
  | nil => exact fun first second walks => walks
  | cons name rest ih => exact fun first second walks => ih _ _ (visit_same same walks name)

theorem SameWalk.frontier {first second : Walk} (walks : SameWalk first second) :
    first.frontier = second.frontier := by
  refine sortedSet_congr fun name => ?_
  simp only [List.mem_filter, walks.next, walks.seen]

variable (known) in
theorem hops_same (same : SameModules u v) (turns : Nat) : ∀ (first second : Walk)
    (frontier : List String), SameWalk first second →
      SameWalk (hops u known turns first frontier) (hops v known turns second frontier) := by
  induction turns with
  | zero =>
      intro first second frontier walks
      cases frontier <;> exact walks
  | succ turns ih =>
      intro first second frontier walks
      cases frontier with
      | nil => exact walks
      | cons name rest =>
          have hopped : SameWalk (hop u known first (name :: rest))
              (hop v known second (name :: rest)) :=
            foldl_visit_same same _ _ _
              ⟨walks.seen, walks.order, walks.missing, fun _ => Iff.rfl⟩
          simp only [hops, hopped.frontier]
          exact ih _ _ _ hopped

theorem dependsClosure_same (same : SameModules u v) (start : List String) :
    dependsClosure u known start = dependsClosure v known start := by
  have walks := hops_same known same (u.modules.length + 1) ⟨[], [], none, []⟩ ⟨[], [],
    none, []⟩ (start.eraseDups.filter (· ∉ known)) ⟨rfl, rfl, rfl, fun _ => Iff.rfl⟩
  unfold dependsClosure
  rw [← length_same same]
  exact Prod.ext walks.order walks.missing

theorem dependsClosure_roots {roots others : List String}
    (same : ∀ name, name ∈ roots ↔ name ∈ others) :
    (dependsClosure u known roots).1.toFinset = (dependsClosure u known others).1.toFinset := by
  ext name
  rw [mem_dependsClosure, mem_dependsClosure]
  constructor
  · rintro ⟨found, isOpen⟩
    exact ⟨found.mono subset_rfl fun other => (same other).mp, isOpen⟩
  · rintro ⟨found, isOpen⟩
    exact ⟨found.mono subset_rfl fun other => (same other).mpr, isOpen⟩

end Walks

section Rounds
variable {u v : Universe} {lookup : CandidateLookup u} {lookup' : CandidateLookup v}

theorem listed_normal (installed excluded : Finset String) (row : ModuleRow) :
    listed installed excluded (normal row) =
      (listed installed excluded row).map Candidate.normal := by
  cases auto : row.triggers with
  | none => simp [listed, normal, auto]
  | some triggers =>
      by_cases may : row.available ∧ row.name ∉ installed ∧ row.name ∉ excluded ∧
          ∀ trigger ∈ triggers, trigger ∈ installed
      · simp [listed, normal, auto, Candidate.normal, may]
      · simp only [listed, normal, auto, Option.map_some, mem_sortedSet, if_neg may,
          Option.map_none]

theorem candidates_normal (u : Universe) (installed excluded : Finset String) :
    (u.candidates installed excluded).map Candidate.normal =
      (u.modules.map normal).filterMap (listed installed excluded) := by
  rw [Universe.candidates, List.map_filterMap, List.filterMap_map]
  congr 1
  funext row
  exact (listed_normal installed excluded row).symm

theorem rows_perm (same : SameModules u v) (now : Progress) :
    ((lookup.rows now.installed now.rejected).map Candidate.normal).Perm
      ((lookup'.rows now.installed now.rejected).map Candidate.normal) := by
  have first := (lookup.lists now.installed now.rejected).map Candidate.normal
  have second := (lookup'.lists now.installed now.rejected).map Candidate.normal
  rw [candidates_normal] at first second
  exact (first.trans (same.filterMap _)).trans second.symm

instance : Std.Total fun first second : Candidate => first.name ≤ second.name :=
  ⟨fun first second => le_total first.name second.name⟩

instance : IsTrans Candidate fun first second => first.name ≤ second.name :=
  ⟨fun _ _ _ => le_trans⟩

variable (lookup lookup') in
theorem sortedRows_same (same : SameModules u v) (now : Progress) :
    sortedRows lookup now = sortedRows lookup' now := by
  have perm : (sortedRows lookup now).Perm (sortedRows lookup' now) :=
    ((List.perm_insertionSort _ _).trans (rows_perm same now)).trans
      (List.perm_insertionSort _ _).symm
  refine perm.eq_of_pairwise (fun row other rowIn otherIn below above => ?_)
    (List.pairwise_insertionSort _ _) (List.pairwise_insertionSort _ _)
  -- a name is listed once
  obtain ⟨m, mIn, raw, isRaw, rfl⟩ := mem_sortedRows.mp rowIn
  obtain ⟨m', mIn', raw', isRaw', rfl⟩ := mem_sortedRows.mp (perm.mem_iff.mpr otherIn)
  obtain ⟨triggers, -, -, rfl⟩ := listed_eq_some.mp isRaw
  obtain ⟨triggers', -, -, rfl⟩ := listed_eq_some.mp isRaw'
  have sameRow : m = m' := u.eq_of_name mIn mIn' (le_antisymm below above)
  subst sameRow
  rw [isRaw, Option.some.injEq] at isRaw'
  rw [isRaw']

variable (lookup lookup') in
theorem fixpoint_same (same : SameModules u v) (mode : Mode) (left : Nat) :
    ∀ (round : Nat) (now : Progress),
      fixpoint lookup mode left round now = fixpoint lookup' mode left round now := by
  have admits : admitRow u mode = admitRow v mode := by
    funext round acceptedNames progress row
    simp only [admitRow, dependsClosure_same same]
  induction left with
  | zero => exact fun round now => rfl
  | succ left ih =>
      intro round now
      simp only [fixpoint, sortedRows_same lookup lookup' same, admits, ih]

theorem computeBaseline_same (same : SameModules u v) (rounds : Nat) :
    computeBaseline lookup rounds = computeBaseline lookup' rounds := by
  simp only [computeBaseline, dependsClosure_same same, fixpoint_same lookup lookup' same]

end Rounds

section Install
variable {u v : Universe} {lookup : CandidateLookup u} {lookup' : CandidateLookup v}

variable (lookup) in
theorem startingBaseline_carried (roots : List String) (maxRounds : Nat) (cached : Option Nat) :
    Carried u (startingBaseline lookup roots maxRounds (cached.map (computeBaseline lookup))) ∧
      (baselineRoot ∈ roots → (startingBaseline lookup roots maxRounds
        (cached.map (computeBaseline lookup))).rejected = ∅) := by
  unfold startingBaseline
  by_cases isCreation : baselineRoot ∈ roots
  · rw [if_pos isCreation]
    exact ⟨⟨nextClosed_empty, by simp⟩, fun _ => rfl⟩
  · rw [if_neg isCreation]
    refine ⟨?_, fun root => absurd root isCreation⟩
    cases cached with
    | none => exact computeBaseline_carried maxRounds
    | some rounds => exact computeBaseline_carried rounds

/-- The rule an install runs: a trigger outside the baseline and the country gate, unless
`base` is installed. -/
def rulesOf (u : Universe) (baseline : Finset String) (roots : List String) (countryGate : Bool) :
    Rules String ModuleRow :=
  installRules u baseline (!decide (baselineRoot ∈ roots))
    (countryGate && !decide (baselineRoot ∈ roots))

theorem install_sound {base : Baseline} {roots : List String} (countryGate : Bool)
    (carried : Carried u base) (creation : baselineRoot ∈ roots → base.rejected = ∅) :
    Sound u ⟨!decide (baselineRoot ∈ roots), true,
        countryGate && !decide (baselineRoot ∈ roots)⟩ base.installed
      ((base.installed ∪ (dependsClosure u base.installed roots).1.toFinset : Finset String) :
        Set String)
      (.initial (base.installed ∪ (dependsClosure u base.installed roots).1.toFinset)
        (dependsClosure u base.installed roots).1.toFinset base.rejected) := by
  refine initial_sound carried.closed fun name member m listedM isName triggers auto => ?_
  refine Or.inl ⟨?_, carried.triggered name member m listedM isName triggers auto⟩
  by_cases isCreation : baselineRoot ∈ roots
  · rw [creation isCreation] at member
    simp at member
  · simpa using isCreation

variable (lookup) in
theorem resolveInstallSet_closure (roots : List String) (maxRounds : Nat) (countryGate : Bool)
    (cached : Option Nat) :
    let result := resolveInstallSet lookup roots maxRounds countryGate
      (cached.map (computeBaseline lookup))
    let least := leastSet (rulesOf u result.baseline roots countryGate)
      (installStart u result.baseline roots)
    (result.installed : Set String) ⊆ least ∧
      (result.truncated = false → (result.installed : Set String) = least) := by
  obtain ⟨carried, creation⟩ :=
    startingBaseline_carried lookup roots.eraseDups maxRounds cached
  have same : ∀ name, name ∈ roots.eraseDups ↔ name ∈ roots := fun name => List.mem_eraseDups
  simp only [resolveInstallSet]
  generalize startingBaseline lookup roots.eraseDups maxRounds
    (cached.map (computeBaseline lookup)) = base at carried creation
  have sound := install_sound countryGate carried creation
  obtain ⟨inside, whole⟩ := fixpoint_closure lookup maxRounds sound
  have start : installStart u base.installed roots =
      ((base.installed ∪ (dependsClosure u base.installed roots.eraseDups).1.toFinset :
        Finset String) : Set String) := by
    rw [installStart_eq carried.closed, dependsClosure_roots fun name => (same name).symm]
  simp only [same] at inside whole ⊢
  simp only [rulesOf, start]
  exact ⟨inside, fun done => whole (Bool.or_eq_false_iff.mp done).2⟩

theorem resolveInstallSet_same (same : SameModules u v) {roots roots' : List String}
    (sameRoots : ∀ name, name ∈ roots ↔ name ∈ roots') (maxRounds : Nat) (countryGate : Bool)
    (cached : Option Nat) :
    (resolveInstallSet lookup roots maxRounds countryGate
        (cached.map (computeBaseline lookup))).answer =
      (resolveInstallSet lookup' roots' maxRounds countryGate
        (cached.map (computeBaseline lookup'))).answer := by
  have baselines : computeBaseline lookup = computeBaseline lookup' :=
    funext (computeBaseline_same same)
  have isRoot : ∀ name, name ∈ roots.eraseDups ↔ name ∈ roots'.eraseDups := by
    intro name
    rw [List.mem_eraseDups, List.mem_eraseDups, sameRoots]
  simp only [InstallSet.answer, resolveInstallSet, startingBaseline, isRoot, baselines,
    dependsClosure_same same, fixpoint_same lookup lookup' same, dependsClosure_roots isRoot]

/-- The install set is the least set with the baseline and the depends closure of the roots
that the rule is closed on, a part of it when the cap was hit, and no order of the inputs
matters. -/
theorem resolveInstallSet_isLeast (u : Universe) (lookup : CandidateLookup u) (roots : List String)
    (maxRounds : Nat) (countryGate : Bool) (cached : Option Nat) :
    let result := resolveInstallSet lookup roots maxRounds countryGate
      (cached.map (computeBaseline lookup))
    let rules := rulesOf u result.baseline roots countryGate
    let start := installStart u result.baseline roots
    (result.truncated = false →
        IsLeast {members | Closed rules start members} (result.installed : Set String)) ∧
      (result.truncated = true → (result.installed : Set String) ⊆ leastSet rules start) ∧
      ∀ (v : Universe) (lookup' : CandidateLookup v) (roots' : List String), SameModules u v →
        (∀ name, name ∈ roots ↔ name ∈ roots') →
        result.answer = (resolveInstallSet lookup' roots' maxRounds countryGate
          (cached.map (computeBaseline lookup'))).answer := by
  intro result rules start
  have spec := resolveInstallSet_closure lookup roots maxRounds countryGate cached
  obtain ⟨inside, whole⟩ := spec
  refine ⟨fun done => ?_, fun _ => inside, fun v lookup' roots' same sameRoots =>
    resolveInstallSet_same same sameRoots maxRounds countryGate cached⟩
  rw [whole done]
  exact leastSet_isLeast start

/-- With the cap hit or not, whatever the options: the set has the baseline and the available
part of the roots' depends, and the available depends of each of its modules. -/
theorem resolveInstallSet_complete (u : Universe) (lookup : CandidateLookup u)
    (roots : List String) (maxRounds : Nat) (countryGate : Bool) (cached : Option Nat) :
    let result := resolveInstallSet lookup roots maxRounds countryGate
      (cached.map (computeBaseline lookup))
    installStart u result.baseline roots ⊆ (result.installed : Set String) ∧
      NextClosed u.deps u.Available (result.installed : Set String) := by
  obtain ⟨carried, creation⟩ :=
    startingBaseline_carried lookup roots.eraseDups maxRounds cached
  simp only [resolveInstallSet]
  generalize startingBaseline lookup roots.eraseDups maxRounds
    (cached.map (computeBaseline lookup)) = base at carried creation
  have initial := install_sound countryGate carried creation
  have sound := (fixpoint_sound lookup maxRounds 1 _ initial).1
  refine ⟨?_, sound.closed⟩
  rw [installStart_eq carried.closed, dependsClosure_roots fun _ => List.mem_eraseDups.symm]
  exact sound.grown.from_start

end Install

end OdooSemantic.Mcp.InstallOrder
