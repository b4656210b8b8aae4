import OdooSemantic.Lib.BoundedWalk
import OdooSemantic.Registry.Profiles

/-!
# The ancestor walk

`get_ancestor_profile_names` follows the parent links in a recursive query that cuts a row on a
cycle or at the depth limit, and drops the repeated name of a row that closes a cycle.
-/

set_option autoImplicit false

namespace OdooSemantic.Registry.AncestorNames

open Lib.Forest Lib.BoundedWalk

def maxProfileDepth : Nat := 16

/-- The rows of `profiles`: `id` is the primary key and `name` is unique. -/
structure ProfileRows where
  rows : List Profile
  ids : (rows.map Profile.id).Nodup
  names : (rows.map Profile.name).Nodup

/-- A row of `chain`: the profile, `depth`, `path` and `cut`. -/
abbrev ChainRow := Visit Profile Nat

def base (profiles : ProfileRows) (profileName : String) : List ChainRow :=
  (profiles.rows.filter fun row => row.name == profileName).map fun row =>
    ⟨row, 0, [row.id], false⟩

def joined (profiles : ProfileRows) (chain : ChainRow) : List ChainRow :=
  if chain.cut then []
  else (profiles.rows.filter fun row => some row.id == chain.node.parentProfileId).map fun row =>
    { node := row
      depth := chain.depth + 1
      path := chain.path ++ [row.id]
      cut := decide (row.id ∈ chain.path) ||
        (decide (maxProfileDepth ≤ chain.depth + 1) && row.parentProfileId.isSome) }

/-- `if name not in names: names.append(name)` over the rows by depth; nothing when the query
does not end. -/
def getAncestorProfileNames (profiles : ProfileRows) (profileName : String) (fuel : Nat) :
    Option (List String) :=
  (walkDown (joined profiles) fuel (base profiles profileName)).map fun rows =>
    firsts ((rows.mergeSort fun first second => first.depth ≤ second.depth).map
      fun row => row.node.name)

def ProfileRows.parent (profiles : ProfileRows) (profile : Profile) : Option Profile :=
  profile.parentProfileId.bind fun id => profiles.rows.find? fun row => row.id == id

def ProfileRows.links (profiles : ProfileRows) : Links Profile Nat where
  parent := profiles.parent
  key := Profile.id
  more profile := profile.parentProfileId.isSome
  tells profile above link := by
    obtain ⟨id, isSome, -⟩ := Option.bind_eq_some_iff.mp link
    rw [isSome]
    rfl

structure Ancestors (profiles : ProfileRows) (profileName : String) (names : List String) :
    Prop where
  distinct : names.Nodup
  self : ∀ profile ∈ profiles.rows, profile.name = profileName →
    names.head? = some profileName
  upwards : ∀ profile ∈ profiles.rows, profile.name = profileName → ∀ steps name,
    names[steps]? = some name → (climb profiles.parent steps profile).map Profile.name = some name
  whole : ∀ profile ∈ profiles.rows, profile.name = profileName → ∀ enough chain,
    walkUp profiles.parent enough profile = some chain → chain.length ≤ maxProfileDepth + 1 →
      names = chain.map Profile.name
  unknown : (∀ profile ∈ profiles.rows, profile.name ≠ profileName) → names = []

section Rows
variable {profiles : ProfileRows} {profileName : String} {profile : Profile} {fuel : Nat}

theorem filter_unique {Key : Type} [DecidableEq Key] (key : Profile → Key) {rows : List Profile}
    (distinct : (rows.map key).Nodup) (wanted : Key) :
    (rows.filter fun row => key row == wanted) =
      (rows.find? fun row => key row == wanted).toList := by
  induction rows with
  | nil => rfl
  | cons row rest ih =>
      obtain ⟨fresh, others⟩ := List.nodup_cons.mp distinct
      rw [List.filter_cons, List.find?_cons]
      cases same : key row == wanted with
      | false =>
          rw [if_neg Bool.false_ne_true]
          exact ih others
      | true =>
          have none : rest.filter (fun other => key other == wanted) = [] := by
            refine List.filter_eq_nil_iff.mpr fun other listed again => fresh ?_
            rw [eq_of_beq same, ← eq_of_beq again]
            exact List.mem_map_of_mem listed
          rw [if_pos rfl, none]
          rfl

theorem base_of_mem (listed : profile ∈ profiles.rows) (named : profile.name = profileName) :
    base profiles profileName = [profiles.links.first profile] := by
  have found : (profiles.rows.find? fun row => row.name == profileName) = some profile := by
    cases found : profiles.rows.find? fun row => row.name == profileName with
    | none =>
        have missed := List.find?_eq_none.mp found profile listed
        exact absurd (beq_iff_eq.mpr named) missed
    | some other =>
        have isNamed := List.find?_some found
        have sameName : other.name = profileName := eq_of_beq isNamed
        have otherListed := List.mem_of_find?_eq_some found
        rw [List.inj_on_of_nodup_map profiles.names otherListed listed (sameName.trans named.symm)]
  rw [base, filter_unique Profile.name profiles.names, found]
  rfl

theorem joined_eq_up (chain : ChainRow) :
    joined profiles chain = (profiles.links.up maxProfileDepth chain).toList := by
  unfold joined Links.up
  cases chain.cut with
  | true => rfl
  | false =>
      rw [if_neg Bool.false_ne_true, if_neg Bool.false_ne_true]
      dsimp only [ProfileRows.links, ProfileRows.parent]
      cases chain.node.parentProfileId with
      | none =>
          have none : (profiles.rows.filter fun row => some row.id == none) = [] :=
            List.filter_eq_nil_iff.mpr fun row _ => Bool.false_ne_true
          rw [none]
          rfl
      | some id =>
          have one := filter_unique Profile.id profiles.ids id
          have same : (profiles.rows.filter fun row => some row.id == some id) =
              profiles.rows.filter fun row => row.id == id := rfl
          rw [same, one, Option.bind_some]
          cases profiles.rows.find? fun row => row.id == id with
          | none | some row => rfl

theorem climb_mem (listed : profile ∈ profiles.rows) {steps : Nat} {above : Profile}
    (climbs : climb profiles.parent steps profile = some above) : above ∈ profiles.rows := by
  induction steps generalizing profile with
  | zero =>
      cases climbs
      exact listed
  | succ steps ih =>
      obtain ⟨next, link, rest⟩ := climb_succ_cases climbs
      obtain ⟨id, -, found⟩ := Option.bind_eq_some_iff.mp link
      exact ih (List.mem_of_find?_eq_some found) rest

theorem tellsApart {Value : Type} {value : Profile → Value}
    (distinct : (profiles.rows.map value).Nodup) (listed : profile ∈ profiles.rows) :
    TellsApart profiles.links profile value := by
  intro first second low high lowClimbs highClimbs same
  exact List.inj_on_of_nodup_map distinct (climb_mem listed lowClimbs)
    (climb_mem listed highClimbs) same

theorem rows_sorted {visits : List ChainRow}
    (walked : walkUp (profiles.links.up maxProfileDepth) fuel (profiles.links.first profile) =
      some visits) :
    (visits.mergeSort fun first second => first.depth ≤ second.depth) = visits := by
  refine List.mergeSort_of_pairwise (List.pairwise_iff_getElem.mpr ?_)
  intro low high lowRange highRange order
  have lowRow := row_reached walked (List.getElem?_eq_getElem lowRange)
  have highRow := row_reached walked (List.getElem?_eq_getElem highRange)
  rw [lowRow.depth, highRow.depth]
  exact decide_eq_true (Nat.le_of_lt order)

theorem names_of_mem (listed : profile ∈ profiles.rows) (named : profile.name = profileName)
    {visits : List ChainRow}
    (walked : walkUp (profiles.links.up maxProfileDepth) fuel (profiles.links.first profile) =
      some visits) :
    getAncestorProfileNames profiles profileName fuel =
      some (firsts (visits.map fun row => row.node.name)) := by
  rw [getAncestorProfileNames, base_of_mem listed named, walkDown_singleton joined_eq_up, walked,
    Option.map_some, rows_sorted walked]

theorem names_of_unknown (unknown : ∀ row ∈ profiles.rows, row.name ≠ profileName) :
    getAncestorProfileNames profiles profileName fuel = some [] := by
  have none : base profiles profileName = [] := by
    rw [base, List.filter_eq_nil_iff.mpr fun row listed same =>
      unknown row listed (eq_of_beq same)]
    rfl
  have ends : walkDown (joined profiles) fuel [] = some [] := by cases fuel <;> rfl
  rw [getAncestorProfileNames, none, ends, Option.map_some, List.mergeSort_nil]
  rfl

theorem ancestors_of_mem (listed : profile ∈ profiles.rows) (named : profile.name = profileName)
    {visits : List ChainRow}
    (walked : walkUp (profiles.links.up maxProfileDepth) fuel (profiles.links.first profile) =
      some visits) :
    Ancestors profiles profileName (firsts (visits.map fun row => row.node.name)) := by
  have keyed := tellsApart profiles.ids listed
  have labelled := tellsApart profiles.names listed
  have only : ∀ other ∈ profiles.rows, other.name = profileName → other = profile :=
    fun other otherListed same =>
      List.inj_on_of_nodup_map profiles.names otherListed listed (same.trans named.symm)
  obtain ⟨kept, some_, front, same⟩ := firsts_rows keyed labelled walked
  have keptAt : ∀ steps row, kept[steps]? = some row → Reached profiles.links profile steps row := by
    intro steps row atSteps
    refine row_reached walked ?_
    obtain ⟨rest, rfl⟩ := front
    rwa [List.getElem?_append_left (List.getElem?_eq_some_iff.mp atSteps).1]
  constructor
  · exact firsts_nodup _
  · intro other otherListed otherNamed
    rw [same]
    obtain ⟨first, rest, rfl⟩ := List.exists_cons_of_ne_nil some_
    have isFirst := (keptAt 0 first rfl).climbs
    cases isFirst
    rw [List.map_cons, List.head?_cons, named]
  · intro other otherListed otherNamed steps name atSteps
    rw [only other otherListed otherNamed]
    rw [same, List.getElem?_map] at atSteps
    obtain ⟨row, isRow, rfl⟩ := Option.map_eq_some_iff.mp atSteps
    have climbs := (keptAt steps row isRow).climbs
    dsimp only [ProfileRows.links] at climbs
    rw [climbs]
    rfl
  · intro other otherListed otherNamed enough chain ends short
    rw [only other otherListed otherNamed] at ends
    have rows := rows_chain keyed walked ends short
    have names : (visits.map fun row => row.node.name) = chain.map Profile.name := by
      rw [← rows, List.map_map]
      rfl
    rw [names]
    exact firsts_of_nodup (chain_nodup labelled ends)
  · intro unknown
    exact absurd named (unknown profile listed)

end Rows

/-- The walk ends whatever the links are and gives the ancestors. -/
theorem ancestorNames_end (profiles : ProfileRows) (profileName : String) :
    ∃ names, Ancestors profiles profileName names ∧
      ∀ fuel, maxProfileDepth + 2 ≤ fuel →
        getAncestorProfileNames profiles profileName fuel = some names := by
  by_cases known : ∃ profile ∈ profiles.rows, profile.name = profileName
  · obtain ⟨profile, listed, named⟩ := known
    obtain ⟨visits, walked⟩ := walk_ends profiles.links profile (Nat.le_refl (maxProfileDepth + 2))
    refine ⟨_, ancestors_of_mem listed named walked, fun fuel enough => ?_⟩
    obtain ⟨again, walkedAgain⟩ := walk_ends profiles.links profile enough
    have same : again = visits := by
      refine List.ext_getElem? fun index => ?_
      rw [walkUp_get walkedAgain, walkUp_get walked]
    rw [same] at walkedAgain
    exact names_of_mem listed named walkedAgain
  · have unknown : ∀ profile ∈ profiles.rows, profile.name ≠ profileName :=
      fun profile listed same => known ⟨profile, listed, same⟩
    refine ⟨[], ⟨List.nodup_nil, ?_, ?_, ?_, fun _ => rfl⟩, fun fuel _ => names_of_unknown unknown⟩
    · exact fun profile listed same => absurd same (unknown profile listed)
    · exact fun profile listed same => absurd same (unknown profile listed)
    · exact fun profile listed same => absurd same (unknown profile listed)

/-- The names of an unknown profile do not begin with its name. -/
theorem unknownName_absent : ¬ ∀ (profiles : ProfileRows) (profileName : String), ∃ fuel names,
    getAncestorProfileNames profiles profileName fuel = some names ∧
      names.head? = some profileName := by
  intro always
  obtain ⟨fuel, names, got, first⟩ :=
    always ⟨[], List.nodup_nil, List.nodup_nil⟩ "nonexistent"
  rw [names_of_unknown (fun row listed => absurd listed List.not_mem_nil)] at got
  cases got
  cases first

end OdooSemantic.Registry.AncestorNames
