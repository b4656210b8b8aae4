import OdooSemantic.Registry.Commits

/-!
# The parent graph

`set_profile_parent` locks the profile and its new parent and walks over the ancestors without
locks.  Between the walk and the UPDATE other links can be committed above the new parent.
-/

set_option autoImplicit false

namespace OdooSemantic.Registry

open Lib Lib.Run Lib.Forest

/-- The chain of `get_ancestor_repos`, self first; nothing when the query does not end. -/
def Tables.chain (tables : Tables) (id : Nat) : Option (List Nat) :=
  walkUp tables.parentOf (tables.ids.length + 1) id

def getAncestorRepos (tables : Tables) (profileName : String) : Option (List Repo) :=
  match tables.profiles.rows.find? (·.name == profileName) with
  | none => some []
  | some profile => (tables.chain profile.id).map fun ids => ids.flatMap fun id =>
      (tables.repos.rows.filter (·.profileId == id)).mergeSort fun first second =>
        first.id ≤ second.id

/-- No link committed since its walk lies between a new parent and the profile put under it. -/
def unlinkedAbove (state : State) : Event → Bool
  | .act thread =>
      match state.threads[thread]? with
      | some (.setProfileParent profileId (some parentId) (.validated seen)) =>
          (state.links.drop seen).all fun (child, above) =>
            !(state.parentOf child == some above && (state.ancestors parentId).contains child &&
              (state.ancestors above).contains profileId)
      | _ => true
  | _ => true

def Tables.oldParentOf (tables : Tables) (seen id : Nat) : Option Nat :=
  (tables.parentOf id).filter fun above => !(tables.links.drop seen).contains (id, above)

section Links
variable {tables : Tables} {write : Write} {seen : Nat}

theorem oldParentOf_eq_some {id above : Nat} : tables.oldParentOf seen id = some above ↔
    tables.parentOf id = some above ∧ (id, above) ∉ tables.links.drop seen := by
  unfold Tables.oldParentOf
  rw [Option.filter_eq_some_iff]
  simp

theorem oldParentOf_within : Within (tables.oldParentOf seen) tables.parentOf :=
  fun _ _ link => (oldParentOf_eq_some.mp link).1

theorem oldParentOf_commit (keyed : tables.profiles.Keyed (·.id)) (bound : seen ≤ tables.links.length) :
    Within ((tables.commit write).oldParentOf seen) (tables.oldParentOf seen) := by
  intro id above link
  obtain ⟨current, old⟩ := oldParentOf_eq_some.mp link
  rw [commit_links, List.drop_append_of_le_length bound] at old
  refine oldParentOf_eq_some.mpr ⟨?_, fun recent => old (List.mem_append_left _ recent)⟩
  rcases parentOf_commit keyed current with made | before
  · exact absurd (List.mem_append_right _ (by simp [made])) old
  · exact before

theorem ids_support {id : Nat} (linked : (tables.parentOf id).isSome = true) : id ∈ tables.ids := by
  obtain ⟨above, link⟩ := Option.isSome_iff_exists.mp linked
  obtain ⟨row, found, -⟩ := Option.bind_eq_some_iff.mp link
  have same : row.id = id := by simpa using List.find?_some found
  exact mem_ids.mpr ⟨row, List.mem_of_find?_eq_some found, same⟩

theorem contains_ancestors (acyclic : Acyclic tables.parentOf) {low high : Nat} :
    (tables.ancestors low).contains high = true ↔ Reaches tables.parentOf low high := by
  rw [List.contains_iff_mem]
  exact acyclic.mem_ancestors fun _ linked => ids_support linked

theorem parentOf_adds (keyed : tables.profiles.Keyed (·.id)) {child above : Nat}
    (made : write.link tables.profiles.nextId = some (child, above)) :
    Adds tables.parentOf (tables.commit write).parentOf child above := by
  intro id top link
  rcases parentOf_commit keyed link with new | old
  · rw [made] at new
    cases new
    exact Or.inr ⟨rfl, rfl⟩
  · exact Or.inl old

end Links

/-- The walk of a validated `set_profile_parent` still holds for the old links. -/
def Walked (tables : Tables) : Phase → Prop
  | .setProfileParent profileId parentId (.validated seen) => seen ≤ tables.links.length ∧
      ∀ above, parentId = some above → ¬ Reaches (tables.oldParentOf seen) above profileId
  | _ => True

structure Forested (state : State) : Prop where
  consistent : Consistent state
  acyclic : Acyclic state.parentOf
  walked : ∀ (thread : Nat) (phase : Phase), state.threads[thread]? = some phase →
    Walked state.toTables phase

section Steps
variable {state : State} {tables : Tables} {write : Write} {phase : Phase}

theorem Walked.commit (keyed : tables.profiles.Keyed (·.id)) (walked : Walked tables phase) :
    Walked (tables.commit write) phase := by
  unfold Walked at walked ⊢
  split
  · rename_i profileId parentId seen
    obtain ⟨bound, apart⟩ := walked
    refine ⟨?_, fun above under reaches =>
      apart above under (reaches.mono (oldParentOf_commit keyed bound))⟩
    rw [commit_links, List.length_append]
    omega
  · trivial

theorem Moves.walked {view : View} {phase' : Phase} {locks : List (Nat × RowLocks.Mode)}
    (moves : Moves view phase locks phase') (acyclic : Acyclic view.parentOf) :
    Walked view.toTables phase' := by
  cases moves with
  | walk profileId parentId apart =>
      refine ⟨Nat.le_refl _, fun above under reaches => ?_⟩
      cases under
      have found := (contains_ancestors acyclic).mpr (reaches.mono oldParentOf_within)
      rw [found] at apart
      cases apart
  | noParent profileId => exact ⟨Nat.le_refl _, fun above under => by cases under⟩
  | _ => trivial

theorem unreached_of_unlinkedAbove (acyclic : Acyclic state.parentOf) {thread profileId parentId seen : Nat}
    (at' : state.threads[thread]? =
      some (.setProfileParent profileId (some parentId) (.validated seen)))
    (apart : ¬ Reaches (state.oldParentOf seen) parentId profileId)
    (clear : unlinkedAbove state (.act thread) = true) :
    ¬ Reaches state.parentOf parentId profileId := by
  intro reaches
  rcases reaches.split (state.oldParentOf seen) with old | ⟨child, above, link, late, before, after⟩
  · exact apart old
  · simp only [unlinkedAbove, at', List.all_eq_true] at clear
    have recent : (child, above) ∈ state.links.drop seen := by
      by_contra early
      exact late (oldParentOf_eq_some.mpr ⟨link, early⟩)
    have between := clear (child, above) recent
    have up : (state.ancestors parentId).contains child = true := (contains_ancestors acyclic).mpr before
    have down : (state.ancestors above).contains profileId = true :=
      (contains_ancestors acyclic).mpr after
    rw [link, up, down] at between
    simp at between

theorem Forested.commit (forested : Forested state) {thread : Nat}
    (at' : state.threads[thread]? = some phase) (writes : Writes (state.view thread) phase write)
    (clear : unlinkedAbove state (.act thread) = true) :
    Acyclic (state.toTables.commit write).parentOf := by
  have keyed := forested.consistent.stored.keyed
  cases made : write.link state.profiles.nextId with
  | none =>
      refine forested.acyclic.anti fun id above link => ?_
      rcases parentOf_commit keyed link with new | old
      · rw [made] at new
        cases new
      · exact old
  | some link =>
      obtain ⟨child, above⟩ := link
      refine forested.acyclic.link (parentOf_adds keyed made) ?_
      cases writes with
      | insertProfile args tenantId =>
          -- the new profile is not the parent of any profile yet
          simp only [Write.link, Option.map_eq_some_iff] at made
          obtain ⟨parentId, under, same⟩ := made
          cases same
          intro reaches
          have known := forested.consistent.refers thread _ at' above under
          refine forested.consistent.stored.nextId_new (reaches.inside (· ∈ state.ids) ?_ known)
          intro id top _ link
          obtain ⟨row, rowIn, -, linked⟩ := (parentOf_eq_some keyed).mp link
          exact forested.consistent.stored.parents row rowIn top linked
      | setParent profileId parentId seen profile found granted =>
          simp only [Write.link, Option.map_eq_some_iff] at made
          obtain ⟨parentId, rfl, same⟩ := made
          cases same
          exact unreached_of_unlinkedAbove forested.acyclic at'
            ((forested.walked thread _ at').2 above rfl) clear
      | setTenant profileId tenantId confirmShared profile
      | setRepoTenant repoId tenantId profileId
      | insertRepo profileId tenantId profileTenant
      | setFields profileId args current seen granted => cases made

theorem Forested.step (forested : Forested state) {event : Event}
    (clear : unlinkedAbove state event = true) : Forested (Registry.step state event) := by
  have consistent := forested.consistent.step event
  have change := step_cases state event
  generalize Registry.step state event = reached at consistent change
  refine ⟨consistent, ?_, ?_⟩
  · cases change with
    | same | begun call begins | moved thread phase phase' locks acts at' moves
    | ended thread outcome => exact forested.acyclic
    | committed thread phase write outcome acts at' writes =>
        rw [acts] at clear
        exact forested.commit at' writes clear
  · intro other phase' other'
    cases change with
    | same => exact forested.walked other phase' other'
    | begun call begins =>
        rcases snoc_cases other' with rfl | old
        · cases call <;> trivial
        · exact forested.walked other phase' old
    | moved thread phase next locks acts at' moves =>
        rcases set_cases other' with ⟨-, rfl⟩ | ⟨-, old⟩
        · exact moves.walked forested.acyclic
        · exact forested.walked other phase' old
    | committed thread phase write outcome acts at' writes =>
        rcases set_cases other' with ⟨-, rfl⟩ | ⟨-, old⟩
        · trivial
        · exact (forested.walked other phase' old).commit forested.consistent.stored.keyed
    | ended thread outcome =>
        rcases set_cases other' with ⟨-, rfl⟩ | ⟨-, old⟩
        · trivial
        · exact forested.walked other phase' old

end Steps

section Queries
variable {tables : Tables}

theorem parentOf_of_children (keyed : tables.profiles.Keyed (·.id)) (id child : Nat)
    (member : child ∈ tables.children id) : tables.parentOf child = some id := by
  obtain ⟨row, rowIn, rfl⟩ := List.mem_map.mp member
  obtain ⟨stored, linked⟩ := List.mem_filter.mp rowIn
  exact (parentOf_eq_some keyed).mpr ⟨row, stored, rfl, by simpa using linked⟩

theorem getAncestorRepos_ends (acyclic : Acyclic tables.parentOf) (profileName : String) :
    (getAncestorRepos tables profileName).isSome = true := by
  unfold getAncestorRepos
  split
  · rfl
  · rename_i profile found
    have ends := acyclic.walkUp_ends (fun _ linked => ids_support linked) profile.id
    simpa [Tables.chain] using ends

theorem descendants_ends (keyed : tables.profiles.Keyed (·.id)) (acyclic : Acyclic tables.parentOf)
    (id : Nat) : (tables.descendants id).isSome = true :=
  acyclic.walkDown_ends (fun _ linked => ids_support linked) (parentOf_of_children keyed) id

end Queries

/-- In every run whose re-parentings meet the condition the parent graph stays acyclic, and the
unbounded queries end. -/
theorem stays_acyclic (profiles : Table Profile) (repos : Table Repo)
    (stored : Stored (resting profiles repos).toTables)
    (acyclic : Acyclic (resting profiles repos).parentOf) (events : List Event)
    (clear : AllSteps step (fun state event => unlinkedAbove state event = true)
      (resting profiles repos) events) :
    Acyclic (run step (resting profiles repos) events).parentOf ∧
      (∀ profileName,
        (getAncestorRepos (run step (resting profiles repos) events).toTables profileName).isSome =
          true) ∧
      ∀ id, ((run step (resting profiles repos) events).descendants id).isSome = true := by
  have start : Forested (resting profiles repos) :=
    ⟨consistent_resting stored, acyclic, fun thread phase at' => by simp [resting] at at'⟩
  have reached := run_preserves_guarded step _ Forested
    (fun state event clear forested => forested.step clear) events _ clear start
  exact ⟨reached.acyclic, getAncestorRepos_ends reached.acyclic,
    descendants_ends reached.consistent.stored.keyed reached.acyclic⟩

def sampleProfile (id : Nat) (name : String) (parentProfileId : Option Nat) : Profile :=
  { id, name, odooVersion := "17.0", description := none, parentProfileId, tenantId := none }

/-- 2 is under 3, and 4 is under 1. -/
def twoChains : Table Profile :=
  ⟨[sampleProfile 1 "odoo_17" none, sampleProfile 2 "internal_17" (some 3),
    sampleProfile 3 "standard_17" none, sampleProfile 4 "customer_17" (some 1)], 5⟩

theorem twoChains_stored : Stored (resting twoChains ⟨[], 1⟩).toTables := by
  refine ⟨⟨by decide, by decide⟩, ?_, by decide⟩
  intro row member parentId linked
  simp only [resting, twoChains, List.mem_cons, List.not_mem_nil, or_false] at member
  rcases member with rfl | rfl | rfl | rfl <;> cases linked <;> decide

theorem twoChains_acyclic : Acyclic (resting twoChains ⟨[], 1⟩).parentOf := by
  intro id above link reaches
  obtain ⟨row, member, rfl, linked⟩ := (parentOf_eq_some twoChains_stored.keyed).mp link
  simp only [resting, twoChains, List.mem_cons, List.not_mem_nil, or_false] at member
  have top : ∀ high, (resting twoChains ⟨[], 1⟩).parentOf above = none →
      Reaches (resting twoChains ⟨[], 1⟩).parentOf above high → high = above := by
    intro high root reaches
    refine reaches.inside (· = above) ?_ rfl
    rintro node top rfl up
    rw [root] at up
    cases up
  rcases member with rfl | rfl | rfl | rfl <;> cases linked
  · exact absurd (top 2 (by decide) reaches) (by decide)
  · exact absurd (top 4 (by decide) reaches) (by decide)

/-- A profile is put under another while a third is added. -/
def quietEvents : List Event :=
  [.begin (.setProfileParent 3 (some 4)),
    .begin (.addProfile ⟨"partner_17", "17.0", "", some 2, none, true⟩),
    .act 0, .act 0, .act 0, .act 0, .act 0, .act 1, .act 1, .act 0]

theorem quiet_run_acyclic :
    Acyclic (run step (resting twoChains ⟨[], 1⟩) quietEvents).parentOf ∧
      (run step (resting twoChains ⟨[], 1⟩) quietEvents).links = [(5, 2), (3, 4)] :=
  ⟨(stays_acyclic twoChains ⟨[], 1⟩ twoChains_stored twoChains_acyclic quietEvents
      (by decide +kernel)).1, by decide +kernel⟩

/-- 1 goes under 2 and 3 under 4: the two calls lock different rows, and each walks over the
ancestors before the other commits. -/
def crossingEvents : List Event :=
  [.begin (.setProfileParent 1 (some 2)), .begin (.setProfileParent 3 (some 4)),
    .act 0, .act 0, .act 0, .act 0, .act 0, .act 1, .act 1, .act 1, .act 1, .act 1, .act 0, .act 1]

theorem crossing_reparents_close_cycle :
    Stored (resting twoChains ⟨[], 1⟩).toTables ∧ Acyclic (resting twoChains ⟨[], 1⟩).parentOf ∧
      ¬ Acyclic (run step (resting twoChains ⟨[], 1⟩) crossingEvents).parentOf ∧
      ∀ fuel, walkUp (run step (resting twoChains ⟨[], 1⟩) crossingEvents).parentOf fuel 1 = none := by
  refine ⟨twoChains_stored, twoChains_acyclic, ?_, ?_⟩
  · intro acyclic
    exact acyclic 1 2 (by decide +kernel) ⟨3, by decide +kernel⟩
  · refine walkUp_never fun high reaches => ?_
    have inside : high ∈ [1, 2, 3, 4] := by
      refine reaches.inside (· ∈ [1, 2, 3, 4]) ?_ (by decide)
      intro node above member link
      have closed : ∀ node ∈ [1, 2, 3, 4], ∀ above ∈
          (run step (resting twoChains ⟨[], 1⟩) crossingEvents).parentOf node,
          above ∈ [1, 2, 3, 4] := by
        decide +kernel
      exact closed node member above link
    have linked : ∀ node ∈ [1, 2, 3, 4],
        ((run step (resting twoChains ⟨[], 1⟩) crossingEvents).parentOf node).isSome = true := by
      decide +kernel
    exact linked high inside

end OdooSemantic.Registry
