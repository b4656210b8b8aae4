import OdooSemantic.Registry.AncestorNames
import OdooSemantic.Registry.Visibility

/-!
# What a profile reads along its chain

No two profiles ever share a name, so the names of a chain stand for its profiles in every state.
In a lawful registry the chain stays in the tenant and at the version of the profile it is for.
-/

set_option autoImplicit false

namespace OdooSemantic.Registry.ReadScope

open Lib Lib.Forest Lib.BoundedWalk Lib.Run AncestorNames

def Named (tables : Tables) : Prop :=
  ∀ row ∈ tables.profiles.rows, ∀ other ∈ tables.profiles.rows, row.name = other.name →
    row.id = other.id

/-- No other profile has the name that is written. -/
def Fresh (tables : Tables) : Write → Prop
  | .insertProfile args _ => ∀ row ∈ tables.profiles.rows, row.name ≠ args.name
  | .setFields profileId updates => ∀ name, updates.name = some name →
      ∀ row ∈ tables.profiles.rows, row.name = name → row.id = profileId
  | _ => True

section Names
variable {tables : Tables} {write : Write} {row : Profile}

theorem name_origin (fresh : Fresh tables write)
    (member : row ∈ (tables.commit write).profiles.rows) :
    (∃ old ∈ tables.profiles.rows, old.id = row.id ∧ old.name = row.name) ∨
      row.id = write.target.getD tables.profiles.nextId ∧
        ∀ other ∈ tables.profiles.rows, other.name = row.name → other.id = row.id := by
  rcases mem_commit member with ⟨kept, -⟩ | ⟨old, oldIn, hit, rfl⟩ | inserted
  · exact Or.inl ⟨row, kept, rfl, rfl⟩
  · cases write with
    | setFields profileId updates =>
        cases given : updates.name with
        | none => exact Or.inl ⟨old, oldIn, rfl, by simp [Write.rewrite, given]⟩
        | some name =>
            cases hit
            refine Or.inr ⟨rfl, fun other otherIn same => fresh name given other otherIn ?_⟩
            simpa [Write.rewrite, given] using same
    | _ => exact Or.inl ⟨old, oldIn, (rewrite_id _ old).symm, rfl⟩
  · cases write with
    | insertProfile args tenantId =>
        rw [List.mem_singleton.mp inserted]
        exact Or.inr ⟨rfl, fun other otherIn same => absurd same (fresh other otherIn)⟩
    | _ => cases inserted

theorem Named.commit (named : Named tables) (fresh : Fresh tables write) :
    Named (tables.commit write) := by
  intro row rowIn other otherIn same
  rcases name_origin fresh rowIn with ⟨old, oldIn, oldId, oldName⟩ | ⟨anew, claims⟩
  · rcases name_origin fresh otherIn with ⟨old', oldIn', oldId', oldName'⟩ | ⟨-, claims⟩
    · rw [← oldId, ← oldId']
      exact named old oldIn old' oldIn' (by rw [oldName, same, oldName'])
    · rw [← oldId]
      exact claims old oldIn (oldName.trans same)
  · rcases name_origin fresh otherIn with ⟨old', oldIn', oldId', oldName'⟩ | ⟨anew', -⟩
    · rw [← oldId']
      exact (claims old' oldIn' (oldName'.trans same.symm)).symm
    · rw [anew, anew']

end Names

/-- The unique index is looked at by the statement that writes. -/
theorem commits_fresh {view : View} {phase : Phase} {write : Write} {outcome : Outcome}
    (commits : next view phase = .finish (some write) outcome) : Fresh view.toTables write := by
  have does := next_does view phase
  rw [commits] at does
  cases does with
  | commits _ _ writes =>
      cases writes with
      | insertProfile args tenantId =>
          simp only [next, addProfile] at commits
          split at commits
          · cases commits
          · rename_i absent
            intro row rowIn same
            exact absent (List.any_eq_true.mpr ⟨row, rowIn, beq_iff_eq.mpr same⟩)
      | setFields profileId args current seen granted =>
          intro name given row rowIn same
          simp only [next, updateProfile, granted, given, if_true] at commits
          split at commits
          · cases commits
          · split at commits
            · cases commits
            · split at commits
              · cases commits
              · rename_i free
                by_contra apart
                exact free (List.any_eq_true.mpr ⟨row, rowIn, by simp [same, apart]⟩)
      | _ => trivial

theorem step_named (state : State) (event : Event) (named : Named state.toTables) :
    Named (step state event).toTables := by
  cases event with
  | begin call => exact named
  | act thread =>
      simp only [step]
      cases state.threads[thread]? with
      | none => exact named
      | some phase =>
          simp only
          cases does : next (state.view thread) phase with
          | wait | goto locks phase' => exact named
          | finish write outcome =>
              cases write with
              | none => exact named
              | some write => exact named.commit (commits_fresh does)
  | fail thread =>
      simp only [step]
      split <;> exact named

structure Readable (other profile : Profile) : Prop where
  tenant : ∀ tenantId, other.tenantId = some tenantId → profile.tenantId = some tenantId
  version : other.odooVersion = profile.odooVersion

def Confined (profiles : ProfileRows) (profile : Profile) (names : List String) : Prop :=
  ∀ name ∈ names, ∃ other ∈ profiles.rows, other.name = name ∧ Readable other profile

theorem climb_readable {profiles : ProfileRows} {tables : Tables} (lawful : Lawful tables)
    (same : profiles.rows = tables.profiles.rows) {steps : Nat} {profile above : Profile}
    (listed : profile ∈ profiles.rows) (climbs : climb profiles.parent steps profile = some above) :
    Readable above profile := by
  induction steps generalizing profile with
  | zero =>
      cases climbs
      exact ⟨fun _ known => known, rfl⟩
  | succ steps ih =>
      obtain ⟨next, link, rest⟩ := climb_succ_cases climbs
      obtain ⟨id, isParent, found⟩ := Option.bind_eq_some_iff.mp link
      have nextListed := List.mem_of_find?_eq_some found
      have isId : next.id = id := by simpa using List.find?_some found
      have higher := ih nextListed rest
      have under : profile.parentProfileId = some next.id := by rw [isParent, isId]
      rw [same] at listed nextListed
      exact ⟨fun tenantId known => lawful.visible profile listed next nextListed under tenantId
          (higher.tenant tenantId known),
        higher.version.trans (lawful.version profile listed next nextListed under).symm⟩

theorem names_confined {profiles : ProfileRows} {tables : Tables} (lawful : Lawful tables)
    (same : profiles.rows = tables.profiles.rows) {profile : Profile}
    (listed : profile ∈ profiles.rows) {fuel : Nat} (enough : maxProfileDepth + 2 ≤ fuel) :
    ∃ names, getAncestorProfileNames profiles profile.name fuel = some names ∧
      Confined profiles profile names := by
  obtain ⟨visits, walked⟩ := walk_ends profiles.links profile enough
  have ancestors := ancestors_of_mem listed rfl walked
  refine ⟨_, names_of_mem listed rfl walked, fun name member => ?_⟩
  obtain ⟨steps, atSteps⟩ := List.mem_iff_getElem?.mp member
  have upwards := ancestors.upwards profile listed rfl steps name atSteps
  obtain ⟨above, climbs, named⟩ := Option.map_eq_some_iff.mp upwards
  exact ⟨above, climb_mem listed climbs, named, climb_readable lawful same listed climbs⟩

/-- In every state of a run whose writes meet the condition, the chain that is read for a profile
leads to no private profile of another tenant and to no other version. -/
theorem chains_confined (profiles : Table Profile) (repos : Table Repo)
    (stored : Stored (resting profiles repos).toTables)
    (lawful : Lawful (resting profiles repos).toTables)
    (named : Named (resting profiles repos).toTables) (events : List Event)
    (meets : AllSteps step (fun state event => guarded state event = true)
      (resting profiles repos) events) :
    ∃ rows : ProfileRows, rows.rows = (run step (resting profiles repos) events).profiles.rows ∧
      ∀ profile ∈ rows.rows, ∀ fuel, maxProfileDepth + 2 ≤ fuel → ∃ names,
        getAncestorProfileNames rows profile.name fuel = some names ∧
          Confined rows profile names := by
  have start : Guarded (resting profiles repos) :=
    ⟨consistent_resting stored, fun lock member => (List.not_mem_nil member).elim, lawful,
      fun thread phase at' => by simp [resting] at at'⟩
  have reached := run_preserves_guarded step _ Guarded (fun state event meets inv => inv.step meets)
    events _ meets start
  have distinct := run_preserves step (fun state => Named state.toTables) step_named _ named events
  have keyed := reached.consistent.stored.keyed
  have names : ((run step (resting profiles repos) events).profiles.rows.map Profile.name).Nodup :=
    List.Nodup.map_on (fun row rowIn other otherIn same =>
      keyed.eq_of_id rowIn otherIn (distinct row rowIn other otherIn same)) keyed.nodup.of_map
  exact ⟨⟨_, keyed.nodup, names⟩, rfl, fun profile listed fuel enough =>
    names_confined reached.lawful rfl listed enough⟩

theorem calm_chains_confined :
    ∃ rows : ProfileRows,
      rows.rows = (run step (resting privateProfile privateRepo) calmEvents).profiles.rows ∧
      ∀ profile ∈ rows.rows, ∀ fuel, maxProfileDepth + 2 ≤ fuel → ∃ names,
        getAncestorProfileNames rows profile.name fuel = some names ∧
          Confined rows profile names :=
  chains_confined privateProfile privateRepo private_stored private_lawful
    (by simp [Named, resting, privateProfile]) calmEvents (by decide +kernel)

end OdooSemantic.Registry.ReadScope
