import OdooSemantic.Registry.Commits

/-!
# Visibility, versions and repo tenants

What a transaction checks under its row locks is still true when it writes.  Two writes rest on
more than locks: a parent is set for rows that may not have been there to lock, and
`update_profile` checks the versions around a profile before its only transaction begins.
-/

set_option autoImplicit false

namespace OdooSemantic.Registry

open Lib Lib.Run Lib.RowLocks

def Visible (childTenantId parentTenantId : Option Nat) : Prop :=
  ∀ tenantId, parentTenantId = some tenantId → childTenantId = some tenantId

structure Lawful (tables : Tables) : Prop where
  visible : ∀ child ∈ tables.profiles.rows, ∀ parent ∈ tables.profiles.rows,
    child.parentProfileId = some parent.id → Visible child.tenantId parent.tenantId
  version : ∀ child ∈ tables.profiles.rows, ∀ parent ∈ tables.profiles.rows,
    child.parentProfileId = some parent.id → child.odooVersion = parent.odooVersion
  repoTenant : ∀ repo ∈ tables.repos.rows, ∀ profile ∈ tables.profiles.rows,
    repo.profileId = profile.id → repo.tenantId = profile.tenantId

def Tables.versionOf (tables : Tables) (id : Nat) : Option String :=
  (tables.profile id).map (·.odooVersion)

/-- A parent is set for two rows that are locked, and a version while every profile linked to or
under this one since it was loaded has it. -/
def guarded (state : State) : Event → Bool
  | .act thread =>
      match state.threads[thread]? with
      | some (.setProfileParent profileId (some parentId) (.validated _)) =>
          state.held.contains ⟨thread, profileId, .update⟩ &&
            state.held.contains ⟨thread, parentId, .update⟩
      | some (.updateProfile profileId args (.descendantsAgree current seen)) =>
          (updates args current).version.all fun version =>
            (state.links.drop seen).all fun (child, parent) =>
              state.parentOf child != some parent ||
                ((child != profileId || state.versionOf parent == some version) &&
                  (parent != profileId || state.versionOf child == some version))
      | _ => true
  | _ => true

theorem visible_of_check {childTenantId parentTenantId : Option Nat}
    (passes : checkChildVisibility childTenantId parentTenantId = .ok ()) :
    Visible childTenantId parentTenantId := by
  unfold checkChildVisibility at passes
  split at passes
  · rename_i allowed
    intro tenantId given
    rcases allowed with shared | same
    · rw [shared] at given
      cases given
    · rw [same, given]
  · cases passes

theorem visible_of_resolve {parentTenantId tenantId resolved : Option Nat} {shared : Bool}
    (resolves : resolveNewProfileTenant parentTenantId true tenantId shared = .ok resolved) :
    Visible resolved parentTenantId := by
  cases parentTenantId with
  | none => intro tenant given; cases given
  | some parentTenant =>
      unfold resolveNewProfileTenant at resolves
      cases shared with
      | true => cases tenantId <;> simp [checkChildVisibility, bind, Except.bind] at resolves
      | false =>
          cases tenantId with
          | none =>
              simp [pure, Except.pure] at resolves
              rw [← resolves]
              exact fun tenant given => given
          | some tenant =>
              cases check : checkChildVisibility (some tenant) (some parentTenant) with
              | error error => simp [check, bind, Except.bind] at resolves
              | ok done =>
                  simp [check, bind, Except.bind, pure, Except.pure] at resolves
                  rw [← resolves]
                  exact visible_of_check check

section Lookups
variable {tables : Tables} {write : Write} {row : Profile} {id : Nat}

theorem versionOf_of_mem (keyed : tables.profiles.Keyed (·.id)) (member : row ∈ tables.profiles.rows) :
    tables.versionOf row.id = some row.odooVersion := by
  simp [Tables.versionOf, (profile_eq_some keyed).mpr ⟨member, rfl⟩]

theorem parentOf_of_mem (keyed : tables.profiles.Keyed (·.id)) (member : row ∈ tables.profiles.rows) :
    tables.parentOf row.id = row.parentProfileId := by
  simp [Tables.parentOf, (profile_eq_some keyed).mpr ⟨member, rfl⟩]

theorem versionOf_eq_some (keyed : tables.profiles.Keyed (·.id)) {version : String} :
    tables.versionOf id = some version ↔
      ∃ row ∈ tables.profiles.rows, row.id = id ∧ row.odooVersion = version := by
  unfold Tables.versionOf
  rw [Option.map_eq_some_iff]
  refine exists_congr fun row => ?_
  rw [profile_eq_some keyed, and_assoc]

theorem Lawful.versionOf (lawful : Lawful tables) (stored : Stored tables) {above : Nat}
    (link : tables.parentOf id = some above) : tables.versionOf id = tables.versionOf above := by
  obtain ⟨child, childIn, rfl, linked⟩ := (parentOf_eq_some stored.keyed).mp link
  obtain ⟨parent, parentIn, rfl⟩ := mem_ids.mp (stored.parents child childIn above linked)
  rw [versionOf_of_mem stored.keyed childIn, versionOf_of_mem stored.keyed parentIn,
    lawful.version child childIn parent parentIn linked]

def Write.version (id : Nat) : Write → Option String
  | .setFields profileId updates => if profileId = id then updates.version else none
  | _ => none

theorem versionOf_commit (keyed : tables.profiles.Keyed (·.id)) {version : String}
    (before : tables.versionOf id = some version) :
    (tables.commit write).versionOf id = some ((write.version id).getD version) := by
  obtain ⟨row, member, rfl, rfl⟩ := (versionOf_eq_some keyed).mp before
  refine (versionOf_eq_some (commit_keyed keyed)).mpr ?_
  by_cases hit : write.target = some row.id
  · refine ⟨_, mem_commit_of_target member hit, rewrite_id write row, ?_⟩
    cases write with
    | setFields profileId updates =>
        cases hit
        simp [Write.rewrite, Write.version]
    | _ => rfl
  · refine ⟨row, mem_commit_of_ne member hit, rfl, ?_⟩
    cases write with
    | setFields profileId updates =>
        have other : profileId ≠ row.id := fun same => hit (by rw [same]; rfl)
        simp [Write.version, other]
    | _ => rfl

end Lookups

structure Settled (tables : Tables) (profileId : Nat) (version : String) : Prop where
  above : ∀ parentId, tables.parentOf profileId = some parentId →
    tables.versionOf parentId = some version
  below : ∀ childId, tables.parentOf childId = some profileId →
    tables.versionOf childId = some version

def Write.Allowed (tables : Tables) : Write → Prop
  | .insertProfile args tenantId => ∀ parentId, args.parentId = some parentId →
      ∃ parent ∈ tables.profiles.rows, parent.id = parentId ∧
        args.odooVersion = parent.odooVersion ∧ Visible tenantId parent.tenantId
  | .setParent profileId parentId => ∀ above, parentId = some above →
      ∃ child ∈ tables.profiles.rows, ∃ parent ∈ tables.profiles.rows, child.id = profileId ∧
        parent.id = above ∧ child.odooVersion = parent.odooVersion ∧
          Visible child.tenantId parent.tenantId
  | .setTenant profileId tenantId =>
      (∀ row ∈ tables.profiles.rows, row.id = profileId → ∀ parent ∈ tables.profiles.rows,
        row.parentProfileId = some parent.id → Visible tenantId parent.tenantId) ∧
      ∀ child ∈ tables.profiles.rows, child.parentProfileId = some profileId →
        Visible child.tenantId tenantId
  | .setRepoTenant _ profileId tenantId => ∀ profile ∈ tables.profiles.rows,
      profile.id = profileId → profile.tenantId = tenantId
  | .insertRepo profileId tenantId => ∀ profile ∈ tables.profiles.rows,
      profile.id = profileId → profile.tenantId = tenantId
  | .setFields profileId updates => ∀ version, updates.version = some version →
      Settled tables profileId version

section Laws
variable {tables : Tables}

variable {profileId : Nat} {tenantId : Option Nat}

theorem mem_update {rows : List Profile} {set : Profile → Profile} {row : Profile}
    (member : row ∈ rows.map fun row => if row.id == profileId then set row else row) :
    ∃ old ∈ rows, row = if old.id = profileId then set old else old := by
  obtain ⟨old, oldIn, rfl⟩ := List.mem_map.mp member
  exact ⟨old, oldIn, by simp⟩

theorem Lawful.insertProfile (lawful : Lawful tables) (stored : Stored tables) {args : NewProfile}
    (allowed : (Write.insertProfile args tenantId).Allowed tables) :
    Lawful (tables.commit (.insertProfile args tenantId)) := by
  -- the new profile is under a checked parent and above nobody
  have placed : ∀ child ∈ (tables.commit (.insertProfile args tenantId)).profiles.rows,
      ∀ parent ∈ (tables.commit (.insertProfile args tenantId)).profiles.rows,
      child.parentProfileId = some parent.id → parent ∈ tables.profiles.rows ∧
        (child ∈ tables.profiles.rows ∨
          (child.odooVersion = parent.odooVersion ∧ Visible child.tenantId parent.tenantId)) := by
    intro child childIn parent parentIn linked
    have known : parent.id ∈ tables.ids ∧ (child ∈ tables.profiles.rows ∨
        (child.tenantId = tenantId ∧ child.odooVersion = args.odooVersion ∧
          args.parentId = some parent.id)) := by
      rcases List.mem_append.mp childIn with old | new
      · exact ⟨stored.parents child old parent.id linked, Or.inl old⟩
      · rw [List.mem_singleton.mp new] at linked ⊢
        have under : args.parentId = some parent.id := linked
        obtain ⟨row, rowIn, same, -⟩ := allowed parent.id under
        exact ⟨mem_ids.mpr ⟨row, rowIn, same⟩, Or.inr ⟨rfl, rfl, under⟩⟩
    have parentOld : parent ∈ tables.profiles.rows := by
      rcases List.mem_append.mp parentIn with old | new
      · exact old
      · have fresh : parent.id = tables.profiles.nextId := by rw [List.mem_singleton.mp new]
        rw [fresh] at known
        exact absurd known.1 stored.nextId_new
    refine ⟨parentOld, known.2.imp_right ?_⟩
    rintro ⟨tenant, version, under⟩
    obtain ⟨row, rowIn, same, version', visible⟩ := allowed parent.id under
    rw [stored.keyed.eq_of_id rowIn parentOld same] at version' visible
    exact ⟨version.trans version', tenant ▸ visible⟩
  refine ⟨?_, ?_, ?_⟩
  · intro child childIn parent parentIn linked
    obtain ⟨parentOld, old | ⟨-, visible⟩⟩ := placed child childIn parent parentIn linked
    · exact lawful.visible child old parent parentOld linked
    · exact visible
  · intro child childIn parent parentIn linked
    obtain ⟨parentOld, old | ⟨version, -⟩⟩ := placed child childIn parent parentIn linked
    · exact lawful.version child old parent parentOld linked
    · exact version
  · intro repo repoIn profile profileIn owned
    rcases List.mem_append.mp profileIn with old | new
    · exact lawful.repoTenant repo repoIn profile old owned
    · have fresh : profile.id = tables.profiles.nextId := by rw [List.mem_singleton.mp new]
      have known := stored.repos repo repoIn
      rw [owned, fresh] at known
      exact absurd known stored.nextId_new

theorem Lawful.setParent (lawful : Lawful tables) (stored : Stored tables)
    {parentId : Option Nat} (allowed : (Write.setParent profileId parentId).Allowed tables) :
    Lawful (tables.commit (.setParent profileId parentId)) := by
  have related : ∀ child ∈ (tables.commit (.setParent profileId parentId)).profiles.rows,
      ∀ parent ∈ (tables.commit (.setParent profileId parentId)).profiles.rows,
      child.parentProfileId = some parent.id →
        child.odooVersion = parent.odooVersion ∧ Visible child.tenantId parent.tenantId := by
    intro child childIn parent parentIn linked
    obtain ⟨oldChild, oldChildIn, rfl⟩ := mem_update childIn
    obtain ⟨oldParent, oldParentIn, rfl⟩ := mem_update parentIn
    have same : ∀ row : Profile,
        (if row.id = profileId then { row with parentProfileId := parentId } else row).id = row.id ∧
        (if row.id = profileId then { row with parentProfileId := parentId } else row).odooVersion =
          row.odooVersion ∧
        (if row.id = profileId then { row with parentProfileId := parentId } else row).tenantId =
          row.tenantId := by
      intro row
      split
      · exact ⟨rfl, rfl, rfl⟩
      · exact ⟨rfl, rfl, rfl⟩
    rw [(same oldParent).1] at linked
    rw [(same oldChild).2.1, (same oldChild).2.2, (same oldParent).2.1, (same oldParent).2.2]
    by_cases hit : oldChild.id = profileId
    · rw [if_pos hit] at linked
      obtain ⟨row, rowIn, above, aboveIn, rowId, aboveId, version, visible⟩ :=
        allowed oldParent.id linked
      rw [stored.keyed.eq_of_id rowIn oldChildIn (rowId.trans hit.symm),
        stored.keyed.eq_of_id aboveIn oldParentIn aboveId] at version visible
      exact ⟨version, visible⟩
    · rw [if_neg hit] at linked
      exact ⟨lawful.version oldChild oldChildIn oldParent oldParentIn linked,
        lawful.visible oldChild oldChildIn oldParent oldParentIn linked⟩
  refine ⟨fun child childIn parent parentIn linked => (related child childIn parent parentIn linked).2,
    fun child childIn parent parentIn linked => (related child childIn parent parentIn linked).1, ?_⟩
  intro repo repoIn profile profileIn owned
  obtain ⟨old, oldIn, rfl⟩ := mem_update profileIn
  have same := lawful.repoTenant repo repoIn old oldIn
  split at owned
  · rename_i hit
    rw [if_pos hit]
    exact same owned
  · rename_i miss
    rw [if_neg miss]
    exact same owned

theorem Lawful.setTenant (lawful : Lawful tables)
    (allowed : (Write.setTenant profileId tenantId).Allowed tables) :
    Lawful (tables.commit (.setTenant profileId tenantId)) := by
  have same : ∀ row : Profile,
      (if row.id = profileId then { row with tenantId := tenantId } else row).id = row.id ∧
      (if row.id = profileId then { row with tenantId := tenantId } else row).odooVersion =
        row.odooVersion ∧
      (if row.id = profileId then { row with tenantId := tenantId } else row).parentProfileId =
        row.parentProfileId ∧
      (if row.id = profileId then { row with tenantId := tenantId } else row).tenantId =
        if row.id = profileId then tenantId else row.tenantId := by
    intro row
    split
    · exact ⟨rfl, rfl, rfl, rfl⟩
    · exact ⟨rfl, rfl, rfl, rfl⟩
  obtain ⟨underParent, overChildren⟩ := allowed
  refine ⟨?_, ?_, ?_⟩
  · intro child childIn parent parentIn linked
    obtain ⟨oldChild, oldChildIn, rfl⟩ := mem_update childIn
    obtain ⟨oldParent, oldParentIn, rfl⟩ := mem_update parentIn
    rw [(same oldChild).2.2.1, (same oldParent).1] at linked
    rw [(same oldChild).2.2.2, (same oldParent).2.2.2]
    by_cases isChild : oldChild.id = profileId
    · rw [if_pos isChild]
      by_cases isParent : oldParent.id = profileId
      · rw [if_pos isParent]
        exact fun tenant given => given
      · rw [if_neg isParent]
        exact underParent oldChild oldChildIn isChild oldParent oldParentIn linked
    · rw [if_neg isChild]
      by_cases isParent : oldParent.id = profileId
      · rw [if_pos isParent]
        exact overChildren oldChild oldChildIn (linked.trans (congrArg some isParent))
      · rw [if_neg isParent]
        exact lawful.visible oldChild oldChildIn oldParent oldParentIn linked
  · intro child childIn parent parentIn linked
    obtain ⟨oldChild, oldChildIn, rfl⟩ := mem_update childIn
    obtain ⟨oldParent, oldParentIn, rfl⟩ := mem_update parentIn
    rw [(same oldChild).2.2.1, (same oldParent).1] at linked
    rw [(same oldChild).2.1, (same oldParent).2.1]
    exact lawful.version oldChild oldChildIn oldParent oldParentIn linked
  · intro repo repoIn profile profileIn owned
    obtain ⟨oldRepo, oldRepoIn, rfl⟩ := List.mem_map.mp repoIn
    obtain ⟨old, oldIn, rfl⟩ := mem_update profileIn
    rw [(same old).1] at owned
    rw [(same old).2.2.2]
    by_cases hit : oldRepo.profileId = profileId
    · simp only [hit, beq_self_eq_true, if_true] at owned ⊢
      rw [if_pos owned.symm]
    · simp only [beq_eq_false_iff_ne.mpr hit, Bool.false_eq_true, if_false] at owned ⊢
      rw [if_neg fun isThis => hit (owned.trans isThis)]
      exact lawful.repoTenant oldRepo oldRepoIn old oldIn owned

theorem Lawful.setFields (lawful : Lawful tables) (stored : Stored tables)
    {fields : Fields} (allowed : (Write.setFields profileId fields).Allowed tables) :
    Lawful (tables.commit (.setFields profileId fields)) := by
  have origin : ∀ row ∈ (tables.commit (.setFields profileId fields)).profiles.rows,
      ∃ old ∈ tables.profiles.rows, row.id = old.id ∧ row.parentProfileId = old.parentProfileId ∧
        row.tenantId = old.tenantId ∧
        row.odooVersion = if old.id = profileId then fields.version.getD old.odooVersion
          else old.odooVersion := by
    intro row member
    obtain ⟨old, oldIn, rfl⟩ := mem_update member
    refine ⟨old, oldIn, ?_⟩
    split
    · exact ⟨rfl, rfl, rfl, rfl⟩
    · exact ⟨rfl, rfl, rfl, rfl⟩
  refine ⟨?_, ?_, ?_⟩
  · intro child childIn parent parentIn linked
    obtain ⟨oldChild, oldChildIn, -, parentId, tenant, -⟩ := origin child childIn
    obtain ⟨oldParent, oldParentIn, id, -, tenant', -⟩ := origin parent parentIn
    rw [parentId, id] at linked
    rw [tenant, tenant']
    exact lawful.visible oldChild oldChildIn oldParent oldParentIn linked
  · intro child childIn parent parentIn linked
    obtain ⟨oldChild, oldChildIn, -, parentId, -, version⟩ := origin child childIn
    obtain ⟨oldParent, oldParentIn, id, -, -, version'⟩ := origin parent parentIn
    rw [parentId, id] at linked
    rw [version, version']
    have law := lawful.version oldChild oldChildIn oldParent oldParentIn linked
    have link := (parentOf_of_mem stored.keyed oldChildIn).trans linked
    cases given : fields.version with
    | none => simp only [Option.getD_none, ite_self, law]
    | some new =>
        have settled := allowed new given
        simp only [Option.getD_some]
        by_cases isChild : oldChild.id = profileId
        · by_cases isParent : oldParent.id = profileId
          · rw [if_pos isChild, if_pos isParent]
          · have above := settled.above oldParent.id (isChild ▸ link)
            rw [versionOf_of_mem stored.keyed oldParentIn] at above
            rw [if_pos isChild, if_neg isParent, Option.some.inj above]
        · by_cases isParent : oldParent.id = profileId
          · have below := settled.below oldChild.id (isParent ▸ link)
            rw [versionOf_of_mem stored.keyed oldChildIn] at below
            rw [if_neg isChild, if_pos isParent, Option.some.inj below]
          · rw [if_neg isChild, if_neg isParent, law]
  · intro repo repoIn profile profileIn owned
    obtain ⟨old, oldIn, id, -, tenant, -⟩ := origin profile profileIn
    rw [id] at owned
    rw [tenant]
    exact lawful.repoTenant repo repoIn old oldIn owned

theorem Lawful.setRepoTenant (lawful : Lawful tables) {repoId profileId : Nat}
    (allowed : (Write.setRepoTenant repoId profileId tenantId).Allowed tables) :
    Lawful (tables.commit (.setRepoTenant repoId profileId tenantId)) := by
  refine ⟨lawful.visible, lawful.version, ?_⟩
  intro repo repoIn profile profileIn owned
  obtain ⟨old, oldIn, rfl⟩ := List.mem_map.mp repoIn
  split at owned
  · rename_i hit
    rw [if_pos hit]
    simp only [Bool.and_eq_true, beq_iff_eq] at hit
    exact (allowed profile profileIn (owned.symm.trans hit.2)).symm
  · rename_i miss
    rw [if_neg miss]
    exact lawful.repoTenant old oldIn profile profileIn owned

theorem Lawful.insertRepo (lawful : Lawful tables)
    (allowed : (Write.insertRepo profileId tenantId).Allowed tables) :
    Lawful (tables.commit (.insertRepo profileId tenantId)) := by
  refine ⟨lawful.visible, lawful.version, ?_⟩
  intro repo repoIn profile profileIn owned
  rcases List.mem_append.mp repoIn with old | new
  · exact lawful.repoTenant repo old profile profileIn owned
  · rw [List.mem_singleton.mp new] at owned ⊢
    exact (allowed profile profileIn owned.symm).symm

theorem Lawful.commit (lawful : Lawful tables) (stored : Stored tables) {write : Write}
    (allowed : write.Allowed tables) : Lawful (tables.commit write) := by
  cases write with
  | insertProfile args tenantId => exact lawful.insertProfile stored allowed
  | setParent profileId parentId => exact lawful.setParent stored allowed
  | setTenant profileId tenantId => exact lawful.setTenant allowed
  | setRepoTenant repoId profileId tenantId => exact lawful.setRepoTenant allowed
  | insertRepo profileId tenantId => exact lawful.insertRepo allowed
  | setFields profileId fields => exact lawful.setFields stored allowed

end Laws

/-! ## What a call knows -/

def Holds (held : List Lock) (thread id : Nat) (mode : Mode) : Prop :=
  (⟨thread, id, mode⟩ : Lock) ∈ held

section Known
variable (tables : Tables) (locks : Nat → Mode → Prop)

/-- Both rows are as they were compared, if both were there to lock. -/
def Paired (profileId parentId : Nat) : Prop :=
  locks profileId .update → locks parentId .update →
    ∃ child ∈ tables.profiles.rows, ∃ parent ∈ tables.profiles.rows, child.id = profileId ∧
      parent.id = parentId ∧ child.odooVersion = parent.odooVersion ∧
        Visible child.tenantId parent.tenantId

structure Placed (profileId : Nat) (tenantId : Option Nat) (profile : Profile) : Prop where
  locked : locks profileId .update
  member : profile ∈ tables.profiles.rows
  id : profile.id = profileId
  above : ∀ parentId, profile.parentProfileId = some parentId → locks parentId .share ∧
    ∃ parent ∈ tables.profiles.rows, parent.id = parentId ∧ Visible tenantId parent.tenantId

def Owned (profileId : Nat) (tenantId : Option Nat) : Prop :=
  locks profileId .share ∧
    ∃ profile ∈ tables.profiles.rows, profile.id = profileId ∧ profile.tenantId = tenantId

def ParentAs (seen profileId : Nat) (ok : Nat → Prop) : Prop :=
  ∀ parentId, tables.parentOf profileId = some parentId →
    (profileId, parentId) ∈ tables.links.drop seen ∨ ok parentId

def ChildrenAs (seen profileId : Nat) (version : String) : Prop :=
  ∀ childId, tables.parentOf childId = some profileId →
    (childId, profileId) ∈ tables.links.drop seen ∨ tables.versionOf childId = some version

/-- What the checks of a call have established and its locks keep. -/
def Sound : Phase → Prop
  | .addProfile args (.inserting tenantId) => ∀ parentId, args.parentId = some parentId →
      locks parentId .share ∧ ∃ parent ∈ tables.profiles.rows, parent.id = parentId ∧
        args.odooVersion = parent.odooVersion ∧ Visible tenantId parent.tenantId
  | .validateParent profileId _ (.childRead child) => ∀ row, child = some row →
      locks profileId .update → row ∈ tables.profiles.rows ∧ row.id = profileId
  | .validateParent profileId parentId .compared => Paired tables locks profileId parentId
  | .setProfileParent profileId parentId (.validated _) => ∀ above, parentId = some above →
      Paired tables locks profileId above
  | .setProfileTenant profileId _ _ (.locked profile) =>
      locks profileId .update ∧ profile ∈ tables.profiles.rows ∧ profile.id = profileId
  | .setProfileTenant profileId tenantId _ (.parentChecked profile) =>
      Placed tables locks profileId tenantId profile
  | .setProfileTenant profileId tenantId _ (.childrenChecked profile) =>
      Placed tables locks profileId tenantId profile ∧
        ∀ child ∈ tables.profiles.rows, child.parentProfileId = some profileId →
          locks child.id .share ∧ Visible child.tenantId tenantId
  | .setRepoTenant _ tenantId (.checked profileId) => Owned tables locks profileId tenantId
  | .addRepo profileId _ (.inserting profileTenant) => Owned tables locks profileId profileTenant
  | .updateProfile profileId _ (.loaded current seen) => seen ≤ tables.links.length ∧
      ParentAs tables seen profileId fun parentId => current.parentProfileId = some parentId
  | .updateProfile profileId _ (.unindexed current seen) => seen ≤ tables.links.length ∧
      ParentAs tables seen profileId fun parentId => current.parentProfileId = some parentId
  | .updateProfile profileId args (.parentAgrees current seen) => seen ≤ tables.links.length ∧
      ∀ version, (updates args current).version = some version →
        ParentAs tables seen profileId fun parentId => tables.versionOf parentId = some version
  | .updateProfile profileId args (.descendantsAgree current seen) => seen ≤ tables.links.length ∧
      ∀ version, (updates args current).version = some version →
        (ParentAs tables seen profileId fun parentId => tables.versionOf parentId = some version) ∧
          ChildrenAs tables seen profileId version
  | _ => True

end Known

section Established
variable {view : View} {held : List Lock} {thread : Nat} {phase phase' : Phase}
  {locks : List (Nat × Mode)} {write : Write}

variable {id : Nat} {state : State}

theorem holds_acquire {mode : Mode} (holds : Holds held thread id mode) :
    Holds (acquire held thread locks) thread id mode :=
  mem_acquire.mpr (Or.inr holds)

theorem holds_acquired {mode : Mode} (wanted : (id, mode) ∈ locks) :
    Holds (acquire held thread locks) thread id mode :=
  mem_acquire.mpr (Or.inl ⟨rfl, wanted⟩)

theorem Moves.sound (moves : Moves view phase locks phase') (stored : Stored view.toTables)
    (sound : Sound view.toTables (Holds held thread) phase) :
    Sound view.toTables (Holds (acquire held thread locks) thread) phase' := by
  cases moves with
  | addRoot args tenantId root resolves =>
      intro parentId under
      rw [root] at under
      cases under
  | addChild args tenantId parentId parent under granted found version resolves =>
      intro other under'
      rw [under] at under'
      cases under'
      obtain ⟨member, id⟩ := (profile_eq_some stored.keyed).mp found
      exact ⟨holds_acquired List.mem_cons_self, parent, member, id, version.symm,
        visible_of_resolve resolves⟩
  | noParent profileId =>
      intro above under
      cases under
  | readChild profileId parentId =>
      intro row found _
      exact (profile_eq_some stored.keyed).mp found
  | compare profileId parentId child parent found version visible =>
      intro lowHeld _
      obtain ⟨childIn, childId⟩ := sound child rfl lowHeld
      obtain ⟨parentIn, parentId'⟩ := (profile_eq_some stored.keyed).mp found
      exact ⟨child, childIn, parent, parentIn, childId, parentId', version, visible_of_check visible⟩
  | walk profileId parentId apart =>
      intro above under
      cases under
      exact sound
  | lockProfile profileId tenantId confirmShared profile granted found =>
      exact ⟨holds_acquired List.mem_cons_self, (profile_eq_some stored.keyed).mp found⟩
  | root profileId tenantId confirmShared profile root =>
      obtain ⟨locked, member, id⟩ := sound
      refine ⟨locked, member, id, fun parentId under => ?_⟩
      rw [root] at under
      cases under
  | checkParent profileId tenantId confirmShared profile parentId parent under granted found visible =>
      obtain ⟨locked, member, id⟩ := sound
      refine ⟨holds_acquire locked, member, id, fun other under' => ?_⟩
      rw [under] at under'
      cases under'
      obtain ⟨parentIn, parentId'⟩ := (profile_eq_some stored.keyed).mp found
      exact ⟨holds_acquired List.mem_cons_self, parent, parentIn, parentId', visible_of_check visible⟩
  | checkChildren profileId tenantId confirmShared profile children all granted visible =>
      refine ⟨⟨holds_acquire sound.locked, sound.member, sound.id, fun parentId under => ?_⟩, ?_⟩
      · obtain ⟨locked, parent⟩ := sound.above parentId under
        exact ⟨holds_acquire locked, parent⟩
      · intro child childIn linked
        have listed := (all child).mpr ⟨childIn, linked⟩
        exact ⟨holds_acquired (List.mem_map_of_mem listed), visible_of_check (visible child listed)⟩
  | checkRepo repoId tenantId profileId profile granted found same =>
      obtain ⟨member, id⟩ := (profile_eq_some stored.keyed).mp found
      exact ⟨holds_acquired List.mem_cons_self, profile, member, id, same⟩
  | newRepo profileId tenantId profile granted found =>
      obtain ⟨member, id⟩ := (profile_eq_some stored.keyed).mp found
      exact ⟨holds_acquired List.mem_cons_self, profile, member, id, rfl⟩
  | load profileId args current found =>
      refine ⟨Nat.le_refl _, fun parentId link => Or.inr ?_⟩
      simpa [Tables.parentOf, found] using link
  | unindexed profileId args current seen => exact sound
  | parentAgrees profileId args current seen agrees =>
      obtain ⟨bound, asRead⟩ := sound
      refine ⟨bound, fun version changes parentId link => ?_⟩
      refine (asRead parentId link).imp_right fun under => ?_
      obtain ⟨row, rowIn, -, linked⟩ := (parentOf_eq_some stored.keyed).mp link
      obtain ⟨parent, parentIn, rfl⟩ := mem_ids.mp (stored.parents row rowIn parentId linked)
      rw [versionOf_of_mem stored.keyed parentIn, agrees version changes parent.id under parent
        ((profile_eq_some stored.keyed).mpr ⟨parentIn, rfl⟩)]
  | descendantsAgree profileId args current seen agree =>
      obtain ⟨bound, asRead⟩ := sound
      refine ⟨bound, fun version changes => ⟨asRead version changes, fun childId link => Or.inr ?_⟩⟩
      obtain ⟨child, childIn, rfl, linked⟩ := (parentOf_eq_some stored.keyed).mp link
      rw [versionOf_of_mem stored.keyed childIn]
      have isChild : child.id ∈ view.children profileId :=
        List.mem_map_of_mem (List.mem_filter.mpr ⟨childIn, by simp [linked]⟩)
      have isBelow : child.id ∈ view.below profileId := by
        refine List.mem_filter.mpr ⟨mem_ids.mpr ⟨child, childIn, rfl⟩, ?_⟩
        refine List.any_eq_true.mpr ⟨child.id, ?_, by simpa using isChild⟩
        exact Forest.mem_ancestors_of_climb rfl (Nat.zero_le _)
      have clear := List.find?_eq_none.mp (agree version changes) child childIn
      simp only [isBelow, decide_true, Bool.true_and, bne_iff_ne, ne_eq, not_not] at clear
      rw [clear]
  | _ => trivial

theorem Writes.allowed (writes : Writes (state.view thread) phase write)
    (stored : Stored state.toTables) (at' : state.threads[thread]? = some phase)
    (sound : Sound state.toTables (Holds state.held thread) phase)
    (meets : guarded state (.act thread) = true) : write.Allowed state.toTables := by
  cases writes with
  | insertProfile args tenantId =>
      intro parentId under
      exact (sound parentId under).2
  | setParent profileId parentId seen profile found granted =>
      intro above under
      subst under
      simp only [guarded, at', Bool.and_eq_true, List.contains_iff_mem] at meets
      exact sound above rfl meets.1 meets.2
  | setTenant profileId tenantId confirmShared profile =>
      obtain ⟨placed, children⟩ := sound
      refine ⟨fun row rowIn id parent parentIn linked => ?_, fun child childIn linked =>
        (children child childIn linked).2⟩
      rw [stored.keyed.eq_of_id rowIn placed.member (id.trans placed.id.symm)] at linked
      obtain ⟨-, above, aboveIn, aboveId, visible⟩ := placed.above parent.id linked
      rw [stored.keyed.eq_of_id aboveIn parentIn aboveId] at visible
      exact visible
  | setRepoTenant repoId tenantId profileId | insertRepo profileId tenantId profileTenant =>
      intro profile profileIn id
      obtain ⟨-, known, knownIn, knownId, same⟩ := sound
      rw [stored.keyed.eq_of_id profileIn knownIn (id.trans knownId.symm)]
      exact same
  | setFields profileId args current seen granted =>
      intro version changes
      obtain ⟨-, known⟩ := sound
      obtain ⟨parentAs, childrenAs⟩ := known version changes
      simp only [guarded, at', changes, Option.all_some, List.all_eq_true] at meets
      refine ⟨fun parentId link => ?_, fun childId link => ?_⟩
      · rcases parentAs parentId link with recent | agrees
        · have clear := meets (profileId, parentId) recent
          simp [link] at clear
          exact clear.1
        · exact agrees
      · rcases childrenAs childId link with recent | agrees
        · have clear := meets (childId, profileId) recent
          simp [link] at clear
          exact clear.2
        · exact agrees

theorem Writes.free (writes : Writes (state.view thread) phase write)
    (compatible : Compatible state.held)
    (sound : Sound state.toTables (Holds state.held thread) phase)
    (hit : write.target = some id) : Free state.held thread id := by
  cases writes with
  | setParent profileId parentId seen profile found granted
  | setFields profileId args current seen granted =>
      cases hit
      exact free_of_grantable granted
  | setTenant profileId tenantId confirmShared profile =>
      cases hit
      exact compatible.free sound.1.locked
  | insertProfile args tenantId | setRepoTenant repoId tenantId profileId
  | insertRepo profileId tenantId profileTenant => cases hit

theorem Writes.steady (writes : Writes (state.view thread) phase write)
    (compatible : Compatible state.held) (at' : state.threads[thread]? = some phase)
    (sound : Sound state.toTables (Holds state.held thread) phase)
    (meets : guarded state (.act thread) = true) {nextId child above : Nat}
    (made : write.link nextId = some (child, above)) : Steady state.held thread above := by
  cases writes with
  | insertProfile args tenantId =>
      obtain ⟨parentId, under, same⟩ := Option.map_eq_some_iff.mp made
      cases same
      exact compatible.steady (sound above under).1
  | setParent profileId parentId seen profile found granted =>
      obtain ⟨parentId, rfl, same⟩ := Option.map_eq_some_iff.mp made
      cases same
      simp only [guarded, at', Bool.and_eq_true, List.contains_iff_mem] at meets
      exact compatible.steady meets.2
  | setTenant profileId tenantId confirmShared profile
  | setFields profileId args current seen granted | setRepoTenant repoId tenantId profileId
  | insertRepo profileId tenantId profileTenant => cases made

end Established

section Frame
variable {tables : Tables} {locks : Nat → Mode → Prop} {write : Write} {profileId seen : Nat}

structure Spares (tables : Tables) (locks : Nat → Mode → Prop) (write : Write) : Prop where
  rows : ∀ id mode, locks id mode → write.target ≠ some id
  parents : ∀ child above, write.link tables.profiles.nextId = some (child, above) →
    ¬ locks above .update

theorem Spares.kept (spares : Spares tables locks write) {row : Profile} {mode : Mode}
    (holds : locks row.id mode) (member : row ∈ tables.profiles.rows) :
    row ∈ (tables.commit write).profiles.rows :=
  mem_commit_of_ne member (spares.rows row.id mode holds)

theorem Paired.commit (spares : Spares tables locks write) {parentId : Nat}
    (paired : Paired tables locks profileId parentId) :
    Paired (tables.commit write) locks profileId parentId := by
  intro lowHeld highHeld
  obtain ⟨child, childIn, parent, parentIn, rfl, rfl, same⟩ := paired lowHeld highHeld
  exact ⟨child, spares.kept lowHeld childIn, parent, spares.kept highHeld parentIn, rfl, rfl, same⟩

theorem Placed.commit (spares : Spares tables locks write) {tenantId : Option Nat}
    {profile : Profile} (placed : Placed tables locks profileId tenantId profile) :
    Placed (tables.commit write) locks profileId tenantId profile := by
  obtain ⟨locked, member, rfl, above⟩ := placed
  refine ⟨locked, spares.kept locked member, rfl, fun parentId under => ?_⟩
  obtain ⟨held, parent, parentIn, rfl, visible⟩ := above parentId under
  exact ⟨held, parent, spares.kept held parentIn, rfl, visible⟩

theorem Owned.commit (spares : Spares tables locks write) {tenantId : Option Nat}
    (owned : Owned tables locks profileId tenantId) :
    Owned (tables.commit write) locks profileId tenantId := by
  obtain ⟨locked, profile, member, rfl, same⟩ := owned
  exact ⟨locked, profile, spares.kept locked member, rfl, same⟩

theorem mem_children_commit (keyed : tables.profiles.Keyed (·.id)) (spares : Spares tables locks write)
    (locked : locks profileId .update)
    (children : ∀ child ∈ tables.profiles.rows, child.parentProfileId = some profileId →
      locks child.id .share) {row : Profile} (member : row ∈ (tables.commit write).profiles.rows)
    (linked : row.parentProfileId = some profileId) : row ∈ tables.profiles.rows := by
  have link := (parentOf_of_mem (commit_keyed keyed) member).trans linked
  rcases parentOf_commit keyed link with made | before
  · exact absurd locked (spares.parents row.id profileId made)
  · obtain ⟨old, oldIn, same, under⟩ := (parentOf_eq_some keyed).mp before
    have kept := spares.kept (children old oldIn under) oldIn
    rw [(commit_keyed keyed).eq_of_id member kept same.symm]
    exact oldIn

theorem ParentAs.commit (keyed : tables.profiles.Keyed (·.id)) (bound : seen ≤ tables.links.length)
    {ok ok' : Nat → Prop} (parentAs : ParentAs tables seen profileId ok)
    (weaker : ∀ parentId, tables.parentOf profileId = some parentId → ok parentId → ok' parentId) :
    ParentAs (tables.commit write) seen profileId ok' := by
  intro parentId link
  rw [commit_links, List.drop_append_of_le_length bound, List.mem_append]
  rcases parentOf_commit keyed link with made | before
  · exact Or.inl (Or.inr (by simp [made]))
  · exact (parentAs parentId before).imp Or.inl (weaker parentId before)

variable {version : String}

theorem version_commit (stored : Stored tables) (allowed : write.Allowed tables) {id : Nat}
    (before : tables.versionOf id = some version)
    (beside : ∃ other, (tables.parentOf other = some id ∨ tables.parentOf id = some other) ∧
      tables.versionOf other = some version) :
    (tables.commit write).versionOf id = some version := by
  rw [versionOf_commit stored.keyed before]
  cases write with
  | setFields target fields =>
      simp only [Write.version]
      split
      · rename_i hit
        subst hit
        cases given : fields.version with
        | none => rfl
        | some new =>
            have settled := allowed new given
            obtain ⟨other, below | above, same⟩ := beside
            · rw [settled.below other below] at same
              exact same
            · rw [settled.above other above] at same
              exact same
      · rfl
  | insertProfile args tenantId | setParent profileId parentId
  | setTenant profileId tenantId | setRepoTenant repoId profileId tenantId
  | insertRepo profileId tenantId => rfl

theorem ParentAs.commit_version (stored : Stored tables) (lawful : Lawful tables)
    (allowed : write.Allowed tables) (bound : seen ≤ tables.links.length)
    (parentAs : ParentAs tables seen profileId fun parentId =>
      tables.versionOf parentId = some version) :
    ParentAs (tables.commit write) seen profileId fun parentId =>
      (tables.commit write).versionOf parentId = some version := by
  refine ParentAs.commit stored.keyed bound parentAs fun parentId link agrees => ?_
  refine version_commit stored allowed agrees ⟨profileId, Or.inl link, ?_⟩
  rw [lawful.versionOf stored link]
  exact agrees

theorem ChildrenAs.commit (stored : Stored tables) (lawful : Lawful tables)
    (allowed : write.Allowed tables) (bound : seen ≤ tables.links.length)
    (childrenAs : ChildrenAs tables seen profileId version) :
    ChildrenAs (tables.commit write) seen profileId version := by
  intro childId link
  rw [commit_links, List.drop_append_of_le_length bound, List.mem_append]
  rcases parentOf_commit stored.keyed link with made | before
  · exact Or.inl (Or.inr (by simp [made]))
  · refine (childrenAs childId before).imp Or.inl fun agrees => ?_
    refine version_commit stored allowed agrees ⟨profileId, Or.inr before, ?_⟩
    rw [← lawful.versionOf stored before]
    exact agrees

theorem Sound.commit (stored : Stored tables) (lawful : Lawful tables)
    (allowed : write.Allowed tables) (spares : Spares tables locks write) {phase : Phase}
    (sound : Sound tables locks phase) : Sound (tables.commit write) locks phase := by
  have grown : ∀ {seen : Nat}, seen ≤ tables.links.length →
      seen ≤ (tables.commit write).links.length := by
    intro seen bound
    rw [commit_links, List.length_append]
    omega
  unfold Sound at sound ⊢
  split
  · intro parentId under
    obtain ⟨held, parent, parentIn, rfl, facts⟩ := sound parentId under
    exact ⟨held, parent, spares.kept held parentIn, rfl, facts⟩
  · intro row isRow held
    obtain ⟨member, rfl⟩ := sound row isRow held
    exact ⟨spares.kept held member, rfl⟩
  · exact Paired.commit spares sound
  · exact fun above under => Paired.commit spares (sound above under)
  · obtain ⟨locked, member, rfl⟩ := sound
    exact ⟨locked, spares.kept locked member, rfl⟩
  · exact Placed.commit spares sound
  · obtain ⟨placed, children⟩ := sound
    refine ⟨placed.commit spares, fun child childIn linked => ?_⟩
    have old := mem_children_commit stored.keyed spares placed.locked
      (fun child childIn linked => (children child childIn linked).1) childIn linked
    exact children child old linked
  · exact Owned.commit spares sound
  · exact Owned.commit spares sound
  · exact ⟨grown sound.1, ParentAs.commit stored.keyed sound.1 sound.2 fun _ _ under => under⟩
  · exact ⟨grown sound.1, ParentAs.commit stored.keyed sound.1 sound.2 fun _ _ under => under⟩
  · exact ⟨grown sound.1, fun version changes =>
      ParentAs.commit_version stored lawful allowed sound.1 (sound.2 version changes)⟩
  · exact ⟨grown sound.1, fun version changes =>
      ⟨ParentAs.commit_version stored lawful allowed sound.1 (sound.2 version changes).1,
        ChildrenAs.commit stored lawful allowed sound.1 (sound.2 version changes).2⟩⟩
  · trivial

end Frame

structure Guarded (state : State) : Prop where
  consistent : Consistent state
  compatible : Compatible state.held
  lawful : Lawful state.toTables
  sound : ∀ (thread : Nat) (phase : Phase), state.threads[thread]? = some phase →
    Sound state.toTables (Holds state.held thread) phase

section Steps
variable {state : State} {held held' : List Lock} {thread : Nat}

/-- Only the locks of the acting transaction change. -/
theorem holds_other_acquire {other id : Nat} {mode : Mode} {locks : List (Nat × Mode)}
    (apart : other ≠ thread) :
    Holds (acquire held thread locks) other id mode ↔ Holds held other id mode := by
  unfold Holds
  rw [mem_acquire]
  exact or_iff_right fun mine => apart mine.1

theorem holds_other_release {other id : Nat} {mode : Mode} (apart : other ≠ thread) :
    Holds (release held thread) other id mode ↔ Holds held other id mode := by
  unfold Holds
  rw [mem_release]
  exact and_iff_left apart

theorem Sound.same_locks {tables : Tables} {locks locks' : Nat → Mode → Prop} {phase : Phase}
    (same : ∀ id mode, locks' id mode ↔ locks id mode) (sound : Sound tables locks phase) :
    Sound tables locks' phase := by
  have equal : locks' = locks := funext fun id => funext fun mode => propext (same id mode)
  rw [equal]
  exact sound

theorem Guarded.step (inv : Guarded state) {event : Event} (meets : guarded state event = true) :
    Guarded (Registry.step state event) := by
  have consistent := inv.consistent.step event
  have change := step_cases state event
  generalize Registry.step state event = reached at consistent change
  cases change with
  | same => exact inv
  | begun call begins =>
      refine ⟨consistent, inv.compatible, inv.lawful, fun other phase' other' => ?_⟩
      rcases snoc_cases other' with rfl | old
      · cases call <;> trivial
      · exact inv.sound other phase' old
  | moved thread phase next locks acts at' moves =>
      refine ⟨consistent, inv.compatible.acquire moves.granted, inv.lawful,
        fun other phase' other' => ?_⟩
      rcases set_cases other' with ⟨rfl, rfl⟩ | ⟨apart, old⟩
      · exact moves.sound inv.consistent.stored (inv.sound other phase at')
      · exact (inv.sound other phase' old).same_locks fun id mode => holds_other_acquire apart
  | committed thread phase write outcome acts at' writes =>
      rw [acts] at meets
      have sound := inv.sound thread phase at'
      have allowed := writes.allowed inv.consistent.stored at' sound meets
      refine ⟨consistent, inv.compatible.release thread,
        inv.lawful.commit inv.consistent.stored allowed, fun other phase' other' => ?_⟩
      rcases set_cases other' with ⟨-, rfl⟩ | ⟨apart, old⟩
      · trivial
      · have spares : Spares state.toTables (Holds state.held other) write := by
          refine ⟨fun id mode holds hit => ?_, fun child above made holds => ?_⟩
          · exact writes.free inv.compatible sound hit _ holds apart rfl
          · have share := writes.steady inv.compatible at' sound meets made _ holds apart rfl
            cases share
        have kept := (inv.sound other phase' old).commit inv.consistent.stored inv.lawful allowed spares
        exact kept.same_locks fun id mode => holds_other_release apart
  | ended thread outcome =>
      refine ⟨consistent, inv.compatible.release thread, inv.lawful, fun other phase' other' => ?_⟩
      rcases set_cases other' with ⟨-, rfl⟩ | ⟨apart, old⟩
      · trivial
      · exact (inv.sound other phase' old).same_locks fun id mode => holds_other_release apart

end Steps

/-- In every run whose writes meet the condition the registry stays lawful. -/
theorem stays_lawful (profiles : Table Profile) (repos : Table Repo)
    (stored : Stored (resting profiles repos).toTables)
    (lawful : Lawful (resting profiles repos).toTables) (events : List Event)
    (meets : AllSteps step (fun state event => guarded state event = true)
      (resting profiles repos) events) :
    Lawful (run step (resting profiles repos) events).toTables := by
  have start : Guarded (resting profiles repos) :=
    ⟨consistent_resting stored, fun lock member => (List.not_mem_nil member).elim, lawful,
      fun thread phase at' => by simp [resting] at at'⟩
  exact (run_preserves_guarded step _ Guarded (fun state event meets inv => inv.step meets) events _
    meets start).lawful

def privateProfile : Table Profile :=
  ⟨[{ id := 1, name := "viindoo_internal_17", odooVersion := "17.0", description := none
      parentProfileId := none, tenantId := some 7 }], 2⟩

def privateRepo : Table Repo :=
  ⟨[{ id := 1, profileId := 1, headSha := none, tenantId := some 7 }], 2⟩

theorem private_stored : Stored (resting privateProfile privateRepo).toTables := by
  refine ⟨⟨by decide, by decide⟩, fun row member parentId linked => ?_, by decide⟩
  rw [List.mem_singleton.mp member] at linked
  cases linked

theorem private_lawful : Lawful (resting privateProfile privateRepo).toTables := by
  refine ⟨fun child childIn parent _ linked => ?_, fun child childIn parent _ linked => ?_,
    fun repo repoIn profile profileIn _ => ?_⟩
  · rw [List.mem_singleton.mp childIn] at linked
    cases linked
  · rw [List.mem_singleton.mp childIn] at linked
    cases linked
  · rw [List.mem_singleton.mp repoIn, List.mem_singleton.mp profileIn]

/-- A child is added, the version of its parent is asked to change, a second child is moved under
it and a repo is added to that one. -/
def calmEvents : List Event :=
  [.begin (.addProfile ⟨"acme_17", "17.0", "", some 1, none, false⟩),
    .begin (.addProfile ⟨"beta_17", "17.0", "", none, some 7, false⟩),
    .begin (.updateProfile 1 ⟨none, some "18.0", none⟩),
    .act 0, .act 0, .act 1, .act 1, .act 2, .act 2, .act 2, .act 2,
    .begin (.setProfileParent 3 (some 1)), .begin (.addRepo 3 none),
    .act 3, .act 3, .act 3, .act 3, .act 3, .act 3, .act 4, .act 4]

theorem calm_run_lawful : Lawful (run step (resting privateProfile privateRepo) calmEvents).toTables ∧
    (run step (resting privateProfile privateRepo) calmEvents).links = [(2, 1), (3, 1)] :=
  ⟨stays_lawful privateProfile privateRepo private_stored private_lawful calmEvents
    (by decide +kernel), by decide +kernel⟩

def lateVersionEvents : List Event :=
  [.begin (.updateProfile 1 ⟨none, some "18.0", none⟩),
    .begin (.addProfile ⟨"acme_17", "17.0", "", some 1, none, false⟩),
    .act 0, .act 0, .act 0, .act 0, .act 1, .act 1, .act 0]

/-- 2 is put under 1 by a call that began before 2 was there to lock. -/
def unlockedChildEvents : List Event :=
  [.begin (.setProfileParent 2 (some 1)),
    .begin (.addProfile ⟨"acme_17", "17.0", "", none, some 7, false⟩),
    .begin (.setProfileTenant 2 none true),
    .act 0, .act 1, .act 1, .act 0, .act 0, .act 0, .act 0, .act 2, .act 2, .act 2, .act 2, .act 0]

theorem races_break_registry : Stored (resting privateProfile privateRepo).toTables ∧
    Lawful (resting privateProfile privateRepo).toTables ∧
    ¬ Lawful (run step (resting privateProfile privateRepo) lateVersionEvents).toTables ∧
    ¬ Lawful (run step (resting privateProfile privateRepo) unlockedChildEvents).toTables := by
  refine ⟨private_stored, private_lawful, fun lawful => ?_, fun lawful => ?_⟩
  · have broken : ¬ ∀ child ∈
        (run step (resting privateProfile privateRepo) lateVersionEvents).profiles.rows,
        ∀ parent ∈ (run step (resting privateProfile privateRepo) lateVersionEvents).profiles.rows,
          child.parentProfileId = some parent.id → child.odooVersion = parent.odooVersion := by
      decide +kernel
    exact broken lawful.version
  · have broken : ¬ ∀ child ∈
        (run step (resting privateProfile privateRepo) unlockedChildEvents).profiles.rows,
        ∀ parent ∈ (run step (resting privateProfile privateRepo) unlockedChildEvents).profiles.rows,
          child.parentProfileId = some parent.id → parent.tenantId = some 7 →
            child.tenantId = some 7 := by
      decide +kernel
    refine broken fun child childIn parent parentIn linked => ?_
    exact lawful.visible child childIn parent parentIn linked 7

end OdooSemantic.Registry
