import OdooSemantic.Registry.Profiles

/-!
# What a commit and a step do

A commit rewrites one profile or inserts one, and only `set_profile_parent` and `add_profile`
give a profile another parent.  A step begins a call, moves one on, or ends one.
-/

set_option autoImplicit false

namespace OdooSemantic.Registry

open Lib Lib.RowLocks

/-- The primary key of `profiles` and the foreign keys to it. -/
structure Stored (tables : Tables) : Prop where
  keyed : tables.profiles.Keyed (·.id)
  parents : ∀ row ∈ tables.profiles.rows, ∀ parentId, row.parentProfileId = some parentId →
    parentId ∈ tables.ids
  repos : ∀ repo ∈ tables.repos.rows, repo.profileId ∈ tables.ids

def Write.Refers (tables : Tables) : Write → Prop
  | .insertProfile args _ => ∀ parentId, args.parentId = some parentId → parentId ∈ tables.ids
  | .setParent _ parentId => ∀ above, parentId = some above → above ∈ tables.ids
  | .insertRepo profileId _ => profileId ∈ tables.ids
  | _ => True

def Write.target : Write → Option Nat
  | .setParent profileId _ => some profileId
  | .setTenant profileId _ => some profileId
  | .setFields profileId _ => some profileId
  | _ => none

def Write.rewrite : Write → Profile → Profile
  | .setParent _ parentId, row => { row with parentProfileId := parentId }
  | .setTenant _ tenantId, row => { row with tenantId }
  | .setFields _ updates, row =>
      { row with
        name := updates.name.getD row.name
        odooVersion := updates.version.getD row.odooVersion
        description := updates.description.or row.description }
  | _, row => row

def Write.inserted (nextId : Nat) : Write → List Profile
  | .insertProfile args tenantId =>
      [{ id := nextId, name := args.name, odooVersion := args.odooVersion
         description := some args.description, parentProfileId := args.parentId, tenantId }]
  | _ => []

def Write.link (nextId : Nat) : Write → Option (Nat × Nat)
  | .insertProfile args _ => args.parentId.map fun parentId => (nextId, parentId)
  | .setParent profileId parentId => parentId.map fun parentId => (profileId, parentId)
  | _ => none

section Commit
variable {tables : Tables} {write : Write} {row : Profile} {id above : Nat}

theorem rewrite_id (write : Write) (row : Profile) : (write.rewrite row).id = row.id := by
  cases write <;> rfl

theorem commit_rows (tables : Tables) (write : Write) : (tables.commit write).profiles.rows =
    (tables.profiles.rows.map fun row =>
      if write.target = some row.id then write.rewrite row else row) ++
      write.inserted tables.profiles.nextId := by
  have update : ∀ (id : Nat) (set : Profile → Profile),
      (tables.profiles.rows.map fun row => if row.id == id then set row else row) =
        tables.profiles.rows.map fun row => if some id = some row.id then set row else row := by
    intro id set
    refine List.map_congr_left fun row _ => ?_
    by_cases same : row.id = id
    · simp [same]
    · simp [same, Ne.symm same]
  cases write with
  | insertProfile args tenantId | setRepoTenant repoId profileId tenantId
  | insertRepo profileId tenantId => simp [Tables.commit, Write.target, Write.inserted]
  | setParent profileId parentId | setTenant profileId tenantId | setFields profileId updates =>
      simpa [Tables.commit, Table.updateWhere, Write.target, Write.inserted, Write.rewrite] using
        update profileId _

theorem commit_links (tables : Tables) (write : Write) : (tables.commit write).links =
    tables.links ++ (write.link tables.profiles.nextId).toList := by
  cases write with
  | insertProfile args tenantId | setParent profileId parentId => rfl
  | setTenant profileId tenantId | setRepoTenant repoId profileId tenantId
  | insertRepo profileId tenantId | setFields profileId updates => exact (List.append_nil _).symm

theorem commit_nextId (tables : Tables) (write : Write) : (tables.commit write).profiles.nextId =
    tables.profiles.nextId + (write.inserted tables.profiles.nextId).length := by
  cases write <;> rfl

theorem mem_commit (member : row ∈ (tables.commit write).profiles.rows) :
    (row ∈ tables.profiles.rows ∧ write.target ≠ some row.id) ∨
      (∃ old ∈ tables.profiles.rows, write.target = some old.id ∧ row = write.rewrite old) ∨
        row ∈ write.inserted tables.profiles.nextId := by
  rw [commit_rows] at member
  rcases List.mem_append.mp member with kept | inserted
  · obtain ⟨old, oldIn, rfl⟩ := List.mem_map.mp kept
    by_cases hit : write.target = some old.id
    · rw [if_pos hit]
      exact Or.inr (Or.inl ⟨old, oldIn, hit, rfl⟩)
    · rw [if_neg hit]
      exact Or.inl ⟨oldIn, hit⟩
  · exact Or.inr (Or.inr inserted)

theorem mem_commit_of_ne (member : row ∈ tables.profiles.rows)
    (spared : write.target ≠ some row.id) : row ∈ (tables.commit write).profiles.rows := by
  rw [commit_rows]
  refine List.mem_append_left _ (List.mem_map.mpr ⟨row, member, ?_⟩)
  rw [if_neg spared]

theorem mem_commit_of_target (member : row ∈ tables.profiles.rows)
    (hit : write.target = some row.id) :
    write.rewrite row ∈ (tables.commit write).profiles.rows := by
  rw [commit_rows]
  refine List.mem_append_left _ (List.mem_map.mpr ⟨row, member, ?_⟩)
  rw [if_pos hit]

theorem inserted_id (member : row ∈ write.inserted tables.profiles.nextId) :
    row.id = tables.profiles.nextId := by
  cases write with
  | insertProfile args tenantId => rw [List.mem_singleton.mp member]
  | _ => cases member

theorem mem_ids : id ∈ tables.ids ↔ ∃ row ∈ tables.profiles.rows, row.id = id := List.mem_map

theorem ids_commit (known : id ∈ tables.ids) : id ∈ (tables.commit write).ids := by
  obtain ⟨row, member, rfl⟩ := mem_ids.mp known
  by_cases hit : write.target = some row.id
  · exact mem_ids.mpr ⟨_, mem_commit_of_target member hit, rewrite_id write row⟩
  · exact mem_ids.mpr ⟨row, mem_commit_of_ne member hit, rfl⟩

theorem Stored.nextId_new (stored : Stored tables) : tables.profiles.nextId ∉ tables.ids := by
  intro known
  obtain ⟨row, member, same⟩ := mem_ids.mp known
  have below := stored.keyed.bounded row member
  omega

theorem commit_keyed (keyed : tables.profiles.Keyed (·.id)) :
    (tables.commit write).profiles.Keyed (·.id) := by
  have ids : (tables.commit write).profiles.rows.map (·.id) =
      tables.profiles.rows.map (·.id) ++ (write.inserted tables.profiles.nextId).map (·.id) := by
    rw [commit_rows, List.map_append, List.map_map]
    refine congrArg (· ++ _) (List.map_congr_left fun row _ => ?_)
    simp only [Function.comp_apply]
    split
    · exact rewrite_id write row
    · rfl
  refine ⟨?_, ?_⟩
  · rw [ids, List.nodup_append]
    refine ⟨keyed.nodup, ?_, ?_⟩
    · cases write with
      | insertProfile args tenantId => exact List.nodup_singleton _
      | _ => exact List.nodup_nil
    · intro old oldIn new newIn same
      obtain ⟨row, member, rfl⟩ := List.mem_map.mp oldIn
      obtain ⟨row', member', rfl⟩ := List.mem_map.mp newIn
      have below := keyed.bounded row member
      rw [inserted_id member'] at same
      omega
  · intro row member
    rw [commit_nextId]
    rcases mem_commit member with ⟨old, -⟩ | ⟨old, oldIn, -, rfl⟩ | new
    · have below := keyed.bounded row old
      omega
    · have below := keyed.bounded old oldIn
      rw [rewrite_id]
      omega
    · have count := List.length_pos_of_mem new
      rw [inserted_id new]
      omega

theorem rewrite_parent (write : Write) (row : Profile) : (write.rewrite row).parentProfileId =
    match write with
    | .setParent _ parentId => parentId
    | _ => row.parentProfileId := by
  cases write <;> rfl

theorem repos_commit {repo : Repo} (member : repo ∈ (tables.commit write).repos.rows) :
    (∃ old ∈ tables.repos.rows, repo.profileId = old.profileId) ∨
      ∃ tenantId, write = .insertRepo repo.profileId tenantId := by
  cases write with
  | insertProfile args tenantId | setParent profileId parentId | setFields profileId updates => exact Or.inl ⟨repo, member, rfl⟩
  | setTenant profileId tenantId | setRepoTenant repoId profileId tenantId =>
      obtain ⟨old, oldIn, rfl⟩ := List.mem_map.mp member
      refine Or.inl ⟨old, oldIn, ?_⟩
      split <;> rfl
  | insertRepo profileId tenantId =>
      rcases List.mem_append.mp member with old | new
      · exact Or.inl ⟨repo, old, rfl⟩
      · rw [List.mem_singleton.mp new]
        exact Or.inr ⟨tenantId, rfl⟩

theorem Stored.commit (stored : Stored tables) (refers : write.Refers tables) :
    Stored (tables.commit write) := by
  refine ⟨commit_keyed stored.keyed, ?_, ?_⟩
  · intro row member parentId linked
    refine ids_commit ?_
    rcases mem_commit member with ⟨old, -⟩ | ⟨old, oldIn, -, rfl⟩ | new
    · exact stored.parents row old parentId linked
    · rw [rewrite_parent] at linked
      cases write with
      | setParent profileId above => exact refers parentId linked
      | _ => exact stored.parents old oldIn parentId linked
    · cases write with
      | insertProfile args tenantId =>
          rw [List.mem_singleton.mp new] at linked
          exact refers parentId linked
      | _ => cases new
  · intro repo member
    refine ids_commit ?_
    rcases repos_commit member with ⟨old, oldIn, same⟩ | ⟨tenantId, rfl⟩
    · rw [same]
      exact stored.repos old oldIn
    · exact refers

theorem profile_eq_some (keyed : tables.profiles.Keyed (·.id)) :
    tables.profile id = some row ↔ row ∈ tables.profiles.rows ∧ row.id = id := by
  refine ⟨fun found => ⟨List.mem_of_find?_eq_some found, by simpa using List.find?_some found⟩, ?_⟩
  rintro ⟨member, rfl⟩
  cases found : tables.profile row.id with
  | none => simpa using List.find?_eq_none.mp found row member
  | some other =>
      have same : other.id = row.id := by simpa using List.find?_some found
      rw [keyed.eq_of_id (List.mem_of_find?_eq_some found) member same]

theorem parentOf_eq_some (keyed : tables.profiles.Keyed (·.id)) : tables.parentOf id = some above ↔
    ∃ row ∈ tables.profiles.rows, row.id = id ∧ row.parentProfileId = some above := by
  unfold Tables.parentOf
  rw [Option.bind_eq_some_iff]
  refine exists_congr fun row => ?_
  rw [profile_eq_some keyed, and_assoc]

theorem parentOf_commit (keyed : tables.profiles.Keyed (·.id))
    (link : (tables.commit write).parentOf id = some above) :
    write.link tables.profiles.nextId = some (id, above) ∨ tables.parentOf id = some above := by
  obtain ⟨row, member, rfl, linked⟩ := (parentOf_eq_some (commit_keyed keyed)).mp link
  rcases mem_commit member with ⟨old, -⟩ | ⟨old, oldIn, hit, rfl⟩ | new
  · exact Or.inr ((parentOf_eq_some keyed).mpr ⟨row, old, rfl, linked⟩)
  · rw [rewrite_parent] at linked
    rw [rewrite_id]
    cases write with
    | setParent profileId parentId =>
        cases hit
        have given : parentId = some above := linked
        exact Or.inl (by simp [Write.link, given])
    | _ => exact Or.inr ((parentOf_eq_some keyed).mpr ⟨old, oldIn, rfl, linked⟩)
  · cases write with
    | insertProfile args tenantId =>
        rw [List.mem_singleton.mp new] at linked ⊢
        have given : args.parentId = some above := linked
        exact Or.inl (by simp [Write.link, given])
    | _ => cases new

end Commit

/-- The statements after which a call goes on. -/
inductive Moves (view : View) : Phase → List (Nat × Mode) → Phase → Prop where
  | addRoot (args : NewProfile) (tenantId : Option Nat) (root : args.parentId = none)
      (resolves : resolveNewProfileTenant none false args.tenantId args.shared = .ok tenantId) :
      Moves view (.addProfile args .begun) [] (.addProfile args (.inserting tenantId))
  | addChild (args : NewProfile) (tenantId : Option Nat) (parentId : Nat) (parent : Profile)
      (under : args.parentId = some parentId) (granted : view.mayLock parentId .share = true)
      (found : view.profile parentId = some parent)
      (version : parent.odooVersion = args.odooVersion)
      (resolves : resolveNewProfileTenant parent.tenantId true args.tenantId args.shared =
        .ok tenantId) :
      Moves view (.addProfile args .begun) [(parentId, .share)]
        (.addProfile args (.inserting tenantId))
  | lockPair (profileId : Nat) (parentId : Option Nat) (rows : List Nat)
      (granted : ∀ id ∈ rows, view.mayLock id .update = true) :
      Moves view (.setProfileParent profileId parentId .begun) (rows.map fun id => (id, .update))
        (.setProfileParent profileId parentId .locked)
  | noParent (profileId : Nat) :
      Moves view (.setProfileParent profileId none .locked) []
        (.setProfileParent profileId none (.validated view.links.length))
  | validate (profileId parentId : Nat) (apart : parentId ≠ profileId) :
      Moves view (.setProfileParent profileId (some parentId) .locked) []
        (.validateParent profileId parentId .begun)
  | readChild (profileId parentId : Nat) :
      Moves view (.validateParent profileId parentId .begun) []
        (.validateParent profileId parentId (.childRead (view.profile profileId)))
  | compare (profileId parentId : Nat) (child parent : Profile)
      (found : view.profile parentId = some parent)
      (version : child.odooVersion = parent.odooVersion)
      (visible : checkChildVisibility child.tenantId parent.tenantId = .ok ()) :
      Moves view (.validateParent profileId parentId (.childRead (some child))) []
        (.validateParent profileId parentId .compared)
  | walk (profileId parentId : Nat)
      (apart : (view.ancestors parentId).contains profileId = false) :
      Moves view (.validateParent profileId parentId .compared) []
        (.setProfileParent profileId (some parentId) (.validated view.links.length))
  | lockProfile (profileId : Nat) (tenantId : Option Nat) (confirmShared : Bool) (profile : Profile)
      (granted : view.mayLock profileId .update = true)
      (found : view.profile profileId = some profile) :
      Moves view (.setProfileTenant profileId tenantId confirmShared .begun)
        [(profileId, .update)]
        (.setProfileTenant profileId tenantId confirmShared (.locked profile))
  | root (profileId : Nat) (tenantId : Option Nat) (confirmShared : Bool) (profile : Profile)
      (root : profile.parentProfileId = none) :
      Moves view (.setProfileTenant profileId tenantId confirmShared (.locked profile)) []
        (.setProfileTenant profileId tenantId confirmShared (.parentChecked profile))
  | checkParent (profileId : Nat) (tenantId : Option Nat) (confirmShared : Bool) (profile : Profile)
      (parentId : Nat) (parent : Profile) (under : profile.parentProfileId = some parentId)
      (granted : view.mayLock parentId .share = true)
      (found : view.profile parentId = some parent)
      (visible : checkChildVisibility tenantId parent.tenantId = .ok ()) :
      Moves view (.setProfileTenant profileId tenantId confirmShared (.locked profile))
        [(parentId, .share)]
        (.setProfileTenant profileId tenantId confirmShared (.parentChecked profile))
  | checkChildren (profileId : Nat) (tenantId : Option Nat) (confirmShared : Bool)
      (profile : Profile) (children : List Profile)
      (all : ∀ row, row ∈ children ↔
        row ∈ view.profiles.rows ∧ row.parentProfileId = some profileId)
      (granted : ∀ child ∈ children, view.mayLock child.id .share = true)
      (visible : ∀ child ∈ children, checkChildVisibility child.tenantId tenantId = .ok ()) :
      Moves view (.setProfileTenant profileId tenantId confirmShared (.parentChecked profile))
        (children.map fun child => (child.id, .share))
        (.setProfileTenant profileId tenantId confirmShared (.childrenChecked profile))
  | readRepo (repoId : Nat) (tenantId : Option Nat) (profileId : Nat) :
      Moves view (.setRepoTenant repoId tenantId .begun) []
        (.setRepoTenant repoId tenantId (.repoRead profileId))
  | checkRepo (repoId : Nat) (tenantId : Option Nat) (profileId : Nat) (profile : Profile)
      (granted : view.mayLock profileId .share = true)
      (found : view.profile profileId = some profile) (same : profile.tenantId = tenantId) :
      Moves view (.setRepoTenant repoId tenantId (.repoRead profileId)) [(profileId, .share)]
        (.setRepoTenant repoId tenantId (.checked profileId))
  | newRepo (profileId : Nat) (tenantId : Option (Option Nat)) (profile : Profile)
      (granted : view.mayLock profileId .share = true)
      (found : view.profile profileId = some profile) :
      Moves view (.addRepo profileId tenantId .begun) [(profileId, .share)]
        (.addRepo profileId tenantId (.inserting profile.tenantId))
  | load (profileId : Nat) (args : Fields) (current : Profile)
      (found : view.profile profileId = some current) :
      Moves view (.updateProfile profileId args .begun) []
        (.updateProfile profileId args (.loaded current view.links.length))
  | unindexed (profileId : Nat) (args : Fields) (current : Profile) (seen : Nat) :
      Moves view (.updateProfile profileId args (.loaded current seen)) []
        (.updateProfile profileId args (.unindexed current seen))
  | parentAgrees (profileId : Nat) (args : Fields) (current : Profile) (seen : Nat)
      (agrees : ∀ version, args.version.filter (· != current.odooVersion) = some version →
        ∀ parentId, current.parentProfileId = some parentId → ∀ parent,
          view.profile parentId = some parent → parent.odooVersion = version) :
      Moves view (.updateProfile profileId args (.unindexed current seen)) []
        (.updateProfile profileId args (.parentAgrees current seen))
  | descendantsAgree (profileId : Nat) (args : Fields) (current : Profile) (seen : Nat)
      (agree : ∀ version, args.version.filter (· != current.odooVersion) = some version →
        view.conflictRow profileId version = none) :
      Moves view (.updateProfile profileId args (.parentAgrees current seen)) []
        (.updateProfile profileId args (.descendantsAgree current seen))

/-- The last statement of a call. -/
inductive Writes (view : View) : Phase → Write → Prop where
  | insertProfile (args : NewProfile) (tenantId : Option Nat) :
      Writes view (.addProfile args (.inserting tenantId)) (.insertProfile args tenantId)
  | setParent (profileId : Nat) (parentId : Option Nat) (seen : Nat) (profile : Profile)
      (found : view.profile profileId = some profile)
      (granted : view.mayLock profileId .update = true) :
      Writes view (.setProfileParent profileId parentId (.validated seen))
        (.setParent profileId parentId)
  | setTenant (profileId : Nat) (tenantId : Option Nat) (confirmShared : Bool) (profile : Profile) :
      Writes view (.setProfileTenant profileId tenantId confirmShared (.childrenChecked profile))
        (.setTenant profileId tenantId)
  | setRepoTenant (repoId : Nat) (tenantId : Option Nat) (profileId : Nat) :
      Writes view (.setRepoTenant repoId tenantId (.checked profileId))
        (.setRepoTenant repoId profileId tenantId)
  | insertRepo (profileId : Nat) (tenantId : Option (Option Nat)) (profileTenant : Option Nat) :
      Writes view (.addRepo profileId tenantId (.inserting profileTenant))
        (.insertRepo profileId profileTenant)
  | setFields (profileId : Nat) (args : Fields) (current : Profile) (seen : Nat)
      (granted : view.mayLock profileId .update = true) :
      Writes view (.updateProfile profileId args (.descendantsAgree current seen))
        (.setFields profileId (updates args current))

section Statements
variable {view : View} {phase phase' : Phase} {locks : List (Nat × Mode)}

theorem forM_ok {children : List Profile} {tenantId : Option Nat}
    (passes : children.forM (fun child => checkChildVisibility child.tenantId tenantId) = .ok ()) :
    ∀ child ∈ children, checkChildVisibility child.tenantId tenantId = .ok () := by
  induction children with
  | nil => intro child member; cases member
  | cons first rest ih =>
      rw [List.forM_eq_forM, List.forM_cons] at passes
      cases visible : checkChildVisibility first.tenantId tenantId with
      | error error =>
          rw [visible] at passes
          cases passes
      | ok done =>
          rw [visible] at passes
          intro child member
          rcases List.mem_cons.mp member with rfl | inRest
          · exact visible
          · exact ih passes child inRest

/-- What the next statement of a call does, by its phase. -/
inductive Does (view : View) (phase : Phase) : Move → Prop where
  | waits : Does view phase .wait
  | goes (locks : List (Nat × Mode)) (phase' : Phase) (moves : Moves view phase locks phase') :
      Does view phase (.goto locks phase')
  | commits (write : Write) (outcome : Outcome) (writes : Writes view phase write) :
      Does view phase (.finish (some write) outcome)
  | ends (outcome : Outcome) : Does view phase (.finish none outcome)

theorem addProfile_does (args : NewProfile) (stage : AddProfile) :
    Does view (.addProfile args stage) (addProfile view args stage) := by
  cases stage with
  | begun =>
      simp only [addProfile]
      split
      · rename_i root
        split
        · exact .ends _
        · rename_i tenantId resolves
          exact .goes _ _ (.addRoot args tenantId root resolves)
      · rename_i parentId under
        split
        · rename_i granted
          split
          · exact .ends _
          · rename_i parent found
            split
            · exact .ends _
            · rename_i version
              split
              · exact .ends _
              · rename_i tenantId resolves
                exact .goes _ _ (.addChild args tenantId parentId parent under granted found
                  (not_not.mp version) resolves)
        · exact .waits
  | inserting tenantId =>
      simp only [addProfile]
      split
      · exact .ends _
      · exact .commits _ _ (.insertProfile args tenantId)

theorem setProfileParent_does (profileId : Nat) (parentId : Option Nat) (stage : SetProfileParent) :
    Does view (.setProfileParent profileId parentId stage)
      (setProfileParent view profileId parentId stage) := by
  cases stage with
  | begun =>
      simp only [setProfileParent]
      split
      · rename_i granted
        exact .goes _ _ (.lockPair profileId parentId _ (List.all_eq_true.mp granted))
      · exact .waits
  | locked =>
      simp only [setProfileParent]
      split
      · exact .goes _ _ (.noParent profileId)
      · rename_i parentId
        split
        · exact .ends _
        · rename_i apart
          exact .goes _ _ (.validate profileId parentId apart)
  | validated seen =>
      simp only [setProfileParent]
      split
      · exact .ends _
      · rename_i profile found
        split
        · exact .ends _
        · split
          · rename_i granted
            exact .commits _ _ (.setParent profileId parentId seen profile found granted)
          · exact .waits

theorem validateParent_does (profileId parentId : Nat) (stage : ValidateParent) :
    Does view (.validateParent profileId parentId stage)
      (validateParent view profileId parentId stage) := by
  cases stage with
  | begun => exact .goes _ _ (.readChild profileId parentId)
  | childRead child =>
      simp only [validateParent]
      split
      · exact .ends _
      · exact .ends _
      · rename_i child parent found
        split
        · exact .ends _
        · rename_i version
          split
          · exact .ends _
          · rename_i visible
            exact .goes _ _
              (.compare profileId parentId child parent found (not_not.mp version) visible)
  | compared =>
      simp only [validateParent]
      split
      · exact .ends _
      · rename_i apart
        exact .goes _ _ (.walk profileId parentId (Bool.eq_false_iff.mpr apart))

theorem setProfileTenant_does (profileId : Nat) (tenantId : Option Nat) (confirmShared : Bool)
    (stage : SetProfileTenant) :
    Does view (.setProfileTenant profileId tenantId confirmShared stage)
      (setProfileTenant view profileId tenantId confirmShared stage) := by
  cases stage with
  | begun =>
      simp only [setProfileTenant]
      split
      · exact .ends _
      · split
        · rename_i granted
          split
          · exact .ends _
          · rename_i profile found
            exact .goes _ _
              (.lockProfile profileId tenantId confirmShared profile granted found)
        · exact .waits
  | locked profile =>
      simp only [setProfileTenant]
      split
      · rename_i root
        exact .goes _ _ (.root profileId tenantId confirmShared profile root)
      · rename_i parentId under
        split
        · rename_i granted
          split
          · exact .ends _
          · rename_i parent found
            split
            · exact .ends _
            · rename_i visible
              exact .goes _ _ (.checkParent profileId tenantId confirmShared profile parentId
                parent under granted found visible)
        · exact .waits
  | parentChecked profile =>
      simp only [setProfileTenant]
      split
      · rename_i granted
        split
        · exact .ends _
        · rename_i visible
          refine .goes _ _ (.checkChildren profileId tenantId confirmShared profile _
            (fun row => ?_) (List.all_eq_true.mp granted) (forM_ok visible))
          simp [List.mem_filter]
      · exact .waits
  | childrenChecked profile =>
      exact .commits _ _ (.setTenant profileId tenantId confirmShared profile)

theorem setRepoTenant_does (repoId : Nat) (tenantId : Option Nat) (stage : SetRepoTenant) :
    Does view (.setRepoTenant repoId tenantId stage) (setRepoTenant view repoId tenantId stage) := by
  cases stage with
  | begun =>
      simp only [setRepoTenant]
      split
      · exact .ends _
      · exact .goes _ _ (.readRepo repoId tenantId _)
  | repoRead profileId =>
      simp only [setRepoTenant]
      split
      · rename_i granted
        split
        · exact .ends _
        · rename_i profile found
          split
          · exact .ends _
          · rename_i same
            exact .goes _ _
              (.checkRepo repoId tenantId profileId profile granted found (not_not.mp same))
      · exact .waits
  | checked profileId => exact .commits _ _ (.setRepoTenant repoId tenantId profileId)

theorem addRepo_does (profileId : Nat) (tenantId : Option (Option Nat)) (stage : AddRepo) :
    Does view (.addRepo profileId tenantId stage) (addRepo view profileId tenantId stage) := by
  cases stage with
  | begun =>
      simp only [addRepo]
      split
      · rename_i granted
        split
        · exact .ends _
        · rename_i profile found
          split
          · exact .ends _
          · exact .goes _ _ (.newRepo profileId tenantId profile granted found)
      · exact .waits
  | inserting profileTenant => exact .commits _ _ (.insertRepo profileId tenantId profileTenant)

theorem updateProfile_does (profileId : Nat) (args : Fields) (stage : UpdateProfile) :
    Does view (.updateProfile profileId args stage) (updateProfile view profileId args stage) := by
  cases stage with
  | begun =>
      simp only [updateProfile]
      split
      · exact .ends _
      · rename_i current found
        exact .goes _ _ (.load profileId args current found)
  | loaded current seen =>
      simp only [updateProfile]
      split
      · exact .ends _
      · exact .goes _ _ (.unindexed profileId args current seen)
  | unindexed current seen =>
      simp only [updateProfile]
      split
      · rename_i version parentId changes under
        split
        · rename_i missing
          refine .goes _ _ (.parentAgrees profileId args current seen ?_)
          intro version' changes' parentId' under' parent found
          rw [under] at under'
          cases under'
          rw [missing] at found
          cases found
        · rename_i parent found
          split
          · exact .ends _
          · rename_i agrees
            refine .goes _ _ (.parentAgrees profileId args current seen ?_)
            intro version' changes' parentId' under' parent' found'
            rw [changes] at changes'
            rw [under] at under'
            cases changes'
            cases under'
            rw [found] at found'
            cases found'
            exact not_not.mp agrees
      · rename_i none
        refine .goes _ _ (.parentAgrees profileId args current seen ?_)
        intro version changes parentId under
        exact absurd under (none version parentId changes)
  | parentAgrees current seen =>
      simp only [updateProfile]
      split
      · rename_i unchanged
        refine .goes _ _ (.descendantsAgree profileId args current seen fun version changes => ?_)
        rw [unchanged] at changes
        cases changes
      · rename_i version changes
        split
        · exact .ends _
        · rename_i agree
          split
          · refine .goes _ _
              (.descendantsAgree profileId args current seen fun version' changes' => ?_)
            rw [changes] at changes'
            cases changes'
            exact agree
          · exact .waits
  | descendantsAgree current seen =>
      simp only [updateProfile]
      split
      · exact .ends _
      · split
        · rename_i granted
          split
          · exact .ends _
          · split
            · exact .ends _
            · exact .commits _ _ (.setFields profileId args current seen granted)
        · exact .waits

theorem next_does (view : View) (phase : Phase) : Does view phase (next view phase) := by
  cases phase with
  | addProfile args stage => exact addProfile_does args stage
  | setProfileParent profileId parentId stage => exact setProfileParent_does profileId parentId stage
  | validateParent profileId parentId stage => exact validateParent_does profileId parentId stage
  | setProfileTenant profileId tenantId confirmShared stage =>
      exact setProfileTenant_does profileId tenantId confirmShared stage
  | setRepoTenant repoId tenantId stage => exact setRepoTenant_does repoId tenantId stage
  | addRepo profileId tenantId stage => exact addRepo_does profileId tenantId stage
  | updateProfile profileId args stage => exact updateProfile_does profileId args stage
  | ended outcome => exact .waits

/-- A statement takes only locks it may take. -/
theorem Moves.granted (moves : Moves view phase locks phase') :
    ∀ want ∈ locks, view.mayLock want.1 want.2 = true := by
  cases moves with
  | addChild args tenantId parentId parent under granted found version resolves
  | lockProfile profileId tenantId confirmShared profile granted found
  | checkParent profileId tenantId confirmShared profile parentId parent under granted
  | checkRepo repoId tenantId profileId profile granted found same
  | newRepo profileId tenantId profile granted found =>
      intro want member
      rw [List.mem_singleton.mp member]
      exact granted
  | lockPair profileId parentId rows granted =>
      intro want member
      obtain ⟨id, idIn, rfl⟩ := List.mem_map.mp member
      exact granted id idIn
  | checkChildren profileId tenantId confirmShared profile children all granted visible =>
      intro want member
      obtain ⟨child, childIn, rfl⟩ := List.mem_map.mp member
      exact granted child childIn
  | _ =>
      intro want member
      cases member

end Statements

inductive Step (state : State) (event : Event) : State → Prop where
  | same : Step state event state
  | begun (call : Call) (begins : event = .begin call) :
      Step state event { state with threads := state.threads ++ [call.begun] }
  | moved (thread : Nat) (phase phase' : Phase) (locks : List (Nat × Mode))
      (acts : event = .act thread) (at' : state.threads[thread]? = some phase)
      (moves : Moves (state.view thread) phase locks phase') :
      Step state event (state.move thread (.goto locks phase'))
  | committed (thread : Nat) (phase : Phase) (write : Write) (outcome : Outcome)
      (acts : event = .act thread) (at' : state.threads[thread]? = some phase)
      (writes : Writes (state.view thread) phase write) :
      Step state event (state.move thread (.finish (some write) outcome))
  | ended (thread : Nat) (outcome : Outcome) :
      Step state event (state.move thread (.finish none outcome))

theorem step_cases (state : State) (event : Event) : Step state event (step state event) := by
  cases event with
  | begin call => exact .begun call rfl
  | act thread =>
      simp only [step]
      cases at' : state.threads[thread]? with
      | none => exact .same
      | some phase =>
          simp only
          have does := next_does (state.view thread) phase
          generalize next (state.view thread) phase = move at does
          cases does with
          | waits => exact .same
          | goes locks phase' moves => exact .moved thread phase phase' locks rfl at' moves
          | commits write outcome writes => exact .committed thread phase write outcome rfl at' writes
          | ends outcome => exact .ended thread outcome
  | fail thread =>
      simp only [step]
      split
      · exact .same
      · exact .same
      · exact .ended thread .failed

theorem set_cases {threads : List Phase} {thread other : Nat} {phase phase' : Phase}
    (at' : (threads.set thread phase)[other]? = some phase') :
    (other = thread ∧ phase' = phase) ∨ (other ≠ thread ∧ threads[other]? = some phase') := by
  rw [List.getElem?_set] at at'
  by_cases acting : thread = other
  · rw [if_pos acting] at at'
    split at at'
    · exact Or.inl ⟨acting.symm, (Option.some.inj at').symm⟩
    · cases at'
  · rw [if_neg acting] at at'
    exact Or.inr ⟨Ne.symm acting, at'⟩

theorem snoc_cases {threads : List Phase} {other : Nat} {phase phase' : Phase}
    (at' : (threads ++ [phase])[other]? = some phase') :
    phase' = phase ∨ threads[other]? = some phase' := by
  rcases Nat.lt_trichotomy other threads.length with old | last | beyond
  · rw [List.getElem?_append_left old] at at'
    exact Or.inr at'
  · subst last
    rw [List.getElem?_append_right (Nat.le_refl _), Nat.sub_self] at at'
    exact Or.inl (Option.some.inj at').symm
  · rw [List.getElem?_eq_none (by simp; omega)] at at'
    cases at'

def Phase.Refers (tables : Tables) : Phase → Prop
  | .addProfile args (.inserting _) => ∀ parentId, args.parentId = some parentId → parentId ∈ tables.ids
  | .validateParent _ parentId .compared => parentId ∈ tables.ids
  | .setProfileParent _ parentId (.validated _) => ∀ above, parentId = some above → above ∈ tables.ids
  | .addRepo profileId _ (.inserting _) => profileId ∈ tables.ids
  | _ => True

theorem ids_of_profile {tables : Tables} {id : Nat} {row : Profile}
    (found : tables.profile id = some row) : id ∈ tables.ids :=
  mem_ids.mpr ⟨row, List.mem_of_find?_eq_some found, by simpa using List.find?_some found⟩

theorem Phase.Refers.mono {tables next : Tables} (grows : ∀ id ∈ tables.ids, id ∈ next.ids)
    {phase : Phase} (refers : phase.Refers tables) : phase.Refers next := by
  unfold Phase.Refers at refers ⊢
  split at refers
  · exact fun parentId under => grows parentId (refers parentId under)
  · exact grows _ refers
  · exact fun above under => grows above (refers above under)
  · exact grows _ refers
  · trivial

theorem Moves.refers {view : View} {phase phase' : Phase} {locks : List (Nat × Mode)}
    (moves : Moves view phase locks phase') (refers : phase.Refers view.toTables) :
    phase'.Refers view.toTables := by
  cases moves with
  | addRoot args tenantId root resolves =>
      intro parentId under
      rw [root] at under
      cases under
  | addChild args tenantId parentId parent under granted found version resolves =>
      intro other under'
      rw [under] at under'
      cases under'
      exact ids_of_profile found
  | noParent profileId =>
      intro above under
      cases under
  | compare profileId parentId child parent found version visible
  | newRepo profileId tenantId profile granted found => exact ids_of_profile found
  | walk profileId parentId apart =>
      intro above under
      cases under
      exact refers
  | _ => trivial

theorem Writes.refers {view : View} {phase : Phase} {write : Write} (writes : Writes view phase write)
    (refers : phase.Refers view.toTables) : write.Refers view.toTables := by
  cases writes with
  | insertProfile args tenantId | setParent profileId parentId seen profile found granted
  | insertRepo profileId tenantId profileTenant => exact refers
  | _ => trivial

/-- The keys hold, and every call refers to rows that exist. -/
structure Consistent (state : State) : Prop where
  stored : Stored state.toTables
  refers : ∀ (thread : Nat) (phase : Phase), state.threads[thread]? = some phase →
    phase.Refers state.toTables

theorem Consistent.step {state : State} (consistent : Consistent state) (event : Event) :
    Consistent (Registry.step state event) := by
  have change := step_cases state event
  generalize Registry.step state event = reached at change
  cases change with
  | same => exact consistent
  | begun call begins =>
      refine ⟨consistent.stored, fun thread phase at' => ?_⟩
      rcases snoc_cases at' with rfl | old
      · cases call <;> trivial
      · exact consistent.refers thread phase old
  | moved thread phase phase' locks acts at' moves =>
      refine ⟨consistent.stored, fun other phase'' other' => ?_⟩
      rcases set_cases other' with ⟨-, rfl⟩ | ⟨-, old⟩
      · exact moves.refers (consistent.refers thread phase at')
      · exact consistent.refers other phase'' old
  | committed thread phase write outcome acts at' writes =>
      have refers := writes.refers (consistent.refers thread phase at')
      refine ⟨consistent.stored.commit refers, fun other phase'' other' => ?_⟩
      rcases set_cases other' with ⟨-, rfl⟩ | ⟨-, old⟩
      · trivial
      · exact (consistent.refers other phase'' old).mono fun _ => ids_commit
  | ended thread outcome =>
      refine ⟨consistent.stored, fun other phase'' other' => ?_⟩
      rcases set_cases other' with ⟨-, rfl⟩ | ⟨-, old⟩
      · trivial
      · exact consistent.refers other phase'' old

theorem consistent_resting {profiles : Table Profile} {repos : Table Repo}
    (stored : Stored (resting profiles repos).toTables) : Consistent (resting profiles repos) :=
  ⟨stored, fun thread phase at' => by simp [resting] at at'⟩

end OdooSemantic.Registry
