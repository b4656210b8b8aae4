import OdooSemantic.Lib.Forest
import OdooSemantic.Lib.RowLocks
import OdooSemantic.Lib.Run
import OdooSemantic.Lib.Table

/-!
# The profile registry

Six operations of `RepoStore`, statement by statement.  A statement reads what is committed,
waits while another transaction holds a row it locks, and may fail; what a transaction writes
shows when it commits, so its last statement and the commit are one step.
-/

set_option autoImplicit false

namespace OdooSemantic.Registry

open Lib Lib.RowLocks

structure Profile where
  id : Nat
  name : String
  odooVersion : String
  description : Option String
  parentProfileId : Option Nat
  tenantId : Option Nat

structure Repo where
  id : Nat
  profileId : Nat
  headSha : Option String
  tenantId : Option Nat

inductive Error where
  | valueError
  | typeError
  | profileNotFound
  | profileCycle
  | profileNameConflict
  | profileVersionMismatch
  | profileVisibility
  | profileInput
  | profileTenantRequired
  | profileIndexed

def checkChildVisibility (childTenantId parentTenantId : Option Nat) : Except Error Unit :=
  if parentTenantId = none ∨ childTenantId = parentTenantId then .ok ()
  else .error .profileVisibility

def resolveNewProfileTenant (parentTenantId : Option Nat) (hasParent : Bool)
    (tenantId : Option Nat) (shared : Bool) : Except Error (Option Nat) :=
  if shared && tenantId.isSome then .error .profileInput
  else if hasParent && parentTenantId.isSome then do
    if shared then checkChildVisibility none parentTenantId
    if tenantId = none then return parentTenantId
    checkChildVisibility tenantId parentTenantId
    return tenantId
  else if tenantId.isSome then .ok tenantId
  else if shared then .ok none
  else .error .profileTenantRequired

/-! ## Calls and where they stand -/

/-- The arguments of `add_profile`. -/
structure NewProfile where
  name : String
  odooVersion : String
  description : String
  parentId : Option Nat
  tenantId : Option Nat
  shared : Bool

/-- The arguments of `update_profile`. -/
structure Fields where
  name : Option String
  version : Option String
  description : Option String

inductive AddProfile where
  | begun
  | inserting (tenantId : Option Nat)

/-- `seen` counts the parent links committed before the walk over the ancestors. -/
inductive SetProfileParent where
  | begun
  | locked
  | validated (seen : Nat)

inductive ValidateParent where
  | begun
  | childRead (child : Option Profile)
  | compared

inductive SetProfileTenant where
  | begun
  | locked (profile : Profile)
  | parentChecked (profile : Profile)
  | childrenChecked (profile : Profile)

inductive SetRepoTenant where
  | begun
  | repoRead (profileId : Nat)
  | checked (profileId : Nat)

inductive AddRepo where
  | begun
  | inserting (profileTenant : Option Nat)

/-- `seen` counts the parent links committed before the profile was loaded. -/
inductive UpdateProfile where
  | begun
  | loaded (current : Profile) (seen : Nat)
  | unindexed (current : Profile) (seen : Nat)
  | parentAgrees (current : Profile) (seen : Nat)
  | descendantsAgree (current : Profile) (seen : Nat)

/-- What a call returns or raises. -/
inductive Outcome where
  | id (id : Nat)
  | flag (changed : Bool)
  | tenant (changed : Bool) (reposUpdated : Nat)
  | fields (changed : List String)
  | raised (error : Error)
  | failed

inductive Phase where
  | addProfile (args : NewProfile) (stage : AddProfile)
  | setProfileParent (profileId : Nat) (parentId : Option Nat) (stage : SetProfileParent)
  | validateParent (profileId parentId : Nat) (stage : ValidateParent)
  | setProfileTenant (profileId : Nat) (tenantId : Option Nat) (confirmShared : Bool)
      (stage : SetProfileTenant)
  | setRepoTenant (repoId : Nat) (tenantId : Option Nat) (stage : SetRepoTenant)
  | addRepo (profileId : Nat) (tenantId : Option (Option Nat)) (stage : AddRepo)
  | updateProfile (profileId : Nat) (args : Fields) (stage : UpdateProfile)
  | ended (outcome : Outcome)

/-- What a committed transaction wrote. -/
inductive Write where
  | insertProfile (args : NewProfile) (tenantId : Option Nat)
  | setParent (profileId : Nat) (parentId : Option Nat)
  | setTenant (profileId : Nat) (tenantId : Option Nat)
  | setRepoTenant (repoId profileId : Nat) (tenantId : Option Nat)
  | insertRepo (profileId : Nat) (tenantId : Option Nat)
  | setFields (profileId : Nat) (updates : Fields)

/-- What the next statement of a call does. -/
inductive Move where
  | wait
  | goto (locks : List (Nat × Mode)) (phase : Phase)
  | finish (write : Option Write) (outcome : Outcome)

/-- The committed tables, and the parent links in the order of their commits. -/
structure Tables where
  profiles : Table Profile
  repos : Table Repo
  links : List (Nat × Nat)

def Tables.profile (tables : Tables) (id : Nat) : Option Profile :=
  tables.profiles.rows.find? (·.id == id)

/-- What a statement of one transaction sees. -/
structure View extends Tables where
  mayLock : Nat → Mode → Bool

def raise (error : Error) : Move := .finish none (.raised error)

def addProfile (view : View) (args : NewProfile) : AddProfile → Move
  | .begun =>
      match args.parentId with
      | none =>
          match resolveNewProfileTenant none false args.tenantId args.shared with
          | .error error => raise error
          | .ok tenantId => .goto [] (.addProfile args (.inserting tenantId))
      | some parentId =>
          if view.mayLock parentId .share then
            match view.profile parentId with
            | none => raise .valueError
            | some parent =>
                if parent.odooVersion ≠ args.odooVersion then raise .valueError
                else
                  match resolveNewProfileTenant parent.tenantId true args.tenantId args.shared with
                  | .error error => raise error
                  | .ok tenantId =>
                      .goto [(parentId, .share)] (.addProfile args (.inserting tenantId))
          else .wait
  | .inserting tenantId =>
      if view.profiles.rows.any (·.name == args.name) then raise .valueError
      else .finish (some (.insertProfile args tenantId)) (.id view.profiles.nextId)

/-- `parent_profile_id` of the row, as the joins of the recursive queries follow it. -/
def Tables.parentOf (tables : Tables) (id : Nat) : Option Nat :=
  (tables.profile id).bind (·.parentProfileId)

def Tables.ids (tables : Tables) : List Nat := tables.profiles.rows.map (·.id)

def Tables.ancestors (tables : Tables) (id : Nat) : List Nat :=
  Forest.ancestors tables.parentOf tables.ids.length id

def validateParent (view : View) (profileId parentId : Nat) : ValidateParent → Move
  | .begun => .goto [] (.validateParent profileId parentId (.childRead (view.profile profileId)))
  | .childRead child =>
      match child, view.profile parentId with
      | none, _ => raise .profileNotFound
      | some _, none => raise .profileNotFound
      | some child, some parent =>
          if child.odooVersion ≠ parent.odooVersion then raise .profileVersionMismatch
          else
            match checkChildVisibility child.tenantId parent.tenantId with
            | .error error => raise error
            | .ok () => .goto [] (.validateParent profileId parentId .compared)
  | .compared =>
      if (view.ancestors parentId).contains profileId then raise .profileCycle
      else .goto [] (.setProfileParent profileId (some parentId) (.validated view.links.length))

/-- Only rows that exist are locked. -/
def setProfileParent (view : View) (profileId : Nat) (parentId : Option Nat) :
    SetProfileParent → Move
  | .begun =>
      let rows := (profileId :: parentId.toList).filter fun id => (view.profile id).isSome
      if rows.all fun id => view.mayLock id .update then
        .goto (rows.map fun id => (id, .update)) (.setProfileParent profileId parentId .locked)
      else .wait
  | .locked =>
      match parentId with
      | none => .goto [] (.setProfileParent profileId none (.validated view.links.length))
      | some parentId =>
          if parentId = profileId then raise .profileCycle
          else .goto [] (.validateParent profileId parentId .begun)
  | .validated _ =>
      match view.profile profileId with
      | none => raise .profileNotFound
      | some profile =>
          if profile.parentProfileId = parentId then .finish none (.flag false)
          else if view.mayLock profileId .update then
            .finish (some (.setParent profileId parentId)) (.flag true)
          else .wait

def setProfileTenant (view : View) (profileId : Nat) (tenantId : Option Nat)
    (confirmShared : Bool) : SetProfileTenant → Move
  | .begun =>
      if tenantId = none ∧ confirmShared = false then raise .profileTenantRequired
      else if view.mayLock profileId .update then
        match view.profile profileId with
        | none => raise .profileNotFound
        | some profile =>
            .goto [(profileId, .update)]
              (.setProfileTenant profileId tenantId confirmShared (.locked profile))
      else .wait
  | .locked profile =>
      match profile.parentProfileId with
      | none => .goto [] (.setProfileTenant profileId tenantId confirmShared (.parentChecked profile))
      | some parentId =>
          if view.mayLock parentId .share then
            match view.profile parentId with
            | none => raise .typeError
            | some parent =>
                match checkChildVisibility tenantId parent.tenantId with
                | .error error => raise error
                | .ok () => .goto [(parentId, .share)]
                    (.setProfileTenant profileId tenantId confirmShared (.parentChecked profile))
          else .wait
  | .parentChecked profile =>
      let children := view.profiles.rows.filter (·.parentProfileId == some profileId)
      if children.all fun child => view.mayLock child.id .share then
        match children.forM fun child => checkChildVisibility child.tenantId tenantId with
        | .error error => raise error
        | .ok () => .goto (children.map fun child => (child.id, .share))
            (.setProfileTenant profileId tenantId confirmShared (.childrenChecked profile))
      else .wait
  | .childrenChecked profile =>
      .finish (some (.setTenant profileId tenantId))
        (.tenant (profile.tenantId != tenantId)
          (view.repos.rows.countP fun repo =>
            repo.profileId == profileId && repo.tenantId != tenantId))

def setRepoTenant (view : View) (repoId : Nat) (tenantId : Option Nat) : SetRepoTenant → Move
  | .begun =>
      match view.repos.rows.find? (·.id == repoId) with
      | none => .finish none (.flag false)
      | some repo => .goto [] (.setRepoTenant repoId tenantId (.repoRead repo.profileId))
  | .repoRead profileId =>
      if view.mayLock profileId .share then
        match view.profile profileId with
        | none => .finish none (.flag false)
        | some profile =>
            if profile.tenantId ≠ tenantId then raise .profileVisibility
            else .goto [(profileId, .share)] (.setRepoTenant repoId tenantId (.checked profileId))
      else .wait
  | .checked profileId =>
      .finish (some (.setRepoTenant repoId profileId tenantId))
        (.flag (view.repos.rows.any fun repo => repo.id == repoId && repo.profileId == profileId))

/-- `none` inherits the profile's tenant. -/
def addRepo (view : View) (profileId : Nat) (tenantId : Option (Option Nat)) : AddRepo → Move
  | .begun =>
      if view.mayLock profileId .share then
        match view.profile profileId with
        | none => raise .profileNotFound
        | some profile =>
            if tenantId.any (· != profile.tenantId) then raise .profileVisibility
            else .goto [(profileId, .share)] (.addRepo profileId tenantId (.inserting profile.tenantId))
      else .wait
  | .inserting profileTenant =>
      .finish (some (.insertRepo profileId profileTenant)) (.id view.repos.nextId)

def nameChanging (args : Fields) (current : Profile) : Bool :=
  args.name.any (· != current.name)

def versionChanging (args : Fields) (current : Profile) : Bool :=
  args.version.any (· != current.odooVersion)

/-- The columns that are set. -/
def updates (args : Fields) (current : Profile) : Fields where
  name := args.name.filter (· != current.name)
  version := args.version.filter (· != current.odooVersion)
  description := args.description.filter fun text => some text != current.description

def Fields.names (fields : Fields) : List String :=
  (fields.name.map fun _ => "name").toList ++
    (fields.version.map fun _ => "odoo_version").toList ++
    (fields.description.map fun _ => "description").toList

def hasIndexedRepos (tables : Tables) (profileId : Nat) : Nat :=
  tables.repos.rows.countP fun repo => repo.profileId == profileId && repo.headSha.isSome

def Tables.children (tables : Tables) (id : Nat) : List Nat :=
  (tables.profiles.rows.filter (·.parentProfileId == some id)).map (·.id)

/-- The ids under a profile; nothing when the query does not end. -/
def Tables.descendants (tables : Tables) (id : Nat) : Option (List Nat) :=
  Forest.walkDown tables.children (tables.ids.length + 1) (tables.children id)

/-- The ids the endless query still produces. -/
def Tables.below (tables : Tables) (id : Nat) : List Nat :=
  tables.ids.filter fun low => (tables.ancestors low).any fun high => high ∈ tables.children id

/-- A profile of another version under this one; `LIMIT 1` stops at the first. -/
def Tables.conflictRow (tables : Tables) (id : Nat) (version : String) : Option Profile :=
  tables.profiles.rows.find? fun row => row.id ∈ tables.below id && row.odooVersion != version

def updateProfile (view : View) (profileId : Nat) (args : Fields) : UpdateProfile → Move
  | .begun =>
      match view.profile profileId with
      | none => raise .profileNotFound
      | some current => .goto [] (.updateProfile profileId args (.loaded current view.links.length))
  | .loaded current seen =>
      if (nameChanging args current || versionChanging args current) &&
          hasIndexedRepos view.toTables profileId != 0 then raise .profileIndexed
      else .goto [] (.updateProfile profileId args (.unindexed current seen))
  | .unindexed current seen =>
      let next := .goto [] (.updateProfile profileId args (.parentAgrees current seen))
      match args.version.filter (· != current.odooVersion), current.parentProfileId with
      | some version, some parentId =>
          match view.profile parentId with
          | none => next
          | some parent => if parent.odooVersion ≠ version then raise .profileVersionMismatch else next
      | _, _ => next
  | .parentAgrees current seen =>
      let next := .goto [] (.updateProfile profileId args (.descendantsAgree current seen))
      match args.version.filter (· != current.odooVersion) with
      | none => next
      | some version =>
          match view.conflictRow profileId version with
          | some _ => raise .profileVersionMismatch
          | none => if (view.descendants profileId).isSome then next else .wait
  | .descendantsAgree current _ =>
      if (updates args current).names = [] then .finish none (.fields [])
      else if view.mayLock profileId .update then
        match view.profile profileId with
        | none => raise .profileNotFound
        | some _ =>
            if (updates args current).name.any fun name =>
                view.profiles.rows.any fun row => row.name == name && row.id != profileId then
              raise .profileNameConflict
            else
              .finish (some (.setFields profileId (updates args current)))
                (.fields (updates args current).names)
      else .wait

def Tables.commit (tables : Tables) : Write → Tables
  | .insertProfile args tenantId =>
      let row :=
        { id := tables.profiles.nextId, name := args.name, odooVersion := args.odooVersion
          description := some args.description, parentProfileId := args.parentId, tenantId }
      { tables with
        profiles := ⟨tables.profiles.rows ++ [row], tables.profiles.nextId + 1⟩
        links := tables.links ++ (args.parentId.map fun parentId => (row.id, parentId)).toList }
  | .setParent profileId parentId =>
      { tables with
        profiles := tables.profiles.updateWhere (·.id == profileId)
          fun row => { row with parentProfileId := parentId }
        links := tables.links ++ (parentId.map fun parentId => (profileId, parentId)).toList }
  | .setTenant profileId tenantId =>
      { tables with
        profiles := tables.profiles.updateWhere (·.id == profileId) fun row => { row with tenantId }
        repos := tables.repos.updateWhere (·.profileId == profileId) fun repo => { repo with tenantId } }
  | .setRepoTenant repoId profileId tenantId =>
      { tables with
        repos := tables.repos.updateWhere
          (fun repo => repo.id == repoId && repo.profileId == profileId)
          fun repo => { repo with tenantId } }
  | .insertRepo profileId tenantId =>
      let row := { id := tables.repos.nextId, profileId, headSha := none, tenantId }
      { tables with repos := ⟨tables.repos.rows ++ [row], tables.repos.nextId + 1⟩ }
  | .setFields profileId updates =>
      { tables with
        profiles := tables.profiles.updateWhere (·.id == profileId) fun row =>
          { row with
            name := updates.name.getD row.name
            odooVersion := updates.version.getD row.odooVersion
            description := updates.description.or row.description } }

structure State extends Tables where
  held : List Lock
  threads : List Phase

def State.view (state : State) (thread : Nat) : View :=
  { state.toTables with mayLock := grantable state.held thread }

def next (view : View) : Phase → Move
  | .addProfile args stage => addProfile view args stage
  | .setProfileParent profileId parentId stage => setProfileParent view profileId parentId stage
  | .validateParent profileId parentId stage => validateParent view profileId parentId stage
  | .setProfileTenant profileId tenantId confirmShared stage =>
      setProfileTenant view profileId tenantId confirmShared stage
  | .setRepoTenant repoId tenantId stage => setRepoTenant view repoId tenantId stage
  | .addRepo profileId tenantId stage => addRepo view profileId tenantId stage
  | .updateProfile profileId args stage => updateProfile view profileId args stage
  | .ended _ => .wait

inductive Call where
  | addProfile (args : NewProfile)
  | setProfileParent (profileId : Nat) (parentId : Option Nat)
  | setProfileTenant (profileId : Nat) (tenantId : Option Nat) (confirmShared : Bool)
  | setRepoTenant (repoId : Nat) (tenantId : Option Nat)
  | addRepo (profileId : Nat) (tenantId : Option (Option Nat))
  | updateProfile (profileId : Nat) (args : Fields)

def Call.begun : Call → Phase
  | .addProfile args => .addProfile args .begun
  | .setProfileParent profileId parentId => .setProfileParent profileId parentId .begun
  | .setProfileTenant profileId tenantId confirmShared =>
      .setProfileTenant profileId tenantId confirmShared .begun
  | .setRepoTenant repoId tenantId => .setRepoTenant repoId tenantId .begun
  | .addRepo profileId tenantId => .addRepo profileId tenantId .begun
  | .updateProfile profileId args => .updateProfile profileId args .begun

/-- A statement that fails rolls its transaction back. -/
inductive Event where
  | begin (call : Call)
  | act (thread : Nat)
  | fail (thread : Nat)

def State.move (state : State) (thread : Nat) : Move → State
  | .wait => state
  | .goto locks phase =>
      { state with
        held := acquire state.held thread locks
        threads := state.threads.set thread phase }
  | .finish write outcome =>
      { (write.map state.toTables.commit).getD state.toTables with
        held := release state.held thread
        threads := state.threads.set thread (.ended outcome) }

def step (state : State) : Event → State
  | .begin call => { state with threads := state.threads ++ [call.begun] }
  | .act thread =>
      match state.threads[thread]? with
      | none => state
      | some phase => state.move thread (next (state.view thread) phase)
  | .fail thread =>
      match state.threads[thread]? with
      | none => state
      | some (.ended _) => state
      | some _ => state.move thread (.finish none .failed)

/-- No transaction has begun. -/
def resting (profiles : Table Profile) (repos : Table Repo) : State :=
  { profiles, repos, links := [], held := [], threads := [] }

end OdooSemantic.Registry
