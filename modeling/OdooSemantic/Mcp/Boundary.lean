import OdooSemantic.Lib.Py

/-!
# The profile boundary of a caller and its two enforcement points

A graph node carries an array of profiles, a stored row one profile name.  The
predicate on arrays and the flat list behind the row policies restrict both to
one view, and narrowing by a profile only shrinks it.
-/

set_option autoImplicit false

namespace OdooSemantic.Mcp.Boundary

open Lib.Py

/-- The profiles a caller may see; none is unrestricted. -/
abbrev View (Name : Type) := Option (Set Name)

section Views
variable {Name : Type}

def View.Grants (view : View Name) (profiles : List Name) : Prop :=
  ∀ members, view = some members → profiles ≠ [] ∧ ∀ profile ∈ profiles, profile ∈ members

def View.Within (narrow full : View Name) : Prop :=
  ∀ members, full = some members → ∃ fewer, narrow = some fewer ∧ fewer ⊆ members

theorem View.within_refl (view : View Name) : view.Within view :=
  fun members known => ⟨members, known, subset_rfl⟩

theorem View.Within.grants {narrow full : View Name} (within : narrow.Within full)
    {profiles : List Name} (granted : narrow.Grants profiles) : full.Grants profiles := by
  intro members known
  obtain ⟨fewer, isNarrow, subset⟩ := within members known
  have each := granted fewer isNarrow
  exact ⟨each.1, fun profile member => subset (each.2 profile member)⟩

end Views

structure ProfileRow where
  id : Nat
  name : String
  tenantId : Option Nat
  parentProfileId : Option Nat
  deriving DecidableEq

structure Registry where
  profiles : List ProfileRow
  chainReachable : Bool
  sharedReachable : Bool

def maxProfileDepth : Nat := 16

structure ChainRow where
  id : Nat
  name : String
  parentProfileId : Option Nat
  depth : Nat
  path : List Nat
  cut : Bool

def firstRow (row : ProfileRow) : ChainRow :=
  { id := row.id, name := row.name, parentProfileId := row.parentProfileId, depth := 0
    path := [row.id], cut := false }

def nextRow (profiles : List ProfileRow) (row : ChainRow) : Option ChainRow :=
  if row.cut then none
  else (row.parentProfileId.bind fun parent => profiles.find? (·.id == parent)).map fun found =>
    { id := found.id, name := found.name, parentProfileId := found.parentProfileId
      depth := row.depth + 1, path := row.path ++ [found.id]
      cut := row.path.contains found.id ||
        (decide (row.depth + 1 ≥ maxProfileDepth) && found.parentProfileId.isSome) }

def chainRows (profiles : List ProfileRow) : Nat → ChainRow → List ChainRow
  | 0, row => [row]
  | hops + 1, row =>
      match nextRow profiles row with
      | none => [row]
      | some next => row :: chainRows profiles hops next

/-- `get_ancestor_profile_names`: the profile, then its ancestors. -/
def getAncestorProfileNames (profiles : List ProfileRow) (profileName : String) : List String :=
  match profiles.find? (·.name == profileName) with
  | none => []
  | some row => ((chainRows profiles maxProfileDepth (firstRow row)).map (·.name)).eraseDups

def Bounded (row : ChainRow) : Prop :=
  row.cut = true ∨ row.parentProfileId = none ∨ row.depth < maxProfileDepth

theorem nextRow_bounded (profiles : List ProfileRow) (row next : ChainRow)
    (found : nextRow profiles row = some next) :
    Bounded next ∧ next.depth = row.depth + 1 := by
  unfold nextRow at found
  split at found
  · cases found
  · obtain ⟨parent, -, rfl⟩ := Option.map_eq_some_iff.mp found
    refine ⟨?_, rfl⟩
    by_cases deep : row.depth + 1 ≥ maxProfileDepth
    · cases parent.parentProfileId with
      | none => exact Or.inr (Or.inl rfl)
      | some _ => exact Or.inl (by simp [deep])
    · exact Or.inr (Or.inr (Nat.lt_of_not_ge deep))

/-- The walk ends by itself: no row of the query is left out. -/
theorem chainRows_complete (profiles : List ProfileRow) (hops : Nat) :
    ∀ row, Bounded row → maxProfileDepth ≤ row.depth + hops →
      ∃ last, (chainRows profiles hops row).getLast? = some last ∧
        nextRow profiles last = none := by
  induction hops with
  | zero =>
      intro row bounded deep
      refine ⟨row, rfl, ?_⟩
      unfold nextRow
      rcases bounded with cut | root | shallow
      · simp [cut]
      · simp [root]
      · omega
  | succ hops ih =>
      intro row _ deep
      cases found : nextRow profiles row with
      | none => exact ⟨row, by simp [chainRows, found], found⟩
      | some next =>
          obtain ⟨bounded, depth⟩ := nextRow_bounded profiles row next found
          obtain ⟨last, isLast, ends⟩ := ih next bounded (by omega)
          refine ⟨last, ?_, ends⟩
          rw [chainRows, found]
          simp only
          rw [List.getLast?_cons, isLast]
          rfl

theorem chainRows_named (profiles : List ProfileRow) (hops : Nat) :
    ∀ row, ∀ other ∈ chainRows profiles hops row,
      other.name = row.name ∨ ∃ profile ∈ profiles, other.name = profile.name := by
  induction hops with
  | zero =>
      intro row other member
      left
      rw [List.mem_singleton.mp member]
  | succ hops ih =>
      intro row other member
      rw [chainRows] at member
      cases found : nextRow profiles row with
      | none =>
          rw [found] at member
          left
          rw [List.mem_singleton.mp member]
      | some next =>
          rw [found] at member
          rcases List.mem_cons.mp member with same | later
          · left
            rw [same]
          · rcases ih next other later with named | known
            · right
              unfold nextRow at found
              split at found
              · cases found
              · obtain ⟨parent, isParent, rfl⟩ := Option.map_eq_some_iff.mp found
                obtain ⟨_, -, isFound⟩ := Option.bind_eq_some_iff.mp isParent
                exact ⟨parent, List.mem_of_find?_eq_some isFound, named⟩
            · exact Or.inr known

/-- `resolve_profile_chain`: the profile alone when it is unknown or the registry fails. -/
def resolveProfileChain (registry : Registry) (profileName : String) : List String :=
  if registry.chainReachable then
    let chain := getAncestorProfileNames registry.profiles profileName
    if chain.head? = some profileName then chain else [profileName]
  else [profileName]

theorem resolveProfileChain_named (registry : Registry) (profileName name : String)
    (member : name ∈ resolveProfileChain registry profileName) :
    name = profileName ∨ ∃ profile ∈ registry.profiles, name = profile.name := by
  unfold resolveProfileChain at member
  split at member
  · simp only at member
    split at member
    · unfold getAncestorProfileNames at member
      cases found : registry.profiles.find? (·.name == profileName) with
      | none =>
          rw [found] at member
          cases member
      | some row =>
          rw [found] at member
          simp only [List.mem_eraseDups, List.mem_map] at member
          obtain ⟨other, otherIn, rfl⟩ := member
          rcases chainRows_named _ _ _ other otherIn with same | known
          · exact Or.inr ⟨row, List.mem_of_find?_eq_some found, same⟩
          · exact Or.inr known
    · exact Or.inl (List.mem_singleton.mp member)
  · exact Or.inl (List.mem_singleton.mp member)

def sharedProfileNames (profiles : List ProfileRow) : List String :=
  sorted ((profiles.filter (·.tenantId.isNone)).map (·.name))

def adminNarrowingShared (registry : Registry) : List String :=
  if registry.sharedReachable then sharedProfileNames registry.profiles else []

/-! ## Narrowing -/

/-- `{'own': …, 'shared': …}`; own is none for an admin. -/
structure Scope where
  own : Option (List String)
  shared : List String

def Scope.view (scope : Scope) : View String :=
  scope.own.map fun own => {profile | profile ∈ own ∨ profile ∈ scope.shared}

def narrowScope (registry : Registry) (profileName : String) (boundary : Scope) : Scope :=
  match boundary.own with
  | none =>
      { own := some (resolveProfileChain registry profileName)
        shared := adminNarrowingShared registry }
  | some own =>
      if !own.contains profileName && !boundary.shared.contains profileName then
        { own := some [], shared := [] }
      else
        let ancestors := (resolveProfileChain registry profileName).drop 1
        { own := some (profileName :: ancestors.filter own.contains)
          shared := boundary.shared }

structure Caller where
  boundary : Scope
  registry : Registry
  pin : Option String

/-- A name that is neither missing nor empty. -/
def given : Option String → Option String
  | none => none
  | some name => if name = "" then none else some name

/-- `_resolve_profile(None)`: the session pin, when one is set. -/
def resolveProfile (caller : Caller) : Option String :=
  given caller.pin

def scope (caller : Caller) (profileName : Option String) (pin : Bool) : Scope :=
  let profileName := if profileName.isNone && pin then resolveProfile caller else profileName
  match profileName with
  | none => caller.boundary
  | some name =>
      if name = "" then caller.boundary else narrowScope caller.registry name caller.boundary

/-- `_scope_pred` on the profile array of a node, which may be missing. -/
def scopePred (scope : Scope) (profile : Option (List String)) : Bool :=
  match scope.own, profile with
  | none, _ => true
  | some _, none => false
  | some own, some profile =>
      decide (profile.length > 0) &&
        profile.all fun name => own.contains name || scope.shared.contains name

theorem scopePred_iff (scope : Scope) (profiles : List String) :
    scopePred scope (some profiles) = true ↔ scope.view.Grants profiles := by
  cases own : scope.own with
  | none => simp [scopePred, Scope.view, View.Grants, own]
  | some own' => simp [scopePred, Scope.view, View.Grants, own, List.length_pos_iff]

theorem narrowScope_within (registry : Registry) (profileName : String) (boundary : Scope) :
    (narrowScope registry profileName boundary).view.Within boundary.view := by
  intro members known
  obtain ⟨own, isOwn, rfl⟩ := Option.map_eq_some_iff.mp known
  unfold narrowScope
  rw [isOwn]
  simp only
  split
  · exact ⟨_, rfl, by simp⟩
  · rename_i inside
    refine ⟨_, rfl, ?_⟩
    intro profile member
    simp only [Set.mem_ofPred_eq, List.mem_cons, List.mem_filter, List.contains_iff_mem] at member ⊢
    rcases member with (rfl | owned) | shared
    · simp only [Bool.and_eq_true, Bool.not_eq_true', contains_eq_false_iff, not_and,
        not_not] at inside
      by_cases isOwned : profile ∈ own
      · exact Or.inl isOwned
      · exact Or.inr (inside isOwned)
    · exact Or.inl owned.2
    · exact Or.inr shared

def chosen (caller : Caller) (profileName : Option String) : Option String :=
  given (profileName.or (resolveProfile caller))

theorem given_nonempty (value : Option String) (name : String) (isGiven : given value = some name) :
    name ≠ "" := by
  cases value with
  | none => cases isGiven
  | some found =>
      by_cases empty : found = ""
      · simp [given, empty] at isGiven
      · simp only [given, if_neg empty, Option.some.injEq] at isGiven
        exact isGiven ▸ empty

theorem scope_eq (caller : Caller) (profileName : Option String) :
    scope caller profileName true = match chosen caller profileName with
      | none => caller.boundary
      | some name => narrowScope caller.registry name caller.boundary := by
  cases profileName with
  | none =>
      unfold scope chosen resolveProfile
      cases caller.pin with
      | none => rfl
      | some pin =>
          by_cases empty : pin = ""
          · simp [given, empty]
          · simp [given, empty]
  | some name =>
      unfold scope chosen
      by_cases empty : name = ""
      · simp [given, empty]
      · simp [given, empty]

theorem scope_full (caller : Caller) : scope caller none false = caller.boundary := rfl

theorem scope_within (caller : Caller) (profileName : Option String) :
    (scope caller profileName true).view.Within (scope caller none false).view := by
  rw [scope_full, scope_eq]
  cases chosen caller profileName with
  | none => exact View.within_refl _
  | some name => exact narrowScope_within _ _ _

theorem scope_outside (caller : Caller) (profileName : Option String) (name : String)
    (own : List String) (tenant : caller.boundary.own = some own)
    (isChosen : chosen caller profileName = some name) (notOwn : name ∉ own)
    (notShared : name ∉ caller.boundary.shared) :
    scope caller profileName true = { own := some [], shared := [] } := by
  rw [scope_eq, isChosen]
  simp [narrowScope, tenant, notOwn, notShared]

theorem narrowScope_own (registry : Registry) (profileName : String) (boundary : Scope) :
    ∃ own, (narrowScope registry profileName boundary).own = some own := by
  unfold narrowScope
  split
  · exact ⟨_, rfl⟩
  · simp only
    split
    · exact ⟨_, rfl⟩
    · exact ⟨_, rfl⟩

/-- `_get_allowed_profiles`: the sorted union. -/
def getAllowedProfiles (boundary : Scope) : Option (List String) :=
  boundary.own.map fun own => sortedSet (own ++ boundary.shared)

def effectiveAllowed (caller : Caller) (profileName : Option String) : Option (List String) :=
  let profileName := if profileName.isNone then resolveProfile caller else profileName
  match profileName with
  | none => getAllowedProfiles caller.boundary
  | some name =>
      if name = "" then getAllowedProfiles caller.boundary
      else
        let scope := scope caller (some name) true
        some ((scope.own.getD [] ++ sorted scope.shared).eraseDups)

/-- `profile_name = ANY(…)`, or no filter at all. -/
def visible (allowed : Option (List String)) (profileName : String) : Bool :=
  match allowed with
  | none => true
  | some names => names.contains profileName

def allowedView (allowed : Option (List String)) : View String :=
  allowed.map fun names => {profile | profile ∈ names}

theorem visible_iff (allowed : Option (List String)) (profileName : String) :
    visible allowed profileName = true ↔ (allowedView allowed).Grants [profileName] := by
  cases allowed with
  | none | some names => simp [visible, allowedView, View.Grants]

/-- The flat list and the array parameters are one view. -/
theorem effectiveAllowed_view (caller : Caller) (profileName : Option String) :
    allowedView (effectiveAllowed caller profileName) = (scope caller profileName true).view := by
  have full : allowedView (getAllowedProfiles caller.boundary) = caller.boundary.view := by
    unfold getAllowedProfiles allowedView Scope.view
    cases caller.boundary.own with
    | none => rfl
    | some own => simp
  have flat : ∀ name, name ≠ "" →
      allowedView (some (((scope caller (some name) true).own.getD [] ++
        sorted (scope caller (some name) true).shared).eraseDups)) =
        (narrowScope caller.registry name caller.boundary).view := by
    intro name nonempty
    have same : scope caller (some name) true =
        narrowScope caller.registry name caller.boundary := by
      simp [scope, nonempty]
    obtain ⟨own, isOwn⟩ := narrowScope_own caller.registry name caller.boundary
    rw [same]
    simp [allowedView, Scope.view, isOwn, List.mem_eraseDups]
  have effective : effectiveAllowed caller profileName = match chosen caller profileName with
      | none => getAllowedProfiles caller.boundary
      | some name => some (((scope caller (some name) true).own.getD [] ++
          sorted (scope caller (some name) true).shared).eraseDups) := by
    cases profileName with
    | none =>
        unfold effectiveAllowed chosen resolveProfile
        cases caller.pin with
        | none => rfl
        | some pin =>
            by_cases empty : pin = ""
            · simp [given, empty]
            · simp [given, empty]
    | some name =>
        unfold effectiveAllowed chosen
        by_cases empty : name = ""
        · simp [given, empty]
        · simp [given, empty]
  rw [effective, scope_eq]
  cases isChosen : chosen caller profileName with
  | none => exact full
  | some name =>
      exact flat name (given_nonempty _ name isChosen)

def allowedToGuc (allowed : Option (List String)) : String :=
  match allowed with
  | none => "*"
  | some names => join "," names

/-- `string_to_array(text, ',')`: the empty string is the empty array. -/
def stringToArray (text : String) : List String :=
  if text = "" then [] else (text.toList.splitOn ',').map String.ofList

/-- The policy `module_presence_tenant` under the setting. -/
def modulePresenceTenant (setting profileName : String) : Bool :=
  setting == "*" || (stringToArray setting).contains profileName

def globalProfile : String := "__global__"

/-- The policy `embeddings_tenant`: the catalogue rows are everyone's. -/
def embeddingsTenant (setting profileName : String) : Bool :=
  setting == "*" || profileName == globalProfile || (stringToArray setting).contains profileName

/-- `PROFILE_NAME_RE`. -/
def validName (name : String) : Bool :=
  decide (1 ≤ name.length ∧ name.length ≤ 50) &&
    name.toList.all fun char => char.isAlphanum || char == '_'

theorem validName_spec (name : String) (valid : validName name = true) :
    name ≠ "" ∧ ',' ∉ name.toList ∧ '*' ∉ name.toList := by
  simp only [validName, Bool.and_eq_true, decide_eq_true_eq, List.all_eq_true] at valid
  obtain ⟨⟨nonempty, -⟩, chars⟩ := valid
  refine ⟨?_, fun comma => ?_, fun star => ?_⟩
  · intro empty
    simp [empty] at nonempty
  · exact absurd (chars ',' comma) (by decide)
  · exact absurd (chars '*' star) (by decide)

theorem stringToArray_join (names : List String) (valid : ∀ name ∈ names, validName name = true) :
    stringToArray (join "," names) = names := by
  have joined : (join "," names).toList = [','].intercalate (names.map String.toList) :=
    join_toList ',' names
  by_cases none : names = []
  · subst none
    rfl
  · have commaFree : ∀ part ∈ names.map String.toList, ',' ∉ part := by
      intro part member
      obtain ⟨name, nameIn, rfl⟩ := List.mem_map.mp member
      exact (validName_spec name (valid name nameIn)).2.1
    have parts : (join "," names).toList.splitOn ',' = names.map String.toList := by
      rw [joined]
      exact List.splitOn_intercalate ',' commaFree (by simpa using none)
    have nonempty : join "," names ≠ "" := by
      intro empty
      rw [empty] at parts
      obtain ⟨name, rest, isCons⟩ := List.exists_cons_of_ne_nil none
      rw [isCons] at parts valid
      have first := (validName_spec name (valid name List.mem_cons_self)).1
      simp at parts
      exact first parts.1
    unfold stringToArray
    rw [if_neg nonempty, parts]
    simp [Function.comp_def]

theorem join_ne_star (names : List String) (valid : ∀ name ∈ names, validName name = true) :
    join "," names ≠ "*" := by
  intro star
  have parts := stringToArray_join names valid
  rw [star] at parts
  have listed : "*" ∈ names := by
    rw [← parts]
    decide
  exact (validName_spec "*" (valid "*" listed)).2.2 (by decide)

theorem policy_iff (allowed : Option (List String))
    (valid : ∀ names, allowed = some names → ∀ name ∈ names, validName name = true)
    (profileName : String) :
    modulePresenceTenant (allowedToGuc allowed) profileName = visible allowed profileName := by
  cases allowed with
  | none => simp [modulePresenceTenant, allowedToGuc, visible]
  | some names =>
      have each := valid names rfl
      have notStar := join_ne_star names each
      simp [modulePresenceTenant, allowedToGuc, visible, notStar, stringToArray_join names each]

structure NamesValid (caller : Caller) (profileName : Option String) : Prop where
  own : ∀ own, caller.boundary.own = some own → ∀ name ∈ own, validName name = true
  shared : ∀ name ∈ caller.boundary.shared, validName name = true
  registered : ∀ profile ∈ caller.registry.profiles, validName profile.name = true
  narrowing : ∀ name, chosen caller profileName = some name → caller.boundary.own = none →
    validName name = true

theorem narrowScope_valid (caller : Caller) (profileName : Option String) (name : String)
    (valid : NamesValid caller profileName) (isChosen : chosen caller profileName = some name) :
    ∀ members, (narrowScope caller.registry name caller.boundary).view = some members →
      ∀ member ∈ members, validName member = true := by
  intro members known member isMember
  cases isOwn : caller.boundary.own with
  | none =>
      simp only [narrowScope, isOwn, Scope.view, Option.map_some, Option.some.injEq] at known
      subst known
      rcases isMember with chained | shared
      · rcases resolveProfileChain_named _ _ _ chained with same | ⟨profile, registered, same⟩
        · rw [same]
          exact valid.narrowing name isChosen isOwn
        · rw [same]
          exact valid.registered profile registered
      · unfold adminNarrowingShared at shared
        split at shared
        · simp only [sharedProfileNames, mem_sorted, List.mem_map, List.mem_filter] at shared
          obtain ⟨profile, ⟨registered, -⟩, same⟩ := shared
          rw [← same]
          exact valid.registered profile registered
        · cases shared
  | some own =>
      have within := narrowScope_within caller.registry name caller.boundary
      obtain ⟨fewer, isNarrow, subset⟩ :=
        within {profile | profile ∈ own ∨ profile ∈ caller.boundary.shared} (by simp [Scope.view, isOwn])
      rw [known] at isNarrow
      cases isNarrow
      rcases subset isMember with owned | shared
      · exact valid.own own isOwn member owned
      · exact valid.shared member shared

theorem effectiveAllowed_valid (caller : Caller) (profileName : Option String)
    (valid : NamesValid caller profileName) (names : List String)
    (allowed : effectiveAllowed caller profileName = some names) :
    ∀ name ∈ names, validName name = true := by
  intro name member
  have view := effectiveAllowed_view caller profileName
  rw [allowed, scope_eq] at view
  cases isChosen : chosen caller profileName with
  | none =>
      rw [isChosen] at view
      obtain ⟨own, isOwn, same⟩ := Option.map_eq_some_iff.mp view.symm
      have listed : name ∈ ({profile | profile ∈ own ∨ profile ∈ caller.boundary.shared} : Set String) := by
        rw [same]
        exact member
      rcases listed with owned | shared
      · exact valid.own own isOwn name owned
      · exact valid.shared name shared
  | some narrowing =>
      rw [isChosen] at view
      exact narrowScope_valid caller profileName narrowing valid isChosen _ view.symm name member

/-- Narrowing only shrinks a boundary, a profile outside of it grants nothing, no scoped
caller is granted an array without profiles, and both row filters show a row exactly when
its profile alone is granted; the catalogue rows of the embeddings are everyone's. -/
theorem narrowing_in_lockstep (caller : Caller) (profileName : Option String) :
    (∀ profile, scopePred (scope caller profileName true) profile = true →
      scopePred (scope caller none false) profile = true) ∧
    (∀ own name, caller.boundary.own = some own → chosen caller profileName = some name →
      name ∉ own → name ∉ caller.boundary.shared →
        ∀ profile, scopePred (scope caller profileName true) profile = false) ∧
    (∀ own, (scope caller profileName true).own = some own →
      scopePred (scope caller profileName true) (some []) = false) ∧
    (∀ name, visible (effectiveAllowed caller profileName) name =
      scopePred (scope caller profileName true) (some [name])) ∧
    (NamesValid caller profileName → ∀ name,
      modulePresenceTenant (allowedToGuc (effectiveAllowed caller profileName)) name =
          scopePred (scope caller profileName true) (some [name]) ∧
        embeddingsTenant (allowedToGuc (effectiveAllowed caller profileName)) name =
          (name == globalProfile || scopePred (scope caller profileName true) (some [name]))) := by
  have rows : ∀ name, visible (effectiveAllowed caller profileName) name =
      scopePred (scope caller profileName true) (some [name]) := by
    intro name
    rw [Bool.eq_iff_iff, visible_iff, scopePred_iff, effectiveAllowed_view]
  refine ⟨?_, ?_, ?_, rows, ?_⟩
  · intro profile granted
    cases profile with
    | some profiles =>
        rw [scopePred_iff] at granted ⊢
        exact (scope_within caller profileName).grants granted
    | none =>
        cases isOwn : caller.boundary.own with
        | none => simp [scope_full, scopePred, isOwn]
        | some own =>
            obtain ⟨fewer, isNarrow, -⟩ := scope_within caller profileName
              {profile | profile ∈ own ∨ profile ∈ caller.boundary.shared}
              (by simp [scope_full, Scope.view, isOwn])
            obtain ⟨narrowed, isNarrowed, -⟩ := Option.map_eq_some_iff.mp isNarrow
            simp [scopePred, isNarrowed] at granted
  · intro own name tenant isChosen notOwn notShared profile
    rw [scope_outside caller profileName name own tenant isChosen notOwn notShared]
    cases profile with
    | none => rfl
    | some profiles =>
        cases profiles with
        | nil => rfl
        | cons first rest => simp [scopePred]
  · intro own isOwn
    simp [scopePred, isOwn]
  · intro valid name
    have policy := policy_iff (effectiveAllowed caller profileName)
      (effectiveAllowed_valid caller profileName valid) name
    rw [← rows name, ← policy]
    refine ⟨rfl, ?_⟩
    unfold embeddingsTenant modulePresenceTenant
    cases name == globalProfile with
    | true | false => simp

/-- `shop` over the shared `odoo_17`, below a private profile of another tenant. -/
def shopCaller : Caller :=
  { boundary := ⟨some ["shop", "shop_lab"], ["odoo_17"]⟩
    registry :=
      { profiles := [⟨1, "odoo_17", none, none⟩, ⟨2, "field", some 9, some 1⟩,
          ⟨3, "shop", some 4, some 2⟩, ⟨4, "shop_lab", some 4, some 3⟩]
        chainReachable := true, sharedReachable := true }
    pin := some "shop_lab" }

/-- The pin of a caller keeps `shop` and the shared base in view, and the array of a node
that `field` writes too out of it. -/
theorem shop_lab_in_lockstep :
    (∀ name, modulePresenceTenant (allowedToGuc (effectiveAllowed shopCaller none)) name =
      scopePred (scope shopCaller none true) (some [name])) ∧
      allowedToGuc (effectiveAllowed shopCaller none) = "shop_lab,shop,odoo_17" ∧
      scopePred (scope shopCaller none true) (some ["shop", "odoo_17"]) = true ∧
      scopePred (scope shopCaller none true) (some ["shop", "field"]) = false := by
  have valid : NamesValid shopCaller none :=
    { own := by
        intro own isOwn
        cases isOwn
        decide
      shared := by decide
      registered := by decide
      narrowing := by
        intro name _ admin
        cases admin }
  refine ⟨fun name => ((narrowing_in_lockstep shopCaller none).2.2.2.2 valid name).1, ?_⟩
  decide +kernel

end OdooSemantic.Mcp.Boundary
