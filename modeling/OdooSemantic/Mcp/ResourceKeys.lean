import OdooSemantic.Lib.Separators

/-!
# Keys of the resource cache

One string joins the resolved version, the kind, the entity, the tenant, the session
pin and the scope epoch.  Versions without a slash and pins without a double colon
can be read back from it, whatever the entity is.
-/

set_option autoImplicit false

namespace OdooSemantic.Mcp.ResourceKeys

open Lib.Separators

inductive Kind where
  | model | field | method | module | view | pattern | stylesheet | test | testcoverage
  deriving DecidableEq

def Kind.name : Kind → String
  | .model => "model"
  | .field => "field"
  | .method => "method"
  | .module => "module"
  | .view => "view"
  | .pattern => "pattern"
  | .stylesheet => "stylesheet"
  | .test => "test"
  | .testcoverage => "testcoverage"

/-- `tenant_keyed`: every handler's but the one of `pattern`, which is global spec data. -/
def Kind.tenantKeyed : Kind → Bool
  | .pattern => false
  | _ => true

/-- `scope_fingerprint`: an md5 in hex, or empty while the registry has not been read. -/
structure Epoch where
  text : String
  hex : text = "" ∨ text.toList.length = 32 ∧ ':' ∉ text.toList

/-- The arguments of `_serve_resource_blocking` and what the session and the registry answer. -/
structure Request where
  version : String
  kind : Kind
  entity : String
  activeVersion : Option String
  tenantId : Option Nat
  profileName : Option String
  epoch : Epoch

/-! ## Keys -/

def isSpace (symbol : Char) : Bool :=
  [9, 10, 11, 12, 13, 28, 29, 30, 31, 32, 133, 160, 5760, 8192, 8193, 8194, 8195, 8196, 8197, 8198,
    8199, 8200, 8201, 8202, 8232, 8233, 8239, 8287, 12288].contains symbol.toNat

def strip (text : String) : String :=
  String.ofList ((text.toList.dropWhile isSpace).reverse.dropWhile isSpace).reverse

/-- `str.lower` on ASCII letters; no other character lowers to a text of them only, but the
Kelvin sign, and no sentinel has a `k`. -/
def lower (text : String) : String := String.ofList (text.toList.map Char.toLower)

def sentinels : List String := ["auto", "default", "latest", "version", "any", ""]

def normalizeVersionArg (version : String) : Option String :=
  if sentinels.contains (lower (strip version)) then none else some version

/-- `_resolved_version_for`; none is the `ValueError` of `resolve_version_v2`. -/
def Request.resolvedVersionFor (request : Request) : Option String :=
  match normalizeVersionArg request.version with
  | some normalized => some normalized
  | none => request.activeVersion

/-- `_resolve_profile(None)`: the session pin. -/
def Request.pinned (request : Request) : Option String := request.profileName.filter (· != "")

def Request.tenantSuffix (request : Request) : String :=
  match request.tenantId with
  | none => "::t_admin"
  | some tenantId => "::t" ++ tenantId.repr

def Request.pinSuffix (request : Request) : String :=
  match request.pinned with
  | none => ""
  | some pinned => "::p" ++ pinned

/-- `epoch[:12]`. -/
def Epoch.short (epoch : Epoch) : String := String.ofList (epoch.text.toList.take 12)

def Request.epochSuffix (request : Request) : String :=
  if request.epoch.text = "" then "" else "::e" ++ request.epoch.short

def Request.tenantCacheKey (request : Request) (resolvedVersion : String) : String :=
  "odoo://" ++ resolvedVersion ++ "/" ++ request.kind.name ++ "/" ++ request.entity ++
    request.tenantSuffix ++ request.pinSuffix ++ request.epochSuffix

/-- The key of `_serve_resource_blocking`. -/
def Request.cacheKey (request : Request) : Option String :=
  request.resolvedVersionFor.map fun resolved =>
    if request.kind.tenantKeyed then request.tenantCacheKey resolved
    else "odoo://" ++ resolved ++ "/" ++ request.kind.name ++ "/" ++ request.entity

/-- No resolved version has a slash and no pin a double colon; profile names of the registry
have neither. -/
structure Request.Plain (request : Request) : Prop where
  version : ∀ resolved, request.resolvedVersionFor = some resolved → '/' ∉ resolved.toList
  pin : ∀ pinned, request.pinned = some pinned → ¬ [':', ':'] <:+: pinned.toList

def SameScope (first second : Request) : Prop :=
  first.kind = second.kind ∧ first.resolvedVersionFor = second.resolvedVersionFor ∧
    first.entity = second.entity ∧
    (first.kind ≠ .pattern → first.tenantId = second.tenantId ∧ first.pinned = second.pinned ∧
      first.epoch.short = second.epoch.short)

section Suffixes
variable (request : Request)

def Request.tenantText : List Char :=
  match request.tenantId with
  | none => "_admin".toList
  | some tenantId => Nat.toDigits 10 tenantId

def Request.pinText : List Char := request.pinSuffix.toList

def Request.epochText : List Char := request.epochSuffix.toList

def Request.suffix : List Char :=
  [':', ':', 't'] ++ (request.tenantText ++ (request.pinText ++ request.epochText))

theorem digit_ne_colon {tenantId : Nat} : ':' ∉ Nat.toDigits 10 tenantId := by
  intro member
  have digit := Nat.isDigit_of_mem_toDigits (by decide) (by decide) member
  revert digit
  decide

theorem colon_not_mem_tenantText : ':' ∉ request.tenantText := by
  unfold Request.tenantText
  split
  · decide
  · exact digit_ne_colon

theorem tenantText_inj {first second : Request} (same : first.tenantText = second.tenantText) :
    first.tenantId = second.tenantId := by
  have digits : ∀ tenantId : Nat, "_admin".toList ≠ Nat.toDigits 10 tenantId := by
    intro tenantId same
    have member : '_' ∈ Nat.toDigits 10 tenantId := by
      rw [← same]
      decide
    exact Nat.underscore_not_in_toDigits member
  cases isFirst : first.tenantId with
  | none =>
      cases isSecond : second.tenantId with
      | none => rfl
      | some other =>
          simp only [Request.tenantText, isFirst, isSecond] at same
          exact absurd same (digits other)
  | some tenantId =>
      cases isSecond : second.tenantId with
      | none =>
          simp only [Request.tenantText, isFirst, isSecond] at same
          exact absurd same.symm (digits tenantId)
      | some other =>
          simp only [Request.tenantText, isFirst, isSecond] at same
          have read := congrArg (Nat.ofDigitChars 10 · 0) same
          simp at read
          rw [read]

/-- No epoch, or twelve digits of it behind the mark. -/
theorem epochText_cases : request.epochText = [] ∧ request.epoch.short = "" ∨
    request.epochText = ':' :: ':' :: 'e' :: request.epoch.short.toList ∧
      request.epoch.short.toList.length = 12 ∧ ':' ∉ request.epoch.short.toList := by
  have short : request.epoch.short.toList = request.epoch.text.toList.take 12 :=
    String.toList_ofList
  rcases request.epoch.hex with empty | ⟨long, clean⟩
  · refine Or.inl ⟨by simp [Request.epochText, Request.epochSuffix, empty], ?_⟩
    simp [Epoch.short, empty]
  · have some : request.epoch.text ≠ "" := by
      intro empty
      rw [empty] at long
      cases long
    refine Or.inr ⟨?_, ?_, ?_⟩
    · simp [Request.epochText, Request.epochSuffix, some]
    · rw [short, List.length_take, long]
      rfl
    · rw [short]
      exact fun member => clean (List.mem_of_mem_take member)

theorem pinText_cases : request.pinText = [] ∧ request.pinned = none ∨
    ∃ pinned, request.pinned = some pinned ∧ request.pinText = ':' :: ':' :: 'p' :: pinned.toList := by
  unfold Request.pinText Request.pinSuffix
  cases request.pinned with
  | none => exact Or.inl ⟨rfl, rfl⟩
  | some pinned => exact Or.inr ⟨pinned, rfl, by simp⟩

def mark : List Char := [':', ':', 't']

theorem mark_in_pin {pinned rest : List Char} (plain : ¬ [':', ':'] <:+: pinned)
    (follows : ¬ [':', 't'] <+: rest) (found : mark <:+: pinned ++ rest) : mark <:+: rest := by
  induction pinned with
  | nil => exact found
  | cons first tail ih =>
      rw [List.cons_append, List.infix_cons_iff] at found
      rcases found with starts | later
      · obtain ⟨rfl, next⟩ := List.cons_prefix_cons.mp starts
        cases tail with
        | nil => exact absurd next follows
        | cons second tail =>
            obtain ⟨rfl, -⟩ := List.cons_prefix_cons.mp next
            refine absurd ?_ plain
            exact (List.prefix_append [':', ':'] tail).isInfix
      · exact ih (fun inside => plain (inside.trans (List.suffix_cons first tail).isInfix)) later

theorem mark_not_in_epochText : ¬ mark <:+: request.epochText := by
  intro found
  rcases epochText_cases request with ⟨empty, -⟩ | ⟨isText, -, clean⟩
  · rw [empty] at found
    exact absurd (List.infix_nil.mp found) (by decide)
  · rw [isText] at found
    have tail : mark <:+: 'e' :: request.epoch.short.toList := by
      rcases List.infix_cons_iff.mp found with starts | found
      · exact absurd (List.cons_prefix_cons.mp (List.cons_prefix_cons.mp starts).2).2 (by simp)
      · rcases List.infix_cons_iff.mp found with starts | found
        · exact absurd (List.cons_prefix_cons.mp starts).2 (by simp)
        · exact found
    have nothing : mark <:+: [] := by
      refine @infix_skip _ ':' _ ('e' :: request.epoch.short.toList) [] ?_ ?_
      · rw [List.mem_cons, not_or]
        exact ⟨by decide, clean⟩
      · rw [List.append_nil]
        exact tail
    exact absurd (List.infix_nil.mp nothing) (by decide)

theorem epochText_start : ¬ [':', 't'] <+: request.epochText := by
  rcases epochText_cases request with ⟨empty, -⟩ | ⟨isText, -, -⟩
  · rw [empty]
    decide
  · rw [isText]
    simp

theorem mark_not_in_pinText (plain : request.Plain) :
    ¬ mark <:+: request.pinText ++ request.epochText := by
  intro found
  rcases pinText_cases request with ⟨empty, -⟩ | ⟨pinned, isPinned, isText⟩
  · rw [empty, List.nil_append] at found
    exact mark_not_in_epochText request found
  · rw [isText] at found
    have tail : mark <:+: ['p'] ++ (pinned.toList ++ request.epochText) := by
      rcases List.infix_cons_iff.mp found with starts | found
      · exact absurd (List.cons_prefix_cons.mp (List.cons_prefix_cons.mp starts).2).2 (by simp)
      · rcases List.infix_cons_iff.mp found with starts | found
        · exact absurd (List.cons_prefix_cons.mp starts).2 (by simp)
        · exact found
    have inPin := @infix_skip _ ':' [':', 't'] ['p'] _ (by decide) tail
    exact mark_not_in_epochText request
      (mark_in_pin (plain.pin pinned isPinned) (epochText_start request) inPin)

theorem suffix_marked (plain : request.Plain) : Marked mark request.suffix := by
  refine ⟨List.prefix_append _ _, fun found => ?_⟩
  have tail : mark <:+: 't' :: request.tenantText ++ (request.pinText ++ request.epochText) := by
    rcases List.infix_cons_iff.mp found with starts | found
    · exact absurd (List.cons_prefix_cons.mp starts).2 (by simp)
    · exact found
  have clean : ':' ∉ 't' :: request.tenantText := by
    rw [List.mem_cons, not_or]
    exact ⟨by decide, colon_not_mem_tenantText request⟩
  exact mark_not_in_pinText request plain (infix_skip clean tail)

theorem pinText_delimited : Delimited ':' (request.pinText ++ request.epochText) := by
  rcases pinText_cases request with ⟨empty, -⟩ | ⟨pinned, -, isText⟩
  · rw [empty, List.nil_append]
    rcases epochText_cases request with ⟨nothing, -⟩ | ⟨isText, -, -⟩
    · exact Or.inl nothing
    · exact Or.inr ⟨_, isText⟩
  · rw [isText]
    exact Or.inr ⟨_, rfl⟩

end Suffixes

section Reading
variable {first second : Request}

theorem not_pin_epoch {pinned other short : List Char} (plain : ¬ [':', ':'] <:+: pinned) :
    pinned ≠ other ++ ':' :: ':' :: 'e' :: short := by
  rintro rfl
  exact plain ⟨other, 'e' :: short, by simp⟩

theorem epochText_inj (same : first.epochText = second.epochText) :
    first.epoch.short = second.epoch.short := by
  rcases epochText_cases first with ⟨empty, short⟩ | ⟨isText, -, -⟩
  · rcases epochText_cases second with ⟨-, short'⟩ | ⟨isText', -, -⟩
    · rw [short, short']
    · rw [empty, isText'] at same
      cases same
  · rcases epochText_cases second with ⟨empty', -⟩ | ⟨isText', -, -⟩
    · rw [isText, empty'] at same
      cases same
    · rw [isText, isText'] at same
      simp only [List.cons.injEq, true_and] at same
      exact String.toList_inj.mp same

theorem pinned_inj {pinned pinned' : String} (plain : ¬ [':', ':'] <:+: pinned.toList)
    (plain' : ¬ [':', ':'] <:+: pinned'.toList)
    (same : pinned.toList ++ first.epochText = pinned'.toList ++ second.epochText) :
    pinned = pinned' ∧ first.epochText = second.epochText := by
  rcases epochText_cases first with ⟨empty, -⟩ | ⟨isText, long, -⟩
  · rcases epochText_cases second with ⟨empty', -⟩ | ⟨isText', -, -⟩
    · rw [empty, empty', List.append_nil, List.append_nil] at same
      exact ⟨String.toList_inj.mp same, empty.trans empty'.symm⟩
    · rw [empty, isText', List.append_nil] at same
      exact absurd same (not_pin_epoch plain)
  · rcases epochText_cases second with ⟨empty', -⟩ | ⟨isText', long', -⟩
    · rw [isText, empty', List.append_nil] at same
      exact absurd same.symm (not_pin_epoch plain')
    · have lengths : first.epochText.length = second.epochText.length := by
        rw [isText, isText']
        simp only [List.length_cons]
        omega
      obtain ⟨samePin, sameEpoch⟩ := List.append_inj' same lengths
      exact ⟨String.toList_inj.mp samePin, sameEpoch⟩

theorem pinText_inj (plain : first.Plain) (plain' : second.Plain)
    (same : first.pinText ++ first.epochText = second.pinText ++ second.epochText) :
    first.pinned = second.pinned ∧ first.epoch.short = second.epoch.short := by
  rcases pinText_cases first with ⟨empty, unpinned⟩ | ⟨pinned, isPinned, isText⟩
  · rcases pinText_cases second with ⟨empty', unpinned'⟩ | ⟨pinned', isPinned', isText'⟩
    · rw [empty, empty', List.nil_append, List.nil_append] at same
      exact ⟨unpinned.trans unpinned'.symm, epochText_inj same⟩
    · rw [empty, isText', List.nil_append] at same
      rcases epochText_cases first with ⟨nothing, -⟩ | ⟨isEpoch, -, -⟩
      · rw [nothing] at same
        cases same
      · rw [isEpoch] at same
        simp at same
  · rcases pinText_cases second with ⟨empty', unpinned'⟩ | ⟨pinned', isPinned', isText'⟩
    · rw [empty', isText, List.nil_append] at same
      rcases epochText_cases second with ⟨nothing, -⟩ | ⟨isEpoch, -, -⟩
      · rw [nothing] at same
        cases same
      · rw [isEpoch] at same
        simp at same
    · rw [isText, isText'] at same
      simp only [List.cons_append, List.cons.injEq, true_and] at same
      obtain ⟨samePin, sameEpoch⟩ :=
        pinned_inj (plain.pin pinned isPinned) (plain'.pin pinned' isPinned') same
      exact ⟨by rw [isPinned, isPinned', samePin], epochText_inj sameEpoch⟩

theorem suffix_inj (plain : first.Plain) (plain' : second.Plain)
    (same : first.suffix = second.suffix) :
    first.tenantId = second.tenantId ∧ first.pinned = second.pinned ∧
      first.epoch.short = second.epoch.short := by
  obtain ⟨sameTenant, sameRest⟩ := append_delimited_inj (colon_not_mem_tenantText first)
    (colon_not_mem_tenantText second) (pinText_delimited first) (pinText_delimited second)
    (List.append_cancel_left same)
  exact ⟨tenantText_inj sameTenant, pinText_inj plain plain' sameRest⟩

theorem kind_name_clean (kind : Kind) : '/' ∉ kind.name.toList := by
  cases kind <;> decide

theorem kind_name_inj {kind kind' : Kind} (same : kind.name.toList = kind'.name.toList) :
    kind = kind' := by
  revert same
  cases kind <;> cases kind' <;> decide

def Request.keyText (request : Request) (resolved : String) : List Char :=
  resolved.toList ++ '/' :: (request.kind.name.toList ++ '/' :: (request.entity.toList ++
    if request.kind.tenantKeyed then request.suffix else []))

theorem suffix_toList (request : Request) : request.tenantSuffix.toList ++
    (request.pinText ++ request.epochText) = request.suffix := by
  have tenant : request.tenantSuffix.toList = [':', ':', 't'] ++ request.tenantText := by
    unfold Request.tenantSuffix Request.tenantText
    cases request.tenantId with
    | none => decide
    | some tenantId => simp
  rw [tenant, Request.suffix, List.append_assoc]

theorem cacheKey_toList (request : Request) {resolved : String}
    (isResolved : request.resolvedVersionFor = some resolved) :
    ∃ key, request.cacheKey = some key ∧
      key.toList = "odoo://".toList ++ request.keyText resolved := by
  refine ⟨_, by rw [Request.cacheKey, isResolved]; rfl, ?_⟩
  cases keyed : request.kind.tenantKeyed with
  | true =>
      simp [Request.tenantCacheKey, Request.keyText, keyed, ← suffix_toList, Request.pinText,
        Request.epochText]
  | false => simp [Request.keyText, keyed]

theorem keyText_inj {resolved resolved' : String} (plain : first.Plain) (plain' : second.Plain)
    (isResolved : first.resolvedVersionFor = some resolved)
    (isResolved' : second.resolvedVersionFor = some resolved')
    (same : first.keyText resolved = second.keyText resolved') : SameScope first second := by
  obtain ⟨sameVersion, same⟩ := append_sep_inj (plain.version resolved isResolved)
    (plain'.version resolved' isResolved') same
  obtain ⟨sameName, same⟩ := append_sep_inj (kind_name_clean first.kind)
    (kind_name_clean second.kind) same
  have sameKind := kind_name_inj sameName
  have sameResolved : first.resolvedVersionFor = second.resolvedVersionFor := by
    rw [isResolved, isResolved', String.toList_inj.mp sameVersion]
  rw [← sameKind] at same
  by_cases isPattern : first.kind = .pattern
  · rw [isPattern] at same
    simp only [Kind.tenantKeyed, Bool.false_eq_true, if_false, List.append_nil] at same
    exact ⟨sameKind, sameResolved, String.toList_inj.mp same, fun other => absurd isPattern other⟩
  · have keyed : first.kind.tenantKeyed = true := by
      revert isPattern
      cases first.kind <;> decide
    rw [if_pos keyed, if_pos keyed] at same
    obtain ⟨sameEntity, sameSuffix⟩ :=
      append_marked_inj (suffix_marked first plain) (suffix_marked second plain') same
    exact ⟨sameKind, sameResolved, String.toList_inj.mp sameEntity,
      fun _ => suffix_inj plain plain' sameSuffix⟩

theorem epochText_congr (same : first.epoch.short = second.epoch.short) :
    first.epochText = second.epochText := by
  rcases epochText_cases first with ⟨empty, short⟩ | ⟨isText, long, -⟩
  · rcases epochText_cases second with ⟨empty', -⟩ | ⟨-, long', -⟩
    · rw [empty, empty']
    · rw [← same, short] at long'
      cases long'
  · rcases epochText_cases second with ⟨-, short'⟩ | ⟨isText', -, -⟩
    · rw [same, short'] at long
      cases long
    · rw [isText, isText', same]

theorem suffix_congr (tenant : first.tenantId = second.tenantId)
    (pin : first.pinned = second.pinned) (short : first.epoch.short = second.epoch.short) :
    first.suffix = second.suffix := by
  have sameTenant : first.tenantText = second.tenantText := by
    rw [Request.tenantText, Request.tenantText, tenant]
  have samePin : first.pinText = second.pinText := by
    rw [Request.pinText, Request.pinText, Request.pinSuffix, Request.pinSuffix, pin]
  rw [Request.suffix, Request.suffix, sameTenant, samePin, epochText_congr short]

theorem keyText_congr {resolved : String} (same : SameScope first second) :
    first.keyText resolved = second.keyText resolved := by
  obtain ⟨sameKind, -, sameEntity, sameCaller⟩ := same
  rw [Request.keyText, Request.keyText, ← sameKind, ← sameEntity]
  by_cases isPattern : first.kind = .pattern
  · rw [isPattern]
    rfl
  · obtain ⟨tenant, pin, short⟩ := sameCaller isPattern
    rw [suffix_congr tenant pin short]

/-- Two plain requests share a cache slot exactly when they read the same resource under the same
scope; the body of a pattern has no scope. -/
theorem cache_slot_iff (first second : Request) (plain : first.Plain) (plain' : second.Plain)
    (key : String) (isKey : first.cacheKey = some key) :
    second.cacheKey = some key ↔ SameScope first second := by
  obtain ⟨resolved, isResolved, -⟩ := Option.map_eq_some_iff.mp isKey
  obtain ⟨found, isFound, keyText⟩ := cacheKey_toList first isResolved
  rw [isKey, Option.some.injEq] at isFound
  subst isFound
  constructor
  · intro sameKey
    obtain ⟨resolved', isResolved', -⟩ := Option.map_eq_some_iff.mp sameKey
    obtain ⟨found', isFound', keyText'⟩ := cacheKey_toList second isResolved'
    rw [sameKey, Option.some.injEq] at isFound'
    subst isFound'
    exact keyText_inj plain plain' isResolved isResolved'
      (List.append_cancel_left (keyText.symm.trans keyText'))
  · intro same
    have isResolved' := same.2.1.symm.trans isResolved
    obtain ⟨other, isOther, keyText'⟩ := cacheKey_toList second isResolved'
    rw [isOther, Option.some.injEq]
    apply String.toList_inj.mp
    rw [keyText', keyText, keyText_congr same]

end Reading

def readBy (kind : Kind) (entity : String) (tenantId : Option Nat) (profileName : Option String) :
    Request :=
  { version := "17.0", kind, entity, activeVersion := none, tenantId, profileName
    epoch := ⟨"", Or.inl rfl⟩ }

theorem resolved_of_normalized (request : Request) {version : String}
    (normalized : normalizeVersionArg request.version = some version) :
    request.resolvedVersionFor = some version := by
  rw [Request.resolvedVersionFor, normalized]

theorem readBy_plain (kind : Kind) (entity : String) (tenantId : Option Nat) :
    (readBy kind entity tenantId (some "odoo_17")).Plain := by
  have normalized : normalizeVersionArg "17.0" = some "17.0" := by decide +kernel
  have isVersion := resolved_of_normalized (readBy kind entity tenantId (some "odoo_17")) normalized
  have isName : (some "odoo_17").filter (· != "") = some "odoo_17" := by decide
  have clean : '/' ∉ "17.0".toList := by decide
  have plain : ¬ [':', ':'] <:+: "odoo_17".toList := by decide +kernel
  refine ⟨fun resolved isResolved => ?_, fun pinned isPinned => ?_⟩
  · have same := Option.some.inj (isVersion.symm.trans isResolved)
    exact same ▸ clean
  · have same := Option.some.inj (isName.symm.trans isPinned)
    exact same ▸ plain

/-- Pattern bodies are shared: two tenants read one slot. -/
theorem pattern_slot_shared :
    (readBy .pattern "computed_field" (some 1) none).cacheKey =
        some "odoo://17.0/pattern/computed_field" ∧
      (readBy .pattern "computed_field" (some 2) none).cacheKey =
        some "odoo://17.0/pattern/computed_field" ∧
      (readBy .pattern "computed_field" (some 1) none).tenantId ≠
        (readBy .pattern "computed_field" (some 2) none).tenantId := by
  decide +kernel

/-- A version with slashes is not plain: this pattern key is a stylesheet slot of tenant 5. -/
example : (readBy .stylesheet "web/static/src/pattern/foo.scss" (some 5) none).cacheKey =
    Request.cacheKey { readBy .pattern "foo.scss::t5" (some 6) none with
      version := "17.0/stylesheet/web/static/src" } := by
  decide +kernel

/-- An entity that spells out the suffix of another tenant does not reach its slot. -/
theorem model_slot_apart :
    (readBy .model "sale.order::t1::podoo_17" (some 2) (some "odoo_17")).cacheKey ≠
      some "odoo://17.0/model/sale.order::t1::podoo_17" := by
  have isKey : (readBy .model "sale.order" (some 1) (some "odoo_17")).cacheKey =
      some "odoo://17.0/model/sale.order::t1::podoo_17" := by decide +kernel
  intro same
  have scope := (cache_slot_iff _ _ (readBy_plain .model "sale.order" (some 1))
    (readBy_plain .model "sale.order::t1::podoo_17" (some 2)) _ isKey).mp same
  exact absurd scope.2.2.1 (by decide)

end OdooSemantic.Mcp.ResourceKeys
