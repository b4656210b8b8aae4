import Mathlib.Data.Prod.Lex
import Mathlib.Data.String.Basic
import OdooSemantic.Lib.Decimal
import OdooSemantic.Lib.OrderedDict
import OdooSemantic.Lib.Py

/-!
# Renames and merges across versions

The table lists what was renamed or merged into what at the branch of a version.  A chain
follows it from a name that is missing at the asked version, hop by hop, and each hop has to
be borne out by the versions at which its two names are indexed.
-/

set_option autoImplicit false

namespace OdooSemantic.Indexer.Renames

open Lib.Decimal
open Lib.OrderedDict
open Lib.Py

/-- Major and minor, compared in this order. -/
abbrev VersionKey := Lex (Nat × Nat)

section Versions
variable (decimals : Decimals)

def versionKey (version : String) : Option VersionKey :=
  match version.toList.dropWhile (· ≠ '.') with
  | [] => none
  | _ :: minor => do
      let major ← decimals.number (version.toList.takeWhile (· ≠ '.'))
      let minor ← decimals.number minor
      some (toLex (major, minor))

def previousVersion (version : String) : Option String :=
  match versionKey decimals version with
  | none => none
  | some key =>
      if (ofLex key).1 ≤ 0 then none else some (toString ((ofLex key).1 - 1) ++ ".0")

def branchMajor (branch : String) : Option Nat :=
  if branch.toList.dropWhile (· ≠ '.') = ['.', '0'] then
    decimals.number (branch.toList.takeWhile (· ≠ '.'))
  else none

end Versions

inductive Kind where
  | rename
  | merge
  deriving DecidableEq

/-- `KIND_RENAME` and `KIND_MERGE`. -/
def Kind.text : Kind → String
  | .rename => "rename"
  | .merge => "merge"

structure Edge where
  old : String
  new : String
  version : String
  kind : Kind

structure Block where
  renamedModules : List (String × String)
  mergedModules : List (String × String)

/-- The blocks of `branches` in `module_renames.json`. -/
abbrev RenameData := List (String × Block)

section Chains
variable (decimals : Decimals)

def blockEdges (branch : String) (block : Block) : List Edge :=
  block.renamedModules.map (fun item => ⟨item.1, item.2, branch, .rename⟩) ++
    block.mergedModules.map fun item => ⟨item.1, item.2, branch, .merge⟩

def edgeKey (edge : Edge) : VersionKey ×ₗ String ×ₗ String ×ₗ String :=
  toLex ((versionKey decimals edge.version).getD (toLex (0, 0)),
    toLex (edge.old, toLex (edge.kind.text, edge.new)))

def edgesFromData (data : RenameData) : List Edge :=
  sortedBy (edgeKey decimals) (data.flatMap fun item =>
    if (branchMajor decimals item.1).isNone then [] else blockEdges item.1 item.2)

def edgesFrom (index : List Edge) (name : String) : List Edge :=
  index.filter fun edge => edge.old = name

/-- The versions at which a name is indexed. -/
abbrev Presence := String → List String

/-- A comparison with a key that is missing would raise; the callers have asked for both. -/
def absentFrom (versions : List String) (start finish : String) : Bool :=
  match versionKey decimals start, versionKey decimals finish with
  | some low, some high =>
      versions.all fun version =>
        match versionKey decimals version with
        | none => true
        | some key => ¬ (low ≤ key ∧ key ≤ high)
  | _, _ => false

def hopIsValid (edge : Edge) (asked : String) (presence : Presence) : Bool :=
  match previousVersion decimals edge.version with
  | none => false
  | some prev =>
      (presence edge.old).contains prev &&
        absentFrom decimals (presence edge.old) edge.version asked &&
        (presence edge.new).contains edge.version

structure Chain where
  name : String
  version : String
  hops : List Edge
  resolved : Bool

/-- `pres`: the names looked up so far. -/
abbrev Looked := String → Option (List String)

def Looked.presence (looked : Looked) : Presence := fun name => (looked name).getD []

structure Trail where
  looked : Looked
  hops : List Edge
  current : String
  after : Option String
  seen : List String

def candidates (index : List Edge) (target : VersionKey) (trail : Trail) : List Edge :=
  (edgesFrom index trail.current).filter fun edge =>
    match versionKey decimals edge.version with
    | none => false
    | some key =>
        decide (key ≤ target) &&
          match trail.after.bind (versionKey decimals) with
          | none => true
          | some low => decide (low < key)

def presenceRows (indexed : Presence) (names : List String) : List (String × List String) :=
  (names.filter fun name => (indexed name).isEmpty = false).map fun name => (name, indexed name)

/-- `pres.setdefault(name, set()).update(versions)`. -/
def learn (looked : Looked) (row : String × List String) : Looked :=
  Function.update looked row.1 (some ((looked row.1).getD [] ++ row.2))

def lookUp (indexed : Presence) (looked : Looked) (names : List String) : Looked :=
  let missing := sortedSet (names.filter fun name => (looked name).isNone)
  (missing.map fun name => (name, [])).foldl learn
    ((presenceRows indexed missing).foldl learn looked)

/-- The latest version first, a rename before a merge, then by name. -/
def hopKey (edge : Edge) : VersionKeyᵒᵈ ×ₗ Bool ×ₗ String :=
  toLex (OrderDual.toDual ((versionKey decimals edge.version).getD (toLex (0, 0))),
    toLex (decide (edge.kind ≠ .rename), edge.new))

def chainFrom (index : List Edge) (indexed : Presence) (version : String) (target : VersionKey) :
    Nat → Trail → List Edge × Bool
  | 0, trail => (trail.hops, false)
  | left + 1, trail =>
      let candidates := candidates decimals index target trail
      if candidates.isEmpty then (trail.hops, false)
      else
        let looked := lookUp indexed trail.looked (trail.current :: candidates.map Edge.new)
        let valid := candidates.filter fun edge =>
          hopIsValid decimals edge version looked.presence
        match sortedBy (hopKey decimals) valid with
        | [] => (trail.hops, false)
        | hop :: _ =>
            let hops := trail.hops ++ [hop]
            if (looked.presence hop.new).contains version then (hops, true)
            else if hop.new ∈ trail.seen then (hops, false)
            else
              chainFrom index indexed version target left
                ⟨looked, hops, hop.new, some hop.version, hop.new :: trail.seen⟩

def maxHops : Nat := 16

def resolveChain (name version : String) (index : List Edge) (indexed : Presence)
    (known : List (String × List String)) : Option Chain :=
  match versionKey decimals version with
  | none => none
  | some target =>
      let found := chainFrom decimals index indexed version target maxHops
        ⟨fun name => known.lookup name, [], name, none, [name]⟩
      if found.1.isEmpty then none else some ⟨name, version, found.1, found.2⟩

theorem learn_all (rows : List (String × List String)) : ∀ (looked : Looked) (name : String),
    KeysDistinct rows → rows.foldl learn looked name =
      match rows.lookup name with
      | none => looked name
      | some versions => some ((looked name).getD [] ++ versions) := by
  induction rows with
  | nil =>
      intro looked name distinct
      rfl
  | cons row rest ih =>
      intro looked name distinct
      obtain ⟨fresh, distinctRest⟩ := List.nodup_cons.mp distinct
      rw [List.foldl_cons, ih _ _ distinctRest, lookup_cons_if]
      by_cases same : name = row.1
      · have absent : rest.lookup name = none := by
          refine List.lookup_eq_none_iff.mpr fun other otherIn => ?_
          rw [bne_iff_ne, same]
          intro again
          exact fresh (again ▸ List.mem_map_of_mem (f := Prod.fst) otherIn)
        rw [absent, if_pos same, same, learn]
        exact Function.update_self ..
      · rw [if_neg same, learn, Function.update_of_ne same]

theorem lookUp_eq (indexed : Presence) (looked : Looked) (names : List String) (name : String) :
    lookUp indexed looked names name =
      if name ∈ names ∧ looked name = none then some (indexed name) else looked name := by
  have missing : ∀ one, one ∈ sortedSet (names.filter fun name => (looked name).isNone) ↔
      one ∈ names ∧ looked one = none := by
    intro one
    rw [mem_sortedSet, List.mem_filter, Option.isNone_iff_eq_none]
  have distinct := sortedSet_nodup (names.filter fun name => (looked name).isNone)
  rw [lookUp]
  generalize sortedSet (names.filter fun name => (looked name).isNone) = asked at missing distinct
  have rowsDistinct : KeysDistinct (presenceRows indexed asked) := by
    rw [KeysDistinct, presenceRows, List.map_map]
    exact (List.map_id _).symm ▸ distinct.filter _
  have blankDistinct : KeysDistinct (asked.map fun name => (name, ([] : List String))) := by
    rw [KeysDistinct, List.map_map]
    exact (List.map_id _).symm ▸ distinct
  rw [learn_all _ _ _ blankDistinct, learn_all _ _ _ rowsDistinct]
  by_cases isMissing : name ∈ asked
  · have blank : (asked.map fun name => (name, ([] : List String))).lookup name = some [] :=
      lookup_of_mem blankDistinct (List.mem_map.mpr ⟨name, isMissing, rfl⟩)
    obtain ⟨listed, unknown⟩ := (missing name).mp isMissing
    rw [blank, if_pos ⟨listed, unknown⟩]
    cases found : (presenceRows indexed asked).lookup name with
    | none =>
        have empty : indexed name = [] := by
          by_contra some
          have kept : (name, indexed name) ∈ presenceRows indexed asked := by
            refine List.mem_map.mpr ⟨name, List.mem_filter.mpr ⟨isMissing, ?_⟩, rfl⟩
            rw [decide_eq_true_iff, List.isEmpty_eq_false_iff]
            exact some
          rw [lookup_of_mem rowsDistinct kept] at found
          cases found
        simp [unknown, empty]
    | some versions =>
        obtain ⟨one, -, same⟩ := List.mem_map.mp (lookup_mem found)
        cases same
        simp [unknown]
  · have none : ∀ rows : List (String × List String), (∀ row ∈ rows, row.1 ∈ asked) →
        rows.lookup name = none := by
      intro rows inside
      refine List.lookup_eq_none_iff.mpr fun row listed => ?_
      rw [bne_iff_ne]
      intro same
      exact isMissing (same ▸ inside row listed)
    have noBlank := none (asked.map fun name => (name, ([] : List String))) (by
      intro row listed
      obtain ⟨one, oneIn, same⟩ := List.mem_map.mp listed
      exact same ▸ oneIn)
    have noRow := none (presenceRows indexed asked) (by
      intro row listed
      obtain ⟨one, oneIn, same⟩ := List.mem_map.mp listed
      exact same ▸ (List.mem_filter.mp oneIn).1)
    rw [noBlank, noRow, if_neg fun both => isMissing ((missing name).mpr both)]

def content (indexed : Presence) (known : List (String × List String)) : Presence :=
  fun name => (known.lookup name).getD (indexed name)

structure LookedOk (indexed : Presence) (known : List (String × List String)) (looked : Looked) :
    Prop where
  agrees : ∀ name versions, looked name = some versions → versions = content indexed known name
  given : ∀ name versions, known.lookup name = some versions → looked name ≠ none

theorem LookedOk.lookUp {indexed : Presence} {known : List (String × List String)}
    {looked : Looked} (ok : LookedOk indexed known looked) (names : List String) :
    LookedOk indexed known (Renames.lookUp indexed looked names) ∧
      ∀ name ∈ names, (Renames.lookUp indexed looked names).presence name = content indexed known name := by
  have agrees : ∀ name versions, Renames.lookUp indexed looked names name = some versions →
      versions = content indexed known name := by
    intro name versions found
    rw [lookUp_eq] at found
    by_cases asked : name ∈ names ∧ looked name = none
    · rw [if_pos asked] at found
      cases found
      have notGiven : known.lookup name = none := by
        cases there : known.lookup name with
        | none => rfl
        | some versions => exact absurd asked.2 (ok.given name versions there)
      rw [content, notGiven]
      rfl
    · rw [if_neg asked] at found
      exact ok.agrees name versions found
  refine ⟨⟨agrees, ?_⟩, ?_⟩
  · intro name versions there
    have before := ok.given name versions there
    rw [lookUp_eq, if_neg fun asked => before asked.2]
    exact before
  · intro name listed
    have known : Renames.lookUp indexed looked names name ≠ none := by
      rw [lookUp_eq]
      by_cases asked : name ∈ names ∧ looked name = none
      · rw [if_pos asked]
        exact Option.some_ne_none _
      · rw [if_neg asked]
        exact fun unknown => asked ⟨listed, unknown⟩
    obtain ⟨versions, found⟩ := Option.ne_none_iff_exists'.mp known
    rw [Looked.presence, found]
    exact agrees name versions found

theorem number_zero : decimals.number ['0'] = some 0 := by
  have zero : Nat.toDigits 10 0 = ['0'] := Nat.toDigits_zero 10
  rw [← zero]
  exact decimals.number_toDigits 0

theorem versionKey_major (major : Nat) :
    versionKey decimals (toString major ++ ".0") = some (toLex (major, 0)) := by
  have chars : (toString major ++ ".0").toList = Nat.toDigits 10 major ++ ['.', '0'] := by
    rw [String.toList_append, Nat.toString_eq_repr, Nat.toList_repr]
    rfl
  have inMajor : ∀ char ∈ Nat.toDigits 10 major, decide (char ≠ '.') = true := by
    intro char listed
    refine decide_eq_true fun same => ?_
    rw [same] at listed
    exact dot_notMem_toDigits major listed
  rw [versionKey, chars, List.dropWhile_append_of_pos inMajor,
    List.takeWhile_append_of_pos inMajor]
  have rest : ['.', '0'].dropWhile (fun char => decide (char ≠ '.')) = ['.', '0'] := by decide
  have lead : ['.', '0'].takeWhile (fun char => decide (char ≠ '.')) = [] := by decide
  rw [rest, lead, List.append_nil]
  dsimp only
  rw [decimals.number_toDigits, number_zero]
  rfl

theorem versionKey_branch {branch : String} {major : Nat}
    (isBranch : branchMajor decimals branch = some major) :
    versionKey decimals branch = some (toLex (major, 0)) := by
  rw [branchMajor] at isBranch
  by_cases minor : branch.toList.dropWhile (· ≠ '.') = ['.', '0']
  · rw [if_pos minor] at isBranch
    rw [versionKey, minor]
    dsimp only
    rw [isBranch, number_zero]
    rfl
  · rw [if_neg minor] at isBranch
    cases isBranch

theorem previousVersion_key {version prev : String} {key : VersionKey}
    (keyed : versionKey decimals version = some key)
    (before : previousVersion decimals version = some prev) :
    0 < (ofLex key).1 ∧ versionKey decimals prev = some (toLex ((ofLex key).1 - 1, 0)) := by
  rw [previousVersion, keyed] at before
  dsimp only at before
  by_cases first : (ofLex key).1 ≤ 0
  · rw [if_pos first] at before
    cases before
  · rw [if_neg first] at before
    cases before
    exact ⟨by omega, versionKey_major decimals _⟩

variable {edge : Edge} {asked : String} {presence : Presence} {hops : List Edge}

/-- The parts of `hop_is_valid`. -/
theorem hopIsValid_iff :
    hopIsValid decimals edge asked presence = true ↔
      ∃ prev, previousVersion decimals edge.version = some prev ∧ prev ∈ presence edge.old ∧
        absentFrom decimals (presence edge.old) edge.version asked = true ∧
        edge.version ∈ presence edge.new := by
  rw [hopIsValid]
  cases before : previousVersion decimals edge.version with
  | none => simp
  | some prev => simp [and_assoc]

theorem hopIsValid_congr {presence other : Presence}
    (old : presence edge.old = other edge.old) (new : presence edge.new = other edge.new) :
    hopIsValid decimals edge asked presence = hopIsValid decimals edge asked other := by
  rw [hopIsValid, hopIsValid, old, new]

variable {decimals}

theorem absent_between {asked version : String}
    {target low key : VersionKey} (targetKey : versionKey decimals asked = some target)
    (edgeKey : versionKey decimals edge.version = some low)
    (keyed : versionKey decimals version = some key) (later : low ≤ key) (upTo : key ≤ target)
    (valid : hopIsValid decimals edge asked presence = true) :
    version ∉ presence edge.old := by
  intro listed
  obtain ⟨-, -, -, absent, -⟩ := (hopIsValid_iff decimals).mp valid
  rw [absentFrom, edgeKey, targetKey] at absent
  have outside := List.all_eq_true.mp absent version listed
  rw [keyed] at outside
  exact of_decide_eq_true outside ⟨later, upTo⟩

theorem major_le {first second : Edge}
    {target : VersionKey} {firstMajor secondMajor : Nat}
    (targetKey : versionKey decimals asked = some target) (sameOld : first.old = second.old)
    (firstKey : versionKey decimals first.version = some (toLex (firstMajor, 0)))
    (secondKey : versionKey decimals second.version = some (toLex (secondMajor, 0)))
    (upTo : toLex (secondMajor, 0) ≤ target)
    (firstValid : hopIsValid decimals first asked presence = true)
    (secondValid : hopIsValid decimals second asked presence = true) :
    secondMajor ≤ firstMajor := by
  by_contra later
  obtain ⟨prev, before, listed, -, -⟩ := (hopIsValid_iff decimals).mp secondValid
  obtain ⟨positive, prevKey⟩ := previousVersion_key decimals secondKey before
  change 0 < secondMajor at positive
  change versionKey decimals prev = some (toLex (secondMajor - 1, 0)) at prevKey
  have fromFirst : toLex (firstMajor, 0) ≤ (toLex (secondMajor - 1, 0) : VersionKey) := by
    rw [Prod.Lex.toLex_le_toLex]
    dsimp only
    omega
  have belowSecond : (toLex (secondMajor - 1, 0) : VersionKey) ≤ toLex (secondMajor, 0) := by
    rw [Prod.Lex.toLex_le_toLex]
    dsimp only
    omega
  rw [← sameOld] at listed
  exact absent_between targetKey firstKey prevKey fromFirst (belowSecond.trans upTo) firstValid
    listed

/-- Each hop starts at the name the one before it led to. -/
def Linked : String → List Edge → String → Prop
  | name, [], last => name = last
  | name, hop :: rest, last => hop.old = name ∧ Linked hop.new rest last

theorem Linked.snoc {hop : Edge} : ∀ {name : String},
    Linked name hops hop.old → Linked name (hops ++ [hop]) hop.new := by
  induction hops with
  | nil =>
      intro name linked
      exact ⟨linked.symm, rfl⟩
  | cons first rest ih =>
      intro name linked
      exact ⟨linked.1, ih linked.2⟩

theorem Linked.names {last : String} : ∀ {name : String},
    Linked name hops last → ∀ one ∈ name :: hops.map Edge.new,
      one = last ∨ ∃ hop ∈ hops, hop.old = one := by
  induction hops with
  | nil =>
      intro name linked one member
      exact .inl ((List.mem_singleton.mp member).trans linked)
  | cons first rest ih =>
      intro name linked one member
      obtain same | later := List.mem_cons.mp member
      · exact .inr ⟨first, List.mem_cons_self, linked.1.trans same.symm⟩
      · obtain isLast | ⟨hop, listed, left⟩ := ih linked.2 one later
        · exact .inl isLast
        · exact .inr ⟨hop, List.mem_cons_of_mem first listed, left⟩

/-- `first` is of an earlier version. -/
def VersionBefore (decimals : Decimals) (first second : Edge) : Prop :=
  ∃ low high, versionKey decimals first.version = some low ∧
    versionKey decimals second.version = some high ∧ low < high

structure Takes (decimals : Decimals) (index : List Edge) (presence : Presence)
    (version : String) (target : VersionKey) (name : String) (edge : Edge) : Prop where
  listed : edge ∈ edgesFrom index name
  upTo : ∃ key ≤ target, versionKey decimals edge.version = some key
  valid : hopIsValid decimals edge version presence = true

structure HopsOk (decimals : Decimals) (index : List Edge) (presence : Presence)
    (version : String) (target : VersionKey) (name : String) (hops : List Edge) (last : String) :
    Prop where
  linked : Linked name hops last
  taken : ∀ hop ∈ hops, Takes decimals index presence version target hop.old hop
  increasing : hops.Pairwise (VersionBefore decimals)
  fresh : (name :: hops.map Edge.new).Nodup
  oneVersion : ∀ hop ∈ hops, ∀ other,
    Takes decimals index presence version target hop.old other →
      versionKey decimals other.version = versionKey decimals hop.version

section Hops
variable {index : List Edge} {presence : Presence} {name version : String} {target : VersionKey}

theorem HopsOk.nil : HopsOk decimals index presence version target name [] name := by
  refine ⟨rfl, ?_, List.Pairwise.nil, List.nodup_singleton name, ?_⟩
  · intro hop listed
    cases listed
  · intro hop listed
    cases listed

theorem oneVersion_of_branches (targetKey : versionKey decimals version = some target)
    (branches : ∀ edge ∈ index, ∃ major, branchMajor decimals edge.version = some major)
    {first second : Edge} {old : String}
    (one : Takes decimals index presence version target old first)
    (other : Takes decimals index presence version target old second) :
    versionKey decimals second.version = versionKey decimals first.version := by
  have facts : ∀ edge, Takes decimals index presence version target old edge →
      edge.old = old ∧ ∃ major, versionKey decimals edge.version = some (toLex (major, 0)) ∧
        toLex (major, 0) ≤ target := by
    intro edge takes
    obtain ⟨listed, fromOld⟩ := List.mem_filter.mp takes.listed
    obtain ⟨major, isBranch⟩ := branches edge listed
    have keyed := versionKey_branch decimals isBranch
    obtain ⟨key, upTo, same⟩ := takes.upTo
    rw [keyed] at same
    cases same
    exact ⟨of_decide_eq_true fromOld, major, keyed, upTo⟩
  obtain ⟨firstOld, firstMajor, firstKey, firstUpTo⟩ := facts first one
  obtain ⟨secondOld, secondMajor, secondKey, secondUpTo⟩ := facts second other
  have sameOld : first.old = second.old := firstOld.trans secondOld.symm
  have le := major_le targetKey sameOld firstKey secondKey secondUpTo one.valid other.valid
  have ge := major_le targetKey sameOld.symm secondKey firstKey firstUpTo other.valid one.valid
  rw [firstKey, secondKey, Nat.le_antisymm le ge]

theorem HopsOk.snoc {hops : List Edge} {hop : Edge}
    (targetKey : versionKey decimals version = some target)
    (branches : ∀ edge ∈ index, ∃ major, branchMajor decimals edge.version = some major)
    (ok : HopsOk decimals index presence version target name hops hop.old)
    (takes : Takes decimals index presence version target hop.old hop)
    (later : ∀ earlier ∈ hops, VersionBefore decimals earlier hop) :
    HopsOk decimals index presence version target name (hops ++ [hop]) hop.new := by
  obtain ⟨key, upTo, keyed⟩ := takes.upTo
  obtain ⟨-, -, -, -, indexedAt⟩ := (hopIsValid_iff decimals).mp takes.valid
  have unmet : hop.new ∉ name :: hops.map Edge.new := by
    intro met
    obtain isOld | ⟨earlier, listed, left⟩ := ok.linked.names hop.new met
    · rw [isOld] at indexedAt
      exact absent_between targetKey keyed keyed (le_refl key) upTo takes.valid indexedAt
    · obtain ⟨low, high, lowKey, highKey, less⟩ := later earlier listed
      rw [keyed] at highKey
      cases highKey
      rw [← left] at indexedAt
      exact absent_between targetKey lowKey keyed less.le upTo (ok.taken earlier listed).valid
        indexedAt
  have each : ∀ one, one ∈ hops ++ [hop] → one ∈ hops ∨ one = hop := by
    intro one listed
    obtain old | new := List.mem_append.mp listed
    · exact .inl old
    · exact .inr (List.mem_singleton.mp new)
  refine ⟨ok.linked.snoc, ?_, ?_, ?_, ?_⟩
  · intro one listed
    obtain old | new := each one listed
    · exact ok.taken one old
    · rw [new]
      exact takes
  · refine List.pairwise_append.mpr ⟨ok.increasing, List.pairwise_singleton _ hop, ?_⟩
    intro earlier listed one isHop
    rw [List.mem_singleton.mp isHop]
    exact later earlier listed
  · rw [List.map_append, ← List.cons_append]
    refine List.Nodup.append ok.fresh (List.nodup_singleton _) ?_
    intro one old new
    rw [List.mem_singleton.mp new] at old
    exact unmet old
  · intro one listed other otherTakes
    obtain old | new := each one listed
    · exact ok.oneVersion one old other otherTakes
    · rw [new] at otherTakes ⊢
      exact oneVersion_of_branches targetKey branches takes otherTakes

variable {indexed : Presence} {known : List (String × List String)}

structure TrailOk (decimals : Decimals) (index : List Edge) (indexed : Presence)
    (known : List (String × List String)) (version : String) (target : VersionKey)
    (name : String) (trail : Trail) : Prop where
  looked : LookedOk indexed known trail.looked
  hops : HopsOk decimals index (content indexed known) version target name trail.hops
    trail.current
  seen : ∀ one ∈ trail.seen, one ∈ name :: trail.hops.map Edge.new
  after : ∀ hop ∈ trail.hops, ∃ low key, versionKey decimals hop.version = some low ∧
    trail.after.bind (versionKey decimals) = some key ∧ low ≤ key
  first : trail.hops = [] → trail.after = none
  unresolved : trail.hops ≠ [] → version ∉ content indexed known trail.current

theorem mem_candidates {trail : Trail} {edge : Edge} :
    edge ∈ candidates decimals index target trail ↔ edge ∈ edgesFrom index trail.current ∧
      ∃ key ≤ target, versionKey decimals edge.version = some key ∧
        ∀ low, trail.after.bind (versionKey decimals) = some low → low < key := by
  rw [candidates, List.mem_filter]
  refine and_congr_right fun listed => ?_
  cases keyed : versionKey decimals edge.version with
  | none => simp
  | some key =>
      have ahead : (match trail.after.bind (versionKey decimals) with
          | none => true
          | some low => decide (low < key)) = true ↔
          ∀ low, trail.after.bind (versionKey decimals) = some low → low < key := by
        cases after : trail.after.bind (versionKey decimals) with
        | none | some low => simp
      dsimp only
      rw [Bool.and_eq_true, decide_eq_true_iff, ahead]
      constructor
      · intro both
        exact ⟨key, both.1, rfl, both.2⟩
      · intro some
        obtain ⟨same, upTo, isKey, later⟩ := some
        cases isKey
        exact ⟨upTo, later⟩

theorem chainFrom_round (targetKey : versionKey decimals version = some target)
    (branches : ∀ edge ∈ index, ∃ major, branchMajor decimals edge.version = some major)
    {trail : Trail} (ok : TrailOk decimals index indexed known version target name trail)
    (left : Nat) :
    (chainFrom decimals index indexed version target (left + 1) trail = (trail.hops, false) ∧
      ∀ edge ∈ candidates decimals index target trail,
        hopIsValid decimals edge version (content indexed known) = false) ∨
    ∃ hop, HopsOk decimals index (content indexed known) version target name
        (trail.hops ++ [hop]) hop.new ∧
      ((version ∈ content indexed known hop.new ∧
          chainFrom decimals index indexed version target (left + 1) trail =
            (trail.hops ++ [hop], true)) ∨
        ∃ onward, TrailOk decimals index indexed known version target name onward ∧
          onward.hops = trail.hops ++ [hop] ∧
          chainFrom decimals index indexed version target (left + 1) trail =
            chainFrom decimals index indexed version target left onward) := by
  obtain ⟨lookedOk, presence⟩ := ok.looked.lookUp
    (trail.current :: (candidates decimals index target trail).map Edge.new)
  have judged : ∀ edge ∈ candidates decimals index target trail,
      hopIsValid decimals edge version (lookUp indexed trail.looked (trail.current ::
        (candidates decimals index target trail).map Edge.new)).presence =
      hopIsValid decimals edge version (content indexed known) := by
    intro edge candidate
    have fromCurrent := of_decide_eq_true
      (List.mem_filter.mp (mem_candidates.mp candidate).1).2
    refine hopIsValid_congr decimals (presence _ ?_) (presence _ ?_)
    · rw [fromCurrent]
      exact List.mem_cons_self
    · exact List.mem_cons_of_mem _ (List.mem_map_of_mem candidate)
  rw [chainFrom]
  generalize lookUp indexed trail.looked (trail.current ::
    (candidates decimals index target trail).map Edge.new) = looked at *
  dsimp only
  by_cases empty : (candidates decimals index target trail).isEmpty = true
  · rw [if_pos empty]
    refine .inl ⟨rfl, ?_⟩
    intro edge candidate
    rw [List.isEmpty_iff.mp empty] at candidate
    cases candidate
  · rw [if_neg empty]
    cases best : sortedBy (hopKey decimals)
        ((candidates decimals index target trail).filter fun edge =>
          hopIsValid decimals edge version looked.presence) with
    | nil =>
        refine .inl ⟨rfl, ?_⟩
        intro edge candidate
        rw [← judged edge candidate]
        by_contra valid
        have kept : edge ∈ sortedBy (hopKey decimals)
            ((candidates decimals index target trail).filter fun edge =>
              hopIsValid decimals edge version looked.presence) := by
          rw [mem_sortedBy, List.mem_filter]
          exact ⟨candidate, Bool.eq_true_of_not_eq_false valid⟩
        rw [best] at kept
        cases kept
    | cons hop others =>
        refine .inr ⟨hop, ?_⟩
        have kept : hop ∈ sortedBy (hopKey decimals)
            ((candidates decimals index target trail).filter fun edge =>
              hopIsValid decimals edge version looked.presence) := by
          rw [best]
          exact List.mem_cons_self
        rw [mem_sortedBy, List.mem_filter] at kept
        obtain ⟨candidate, valid⟩ := kept
        rw [judged hop candidate] at valid
        obtain ⟨listed, key, upTo, keyed, afterLast⟩ := mem_candidates.mp candidate
        have fromCurrent : hop.old = trail.current :=
          of_decide_eq_true (List.mem_filter.mp listed).2
        have indexedNew : looked.presence hop.new = content indexed known hop.new :=
          presence _ (List.mem_cons_of_mem _ (List.mem_map_of_mem candidate))
        have hopsOk : HopsOk decimals index (content indexed known) version target name
            (trail.hops ++ [hop]) hop.new := by
          have before := ok.hops
          rw [← fromCurrent] at before listed
          refine before.snoc targetKey branches ⟨listed, ⟨key, upTo, keyed⟩, valid⟩ ?_
          intro earlier isEarlier
          obtain ⟨low, last, lowKey, lastKey, le⟩ := ok.after earlier isEarlier
          exact ⟨low, key, lowKey, keyed, lt_of_le_of_lt le (afterLast last lastKey)⟩
        refine ⟨hopsOk, ?_⟩
        dsimp only
        rw [indexedNew]
        by_cases there : version ∈ content indexed known hop.new
        · rw [if_pos (List.contains_iff_mem.mpr there)]
          exact .inl ⟨there, rfl⟩
        · rw [if_neg fun found => there (List.contains_iff_mem.mp found)]
          have unseen : hop.new ∉ trail.seen := by
            intro again
            have fresh := hopsOk.fresh
            rw [List.map_append, ← List.cons_append] at fresh
            exact (List.nodup_append.mp fresh).2.2 hop.new (ok.seen hop.new again) hop.new
              (List.mem_singleton_self _) rfl
          rw [if_neg unseen]
          refine .inr ⟨_, ⟨lookedOk, hopsOk, ?_, ?_, ?_, fun _ => there⟩, rfl, rfl⟩
          · intro one seen
            rw [List.map_append, ← List.cons_append]
            obtain isNew | before := List.mem_cons.mp seen
            · rw [isNew]
              exact List.mem_append_right _ (List.mem_singleton_self _)
            · exact List.mem_append_left _ (ok.seen one before)
          · intro earlier member
            obtain old | new := List.mem_append.mp member
            · obtain ⟨low, last, lowKey, lastKey, le⟩ := ok.after earlier old
              exact ⟨low, key, lowKey, keyed, le.trans (afterLast last lastKey).le⟩
            · rw [List.mem_singleton.mp new]
              exact ⟨key, key, keyed, keyed, le_refl key⟩
          · intro none
            exact absurd none (List.append_ne_nil_of_right_ne_nil _ (List.cons_ne_nil _ _))

/-- Every run of the loop ends with hops as they are asked for. -/
theorem chainFrom_ok (targetKey : versionKey decimals version = some target)
    (branches : ∀ edge ∈ index, ∃ major, branchMajor decimals edge.version = some major)
    (left : Nat) : ∀ {trail : Trail},
    TrailOk decimals index indexed known version target name trail →
    ∃ hops resolved last,
      chainFrom decimals index indexed version target left trail = (hops, resolved) ∧
      HopsOk decimals index (content indexed known) version target name hops last ∧
      trail.hops <+: hops ∧ hops.length ≤ trail.hops.length + left ∧
      (hops ≠ [] → (resolved = true ↔ version ∈ content indexed known last)) := by
  have stays : ∀ {trail : Trail},
      TrailOk decimals index indexed known version target name trail → trail.hops ≠ [] →
      (false = true ↔ version ∈ content indexed known trail.current) := by
    intro trail ok some
    exact iff_of_false Bool.false_ne_true (ok.unresolved some)
  induction left with
  | zero =>
      intro trail ok
      exact ⟨trail.hops, false, trail.current, rfl, ok.hops, List.prefix_refl _, Nat.le_refl _,
        stays ok⟩
  | succ left ih =>
      intro trail ok
      obtain ⟨stopped, -⟩ | ⟨hop, hopsOk, ⟨there, ended⟩ | ⟨onward, onwardOk, more, goes⟩⟩ :=
        chainFrom_round targetKey branches ok left
      · exact ⟨trail.hops, false, trail.current, stopped, ok.hops, List.prefix_refl _, by omega,
          stays ok⟩
      · refine ⟨trail.hops ++ [hop], true, hop.new, ended, hopsOk, List.prefix_append _ _, ?_, ?_⟩
        · rw [List.length_append, List.length_singleton]
          omega
        · intro some
          exact iff_of_true rfl there
      · obtain ⟨hops, resolved, last, found, okAll, longer, short, marked⟩ := ih onwardOk
        rw [more] at longer short
        refine ⟨hops, resolved, last, goes.trans found, okAll,
          (List.prefix_append _ _).trans longer, ?_, marked⟩
        rw [List.length_append, List.length_singleton] at short
        omega

end Hops

theorem edgesFromData_branch {data : RenameData}
    (listed : edge ∈ edgesFromData decimals data) :
    ∃ major, branchMajor decimals edge.version = some major := by
  rw [edgesFromData, mem_sortedBy, List.mem_flatMap] at listed
  obtain ⟨item, -, fromBlock⟩ := listed
  by_cases noBranch : (branchMajor decimals item.1).isNone = true
  · rw [if_pos noBranch] at fromBlock
    cases fromBlock
  · rw [if_neg noBranch] at fromBlock
    have atBranch : edge.version = item.1 := by
      rw [blockEdges, List.mem_append, List.mem_map, List.mem_map] at fromBlock
      obtain ⟨_, -, same⟩ | ⟨_, -, same⟩ := fromBlock
      · rw [← same]
      · rw [← same]
    rw [atBranch]
    cases isBranch : branchMajor decimals item.1 with
    | none =>
        rw [isBranch] at noBranch
        exact absurd rfl noBranch
    | some major => exact ⟨major, rfl⟩

theorem Linked.final {last : String} : ∀ {name : String},
    Linked name hops last → (hops.getLast?.map Edge.new).getD name = last := by
  induction hops with
  | nil =>
      intro name linked
      exact linked
  | cons first rest ih =>
      intro name linked
      have further := ih linked.2
      cases rest with
      | nil => exact further
      | cons second others =>
          rw [List.getLast?_cons_cons]
          cases ends : (second :: others).getLast? with
          | none => simp at ends
          | some hop =>
              rw [ends] at further
              exact further

def Chain.final (chain : Chain) : String := (chain.hops.getLast?.map Edge.new).getD chain.name

/-- What is said of an answer: none is given when the first hop has no valid edge, and the
hops of a chain go up in version, are valid, lead to new names and leave no other choice of
version; the chain is resolved when its last name is indexed at the asked version. -/
def Answers (decimals : Decimals) (index : List Edge) (presence : Presence)
    (name version : String) : Option Chain → Prop
  | none => ∀ target, versionKey decimals version = some target →
      ∀ edge, ¬ Takes decimals index presence version target name edge
  | some chain => chain.name = name ∧ chain.version = version ∧ chain.hops ≠ [] ∧
      chain.hops.length ≤ maxHops ∧
      (∃ target, versionKey decimals version = some target ∧
        HopsOk decimals index presence version target name chain.hops chain.final) ∧
      (chain.resolved = true ↔ version ∈ presence chain.final)

theorem resolveChain_answers (decimals : Decimals) (data : RenameData) (indexed : Presence)
    (known : List (String × List String)) (name version : String) :
    Answers decimals (edgesFromData decimals data) (content indexed known) name version
      (resolveChain decimals name version (edgesFromData decimals data) indexed known) := by
  have branches : ∀ edge ∈ edgesFromData decimals data,
      ∃ major, branchMajor decimals edge.version = some major :=
    fun edge listed => edgesFromData_branch listed
  rw [resolveChain]
  cases targetKey : versionKey decimals version with
  | none =>
      intro target keyed
      rw [targetKey] at keyed
      cases keyed
  | some target =>
      have start : TrailOk decimals (edgesFromData decimals data) indexed known version target
          name ⟨fun name => known.lookup name, [], name, none, [name]⟩ := by
        refine ⟨⟨?_, ?_⟩, HopsOk.nil, ?_, ?_, fun _ => rfl, fun some => absurd rfl some⟩
        · intro one versions found
          dsimp only at found
          rw [content, found]
          rfl
        · intro one versions found unknown
          exact Option.some_ne_none _ (found.symm.trans unknown)
        · intro one seen
          exact seen
        · intro hop listed
          cases listed
      obtain ⟨hops, resolved, last, found, ok, -, short, marked⟩ :=
        chainFrom_ok targetKey branches maxHops start
      dsimp only
      rw [found]
      dsimp only
      cases hops with
      | nil =>
          intro other keyed edge takes
          rw [targetKey] at keyed
          cases keyed
          obtain ⟨-, noneValid⟩ | ⟨hop, -, ⟨-, ended⟩ | ⟨onward, onwardOk, more, goes⟩⟩ :=
            chainFrom_round targetKey branches start 15
          · obtain ⟨key, upTo, keyed⟩ := takes.upTo
            have invalid := noneValid edge (mem_candidates.mpr
              ⟨takes.listed, key, upTo, keyed, fun low none => by cases none⟩)
            rw [takes.valid] at invalid
            cases invalid
          · rw [maxHops, ended] at found
            cases found
          · obtain ⟨others, _, _, later, -, longer, -, -⟩ :=
              chainFrom_ok targetKey branches 15 onwardOk
            rw [maxHops, goes, later] at found
            cases found
            rw [more] at longer
            exact absurd (List.prefix_nil.mp longer) (by simp)
      | cons first rest =>
          have ends : (⟨name, version, first :: rest, resolved⟩ : Chain).final = last :=
            ok.linked.final
          refine ⟨rfl, rfl, List.cons_ne_nil _ _, ?_, ⟨target, targetKey, ?_⟩, ?_⟩
          · rw [List.length_nil, Nat.zero_add] at short
            exact short
          · rw [ends]
            exact ok
          · rw [ends]
            exact marked (List.cons_ne_nil _ _)

example : (resolveChain asciiDecimals "sale_coupon_delivery" "17.0"
    (edgesFromData asciiDecimals
      [("16.0", ⟨[("sale_coupon_delivery", "sale_loyalty_delivery")], []⟩),
        ("17.0", ⟨[], [("sale_loyalty_delivery", "sale_loyalty")]⟩)])
    (fun name => if name = "sale_coupon_delivery" then ["15.0"]
      else if name = "sale_loyalty_delivery" then ["16.0"]
      else ["16.0", "17.0"]) []).map (fun chain => (chain.hops.map Edge.new, chain.resolved)) =
    some (["sale_loyalty_delivery", "sale_loyalty"], true) := by
  decide +kernel

end Chains

end OdooSemantic.Indexer.Renames
