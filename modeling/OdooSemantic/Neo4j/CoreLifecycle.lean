import Mathlib.Order.MinMax
import OdooSemantic.Neo4j.CoreSymbols

/-!
# Which runs leave the marks of an ascending pass

The graph after any runs is described by the versions that ran and by the pairs of versions
that were compared.  In an ascending pass every version is compared with the next lower one
and with no other, so the orders that leave the same marks are those that make the same
comparisons.
-/

set_option autoImplicit false

namespace OdooSemantic.Neo4j.CoreSymbols

section Compare
variable (old new : String → Option CoreSymbol) (name : String)

def Adds : Prop := (new name).isSome = true ∧ old name = none

def Deprecates : Prop :=
  ∃ before after, old name = some before ∧ new name = some after ∧ deprecates before after = true

def Replaces (target : String) : Prop :=
  (∃ before, old name = some before ∧ before.replacementQname = some target) ∧
    target ≠ "" ∧ new name = none ∧ (new target).isSome = true

def Removes : Prop :=
  (old name).isSome = true ∧ new name = none ∧ ∀ target, ¬ Replaces old new name target

end Compare

section Keys
variable {old new : List CoreSymbol} {name : String} {version at' : Version}

theorem key_mem_added (own : ∀ symbol ∈ new, symbol.version = version) :
    (name, at') ∈ (computeDiff old new).added.map CoreSymbol.key ↔
      at' = version ∧ Adds (byQname old) (byQname new) name := by
  rw [List.mem_map]
  constructor
  · rintro ⟨symbol, member, same⟩
    obtain ⟨found, fresh⟩ := mem_added.mp member
    cases same
    exact ⟨own symbol (byQname_eq_some found).1, by rw [found]; rfl, fresh⟩
  · rintro ⟨rfl, known, fresh⟩
    obtain ⟨symbol, found⟩ := Option.isSome_iff_exists.mp known
    obtain ⟨member, isName⟩ := byQname_eq_some found
    refine ⟨symbol, mem_added.mpr ⟨by rw [isName]; exact found, by rw [isName]; exact fresh⟩, ?_⟩
    rw [CoreSymbol.key, isName, own symbol member]

theorem key_mem_deprecated (own : ∀ symbol ∈ new, symbol.version = version) :
    (name, at') ∈ (computeDiff old new).deprecated.map CoreSymbol.key ↔
      at' = version ∧ Deprecates (byQname old) (byQname new) name := by
  rw [List.mem_map]
  constructor
  · rintro ⟨symbol, member, same⟩
    obtain ⟨found, before, inOld, isDeprecated⟩ := mem_deprecated.mp member
    cases same
    exact ⟨own symbol (byQname_eq_some found).1, before, symbol, inOld, found, isDeprecated⟩
  · rintro ⟨rfl, before, symbol, inOld, found, isDeprecated⟩
    obtain ⟨member, isName⟩ := byQname_eq_some found
    refine ⟨symbol, mem_deprecated.mpr ?_, by rw [CoreSymbol.key, isName, own symbol member]⟩
    rw [isName]
    exact ⟨found, before, inOld, isDeprecated⟩

theorem key_mem_removed (unique : Unique old) :
    (name, at') ∈ (computeDiff old new).removed.map (fun symbol => (symbol.qualifiedName, version)) ↔
      at' = version ∧ Removes (byQname old) (byQname new) name := by
  have plain : (∀ target, (name, target) ∉ (computeDiff old new).replaced) ↔
      ∀ target, ¬ Replaces (byQname old) (byQname new) name target :=
    forall_congr' fun target => not_congr (mem_replaced unique)
  rw [List.mem_map]
  constructor
  · rintro ⟨symbol, member, same⟩
    obtain ⟨found, gone, kept⟩ := mem_removed.mp member
    cases same
    exact ⟨rfl, by rw [found]; rfl, gone, plain.mp kept⟩
  · rintro ⟨rfl, known, gone, kept⟩
    obtain ⟨symbol, found⟩ := Option.isSome_iff_exists.mp known
    obtain ⟨-, rfl⟩ := byQname_eq_some found
    exact ⟨symbol, mem_removed.mpr ⟨found, gone, plain.mpr kept⟩, rfl⟩

theorem edge_mem_replaced (unique : Unique old) {source target : Key} {fromVersion : Version} :
    (source, target) ∈ (computeDiff old new).replaced.map
        (fun pair => ((pair.1, fromVersion), (pair.2, version))) ↔
      source.2 = fromVersion ∧ target.2 = version ∧
        Replaces (byQname old) (byQname new) source.1 target.1 := by
  rw [List.mem_map]
  constructor
  · rintro ⟨pair, member, same⟩
    cases same
    exact ⟨rfl, rfl, (mem_replaced unique).mp member⟩
  · rintro ⟨rfl, rfl, replaces⟩
    exact ⟨(source.1, target.1), (mem_replaced unique).mpr replaces, rfl⟩

end Keys

section Runs
variable (parsed : Parsed)

def Parsed.find (version : Version) (name : String) : Option CoreSymbol :=
  byQname (parsed.symbols version) name

def Nearest (ran : List Version) (lower version : Version) : Prop :=
  (lower ∈ ran ∧ parsed.symbols lower ≠ [] ∧ lower < version) ∧
    ∀ other ∈ ran, parsed.symbols other ≠ [] → other < version → other ≤ lower

/-- Some run of `version` is diffed against `lower`. -/
def Compared (order : List Version) (lower version : Version) : Prop :=
  ∃ before after, order = before ++ version :: after ∧ Nearest parsed before lower version

def Stored (ran : List Version) (graph : Graph) : Prop :=
  ∀ name version, (graph.node (name, version)).map Node.symbol =
    if version ∈ ran then parsed.find version name else none

/-- The marks and edges that the compared pairs leave.  A removal keeps the version of the
last run that found the symbol gone, so it is told only up to which runs did. -/
structure Marked (pairs : Version → Version → Prop) (graph : Graph) : Prop where
  added : ∀ name version at', (graph.life (name, version)).addedIn = some at' ↔
    at' = version ∧ ∃ lower, pairs lower version ∧
      Adds (parsed.find lower) (parsed.find version) name
  deprecated : ∀ name version at', (graph.life (name, version)).deprecatedIn = some at' ↔
    at' = version ∧ ∃ lower, pairs lower version ∧
      Deprecates (parsed.find lower) (parsed.find version) name
  removed : ∀ name version at', (graph.life (name, version)).removedIn = some at' →
    pairs version at' ∧ Removes (parsed.find version) (parsed.find at') name
  removes : ∀ name version at', pairs version at' →
    Removes (parsed.find version) (parsed.find at') name →
      (graph.life (name, version)).removedIn ≠ none
  edges : ∀ source target : Key, (source, target) ∈ graph.replacedBy ↔
    pairs source.2 target.2 ∧
      Replaces (parsed.find source.2) (parsed.find target.2) source.1 target.1

variable {parsed}

theorem parsed_find_own {version : Version} {name : String} {symbol : CoreSymbol}
    (found : parsed.find version name = some symbol) :
    symbol.qualifiedName = name ∧ symbol.version = version := by
  obtain ⟨member, isName⟩ := byQname_eq_some found
  exact ⟨isName, parsed.own version symbol member⟩

theorem parsed_find_ne_nil {version : Version} :
    (∃ name, (parsed.find version name).isSome = true) ↔ parsed.symbols version ≠ [] := by
  constructor
  · rintro ⟨name, known⟩ isEmpty
    simp [Parsed.find, isEmpty, byQname] at known
  · intro nonempty
    obtain ⟨symbol, member⟩ := List.exists_mem_of_ne_nil _ nonempty
    exact ⟨symbol.qualifiedName, isSome_of_mem member⟩

section Stored
variable {ran : List Version} {graph : Graph}

theorem mem_fetchCoreSymbols (stored : Stored parsed ran graph) {version : Version}
    {symbol : CoreSymbol} : symbol ∈ fetchCoreSymbols graph version ↔
      version ∈ ran ∧ parsed.find version symbol.qualifiedName = some symbol := by
  have nodeOf : (graph.node (symbol.qualifiedName, version)).map Node.symbol = some symbol ↔
      version ∈ ran ∧ parsed.find version symbol.qualifiedName = some symbol := by
    rw [stored, Option.ite_none_right_eq_some]
  rw [← nodeOf, fetchCoreSymbols, List.mem_map]
  constructor
  · rintro ⟨⟨⟨name, at'⟩, node⟩, entry, rfl⟩
    obtain ⟨member, here⟩ := List.mem_filter.mp entry
    have found : graph.node (name, at') = some node := AList.mem_lookup_iff.mpr member
    have known := stored name at'
    rw [found, Option.map_some, eq_comm, Option.ite_none_right_eq_some] at known
    obtain ⟨isName, -⟩ := parsed_find_own known.2
    have same : at' = version := of_decide_eq_true here
    rw [isName, ← same, found]
    rfl
  · intro known
    obtain ⟨node, found, rfl⟩ := Option.map_eq_some_iff.mp known
    exact ⟨⟨_, node⟩, List.mem_filter.mpr
      ⟨AList.mem_lookup_iff.mp found, decide_eq_true rfl⟩, rfl⟩

theorem byQname_fetchCoreSymbols (stored : Stored parsed ran graph) {version : Version}
    (isRun : version ∈ ran) : byQname (fetchCoreSymbols graph version) = parsed.find version := by
  funext name
  cases found : byQname (fetchCoreSymbols graph version) name with
  | some symbol =>
      obtain ⟨member, isName⟩ := byQname_eq_some found
      have known := ((mem_fetchCoreSymbols stored).mp member).2
      rw [isName] at known
      exact known.symm
  | none =>
      cases known : parsed.find version name with
      | none => rfl
      | some symbol =>
          obtain ⟨isName, -⟩ := parsed_find_own known
          have member : symbol ∈ fetchCoreSymbols graph version :=
            (mem_fetchCoreSymbols stored).mpr ⟨isRun, by rw [isName]; exact known⟩
          have contra := isSome_of_mem member
          rw [isName, found] at contra
          exact absurd contra (by simp)

theorem fetchCoreSymbols_unique (stored : Stored parsed ran graph) {version : Version}
    (isRun : version ∈ ran) : Unique (fetchCoreSymbols graph version) := by
  intro symbol member
  rw [byQname_fetchCoreSymbols stored isRun]
  exact ((mem_fetchCoreSymbols stored).mp member).2

theorem mem_versions (stored : Stored parsed ran graph) {version : Version} :
    version ∈ graph.nodes.keys.map Prod.snd ↔ version ∈ ran ∧ parsed.symbols version ≠ [] := by
  rw [← parsed_find_ne_nil, List.mem_map]
  constructor
  · rintro ⟨⟨name, at'⟩, member, rfl⟩
    have known : (graph.node (name, at')).isSome = true :=
      AList.lookup_isSome.mpr (AList.mem_keys.mpr member)
    obtain ⟨node, found⟩ := Option.isSome_iff_exists.mp known
    have same := stored name at'
    rw [found, Option.map_some, eq_comm, Option.ite_none_right_eq_some] at same
    exact ⟨same.1, name, by rw [same.2]; rfl⟩
  · rintro ⟨isRun, name, known⟩
    obtain ⟨symbol, found⟩ := Option.isSome_iff_exists.mp known
    have same := stored name version
    rw [if_pos isRun, found] at same
    obtain ⟨node, isNode, -⟩ := Option.map_eq_some_iff.mp same
    exact ⟨(name, version), AList.mem_keys.mp (AList.lookup_isSome.mp (by
      rw [show graph.nodes.lookup (name, version) = some node from isNode]; rfl)), rfl⟩

theorem findPrevious_eq_some (stored : Stored parsed ran graph) {version lower : Version} :
    findPreviousIndexedVersion graph version = some lower ↔ Nearest parsed ran lower version := by
  rw [findPreviousIndexedVersion, List.max?_eq_some_iff]
  simp only [List.mem_filter, decide_eq_true_eq, mem_versions stored, Nearest, and_assoc,
    and_imp]

end Stored

/-! ## One run -/

section Step
variable {ran : List Version} {pairs : Version → Version → Prop} {graph : Graph}

theorem writeCoreSymbols_stored (stored : Stored parsed ran graph) (version : Version) :
    Stored parsed (version :: ran) (writeCoreSymbols graph (parsed.symbols version)) := by
  intro name at'
  have before := stored name at'
  have absent : parsed.find version name = none → at' = version →
      (graph.node (name, at')).map Node.symbol = none := by
    rintro missing rfl
    rw [before, missing, ite_self]
  rw [writeCoreSymbols_node _ version (parsed.own version)]
  cases found : byQname (parsed.symbols version) name with
  | some symbol =>
      have known : parsed.find version name = some symbol := found
      by_cases here : at' = version
      · simp [here, known]
      · simp [here, before]
  | none =>
      by_cases here : at' = version
      · have missing := absent found here
        rw [here] at missing ⊢
        rw [if_pos List.mem_cons_self]
        exact missing.trans found.symm
      · simp [here, before]

theorem writeCoreSymbols_life (version : Version) (key : Key) :
    (writeCoreSymbols graph (parsed.symbols version)).life key = graph.life key := by
  obtain ⟨name, at'⟩ := key
  unfold Graph.life
  rw [writeCoreSymbols_node _ version (parsed.own version)]
  cases byQname (parsed.symbols version) name with
  | none => rfl
  | some symbol => by_cases here : at' = version <;> simp [here, Graph.life]

theorem Marked.congr_graph {graph' : Graph} (marked : Marked parsed pairs graph)
    (life : ∀ key, graph'.life key = graph.life key)
    (edges : graph'.replacedBy = graph.replacedBy) : Marked parsed pairs graph' :=
  { added := fun name version at' => by rw [life]; exact marked.added name version at'
    deprecated := fun name version at' => by rw [life]; exact marked.deprecated name version at'
    removed := fun name version at' => by rw [life]; exact marked.removed name version at'
    removes := fun name version at' => by rw [life]; exact marked.removes name version at'
    edges := fun source target => by rw [edges]; exact marked.edges source target }

theorem writeLifecycleProperties_node (diff : DiffResult) (fromVersion toVersion : Version)
    (key : Key) :
    (writeLifecycleProperties graph diff fromVersion toVersion).node key =
      (graph.node key).map fun node =>
        { node with
          life :=
            { addedIn := if key ∈ diff.added.map CoreSymbol.key then some toVersion
                else node.life.addedIn
              removedIn := if key ∈ diff.removed.map
                    (fun symbol => (symbol.qualifiedName, fromVersion)) then some toVersion
                else node.life.removedIn
              deprecatedIn := if key ∈ diff.deprecated.map CoreSymbol.key then some toVersion
                else node.life.deprecatedIn } } := by
  simp only [writeLifecycleProperties]
  rw [foldl_setLife_node (fun life => { life with deprecatedIn := some toVersion }) fun _ => rfl,
    foldl_setLife_node (fun life => { life with removedIn := some toVersion }) fun _ => rfl,
    foldl_setLife_node (fun life => { life with addedIn := some toVersion }) fun _ => rfl,
    Option.map_map, Option.map_map]
  congr 1
  funext node
  simp only [Function.comp_apply]
  by_cases isAdded : key ∈ diff.added.map CoreSymbol.key <;>
    by_cases isRemoved : key ∈ diff.removed.map
      (fun symbol => (symbol.qualifiedName, fromVersion)) <;>
    by_cases isDeprecated : key ∈ diff.deprecated.map CoreSymbol.key <;>
    simp only [isAdded, isRemoved, isDeprecated, if_true, if_false]

theorem writeLifecycleProperties_edges (diff : DiffResult) (fromVersion toVersion : Version) :
    (writeLifecycleProperties graph diff fromVersion toVersion).replacedBy = graph.replacedBy := by
  simp only [writeLifecycleProperties, foldl_setLife_edges]

theorem writeLifecycleProperties_life (diff : DiffResult) (fromVersion toVersion : Version)
    (key : Key)
    (hasNode : key ∈ diff.added.map CoreSymbol.key ∨
      key ∈ diff.removed.map (fun symbol => (symbol.qualifiedName, fromVersion)) ∨
      key ∈ diff.deprecated.map CoreSymbol.key → (graph.node key).isSome = true) :
    (writeLifecycleProperties graph diff fromVersion toVersion).life key =
      { addedIn := if key ∈ diff.added.map CoreSymbol.key then some toVersion
          else (graph.life key).addedIn
        removedIn := if key ∈ diff.removed.map (fun symbol => (symbol.qualifiedName, fromVersion))
          then some toVersion else (graph.life key).removedIn
        deprecatedIn := if key ∈ diff.deprecated.map CoreSymbol.key then some toVersion
          else (graph.life key).deprecatedIn } := by
  unfold Graph.life
  rw [writeLifecycleProperties_node]
  cases found : graph.node key with
  | some node => rfl
  | none =>
      have unmarked := mt hasNode (by simp [found])
      simp only [not_or] at unmarked
      rw [if_neg unmarked.1, if_neg unmarked.2.1, if_neg unmarked.2.2]
      rfl

theorem higher_mark {fits : Version → Prop} {mark : Option Version} {isMarked : Prop}
    [Decidable isMarked] {lower higher version at' : Version}
    (before : mark = some at' ↔ at' = version ∧ ∃ other, pairs other version ∧ fits other)
    (marks : isMarked ↔ version = higher ∧ fits lower) :
    (if isMarked then some higher else mark) = some at' ↔
      at' = version ∧ ∃ other, (pairs other version ∨ other = lower ∧ version = higher) ∧
        fits other := by
  by_cases now : isMarked
  · obtain ⟨rfl, isFit⟩ := marks.mp now
    rw [if_pos now, Option.some.injEq]
    constructor
    · rintro rfl
      exact ⟨rfl, lower, Or.inr ⟨rfl, rfl⟩, isFit⟩
    · rintro ⟨rfl, -⟩
      rfl
  · rw [if_neg now, before]
    refine and_congr_right fun _ => exists_congr fun other => and_congr_left fun isFit => ?_
    constructor
    · exact Or.inl
    · rintro (isPair | ⟨rfl, rfl⟩)
      · exact isPair
      · exact absurd (marks.mpr ⟨rfl, isFit⟩) now

theorem Marked.compare (marked : Marked parsed pairs graph) (stored : Stored parsed ran graph)
    {lower version : Version} (lowerRan : lower ∈ ran) (versionRan : version ∈ ran) :
    Marked parsed (fun first second => pairs first second ∨ first = lower ∧ second = version)
      (writeLifecycleProperties
        (writeDiffEdges graph
          (computeDiff (fetchCoreSymbols graph lower) (parsed.symbols version)) lower version)
        (computeDiff (fetchCoreSymbols graph lower) (parsed.symbols version)) lower version) := by
  generalize isDiff : computeDiff (fetchCoreSymbols graph lower) (parsed.symbols version) = diff
  have old := byQname_fetchCoreSymbols stored lowerRan
  have unique := fetchCoreSymbols_unique stored lowerRan
  have new : byQname (parsed.symbols version) = parsed.find version := rfl
  have nodeOf : ∀ name at', at' ∈ ran → (parsed.find at' name).isSome = true →
      (graph.node (name, at')).isSome = true := by
    intro name at' isRun known
    have same := stored name at'
    rw [if_pos isRun] at same
    rw [← Option.isSome_map (f := Node.symbol), same]
    exact known
  have isAdded : ∀ name at', (name, at') ∈ diff.added.map CoreSymbol.key ↔
      at' = version ∧ Adds (parsed.find lower) (parsed.find version) name := by
    intro name at'
    rw [← isDiff, key_mem_added (parsed.own version), old, new]
  have isDeprecated : ∀ name at', (name, at') ∈ diff.deprecated.map CoreSymbol.key ↔
      at' = version ∧ Deprecates (parsed.find lower) (parsed.find version) name := by
    intro name at'
    rw [← isDiff, key_mem_deprecated (parsed.own version), old, new]
  have isRemoved : ∀ name at', (name, at') ∈
      diff.removed.map (fun symbol => (symbol.qualifiedName, lower)) ↔
        at' = lower ∧ Removes (parsed.find lower) (parsed.find version) name := by
    intro name at'
    rw [← isDiff, key_mem_removed unique, old, new]
  have edgesNodes : (writeDiffEdges graph diff lower version).nodes = graph.nodes :=
    foldl_mergeEdge_nodes _ graph
  have life : ∀ name at', (writeLifecycleProperties (writeDiffEdges graph diff lower version) diff
      lower version).life (name, at') =
        { addedIn := if (name, at') ∈ diff.added.map CoreSymbol.key then some version
            else (graph.life (name, at')).addedIn
          removedIn := if (name, at') ∈ diff.removed.map
              (fun symbol => (symbol.qualifiedName, lower)) then some version
            else (graph.life (name, at')).removedIn
          deprecatedIn := if (name, at') ∈ diff.deprecated.map CoreSymbol.key then some version
            else (graph.life (name, at')).deprecatedIn } := by
    intro name at'
    rw [writeLifecycleProperties_life]
    · simp only [Graph.life, Graph.node, edgesNodes]
    · simp only [Graph.node, edgesNodes]
      rintro (member | member | member)
      · obtain ⟨rfl, known, -⟩ := (isAdded name at').mp member
        exact nodeOf name at' versionRan known
      · obtain ⟨rfl, known, -⟩ := (isRemoved name at').mp member
        exact nodeOf name at' lowerRan known
      · obtain ⟨rfl, before, after, -, known, -⟩ := (isDeprecated name at').mp member
        exact nodeOf name at' versionRan (by rw [known]; rfl)
  refine ⟨fun name at' mark => ?_, fun name at' mark => ?_, fun name at' mark => ?_,
    fun name at' mark => ?_, fun source target => ?_⟩
  · rw [life]
    refine higher_mark (marked.added name at' mark) ((isAdded name at').trans ?_)
    exact and_congr_right fun same => by rw [same]
  · rw [life]
    refine higher_mark (marked.deprecated name at' mark) ((isDeprecated name at').trans ?_)
    exact and_congr_right fun same => by rw [same]
  · rw [life]
    intro isMark
    by_cases now : (name, at') ∈ diff.removed.map (fun symbol => (symbol.qualifiedName, lower))
    · obtain ⟨rfl, gone⟩ := (isRemoved name at').mp now
      simp only [if_pos now, Option.some.injEq] at isMark
      subst isMark
      exact ⟨Or.inr ⟨rfl, rfl⟩, gone⟩
    · simp only [if_neg now] at isMark
      obtain ⟨isPair, gone⟩ := marked.removed name at' mark isMark
      exact ⟨Or.inl isPair, gone⟩
  · rw [life]
    intro isPair gone
    by_cases now : (name, at') ∈ diff.removed.map (fun symbol => (symbol.qualifiedName, lower))
    · simp [now]
    · simp only [if_neg now]
      cases isPair with
      | inl isPair => exact marked.removes name at' mark isPair gone
      | inr isLast =>
          obtain ⟨rfl, rfl⟩ := isLast
          exact absurd ((isRemoved name at').mpr ⟨rfl, gone⟩) now
  · rw [writeLifecycleProperties_edges, writeDiffEdges, mem_foldl_mergeEdge, marked.edges, ← isDiff,
      edge_mem_replaced unique, old, new]
    constructor
    · rintro (⟨isPair, replaces⟩ | ⟨⟨rfl, rfl, replaces⟩, -⟩)
      · exact ⟨Or.inl isPair, replaces⟩
      · exact ⟨Or.inr ⟨rfl, rfl⟩, replaces⟩
    · rintro ⟨isPair | ⟨isLower, isVersion⟩, replaces⟩
      · exact Or.inl ⟨isPair, replaces⟩
      · rw [isLower, isVersion] at replaces
        obtain ⟨⟨before, found, -⟩, -, -, known⟩ := id replaces
        refine Or.inr ⟨⟨isLower, isVersion, replaces⟩, ?_, ?_⟩
        · exact nodeOf source.1 source.2 (by rw [isLower]; exact lowerRan)
            (by rw [isLower, found]; rfl)
        · exact nodeOf target.1 target.2 (by rw [isVersion]; exact versionRan)
            (by rw [isVersion]; exact known)

theorem Marked.congr_pairs {pairs' : Version → Version → Prop} (marked : Marked parsed pairs graph)
    (same : ∀ lower version, pairs' lower version ↔ pairs lower version) :
    Marked parsed pairs' graph := by
  have samePairs : pairs' = pairs := funext₂ fun lower version => propext (same lower version)
  rw [samePairs]
  exact marked

theorem writeLifecycleProperties_stored (stored : Stored parsed ran graph) (diff : DiffResult)
    (fromVersion toVersion : Version) :
    Stored parsed ran (writeLifecycleProperties (writeDiffEdges graph diff fromVersion toVersion)
      diff fromVersion toVersion) := by
  intro name at'
  have edgesNodes : (writeDiffEdges graph diff fromVersion toVersion).nodes = graph.nodes :=
    foldl_mergeEdge_nodes _ graph
  rw [writeLifecycleProperties_node, Option.map_map, Graph.node, edgesNodes]
  exact stored name at'

theorem nearest_self {lower version : Version} :
    Nearest parsed (version :: ran) lower version ↔ Nearest parsed ran lower version := by
  unfold Nearest
  constructor
  · rintro ⟨⟨isRun, nonempty, below⟩, highest⟩
    refine ⟨⟨List.mem_of_ne_of_mem below.ne isRun, nonempty, below⟩, fun other member => ?_⟩
    exact highest other (List.mem_cons_of_mem _ member)
  · rintro ⟨⟨isRun, nonempty, below⟩, highest⟩
    refine ⟨⟨List.mem_cons_of_mem _ isRun, nonempty, below⟩, fun other member found lower => ?_⟩
    exact highest other (List.mem_of_ne_of_mem lower.ne member) found lower

theorem Nearest.unique {first second version : Version} (one : Nearest parsed ran first version)
    (other : Nearest parsed ran second version) : first = second :=
  le_antisymm (other.2 first one.1.1 one.1.2.1 one.1.2.2)
    (one.2 second other.1.1 other.1.2.1 other.1.2.2)

theorem indexCore_marked (stored : Stored parsed ran graph) (marked : Marked parsed pairs graph)
    (version : Version) :
    Stored parsed (version :: ran) (indexCore parsed graph version) ∧
      Marked parsed (fun lower higher => pairs lower higher ∨
        Nearest parsed ran lower version ∧ higher = version) (indexCore parsed graph version) := by
  have written := writeCoreSymbols_stored stored version
  have kept := marked.congr_graph (writeCoreSymbols_life version)
    (writeCoreSymbols_edges (parsed.symbols version) graph)
  simp only [indexCore]
  cases found : findPreviousIndexedVersion
      (writeCoreSymbols graph (parsed.symbols version)) version with
  | none =>
      have lonely : ∀ lower, ¬ Nearest parsed ran lower version := by
        intro lower nearest
        rw [← nearest_self, ← findPrevious_eq_some written, found] at nearest
        exact absurd nearest (by simp)
      exact ⟨written, kept.congr_pairs fun lower higher =>
        or_iff_left fun isNew => lonely lower isNew.1⟩
  | some previous =>
      have nearest := (findPrevious_eq_some written).mp found
      refine ⟨writeLifecycleProperties_stored written _ previous version, ?_⟩
      refine (kept.compare written nearest.1.1 List.mem_cons_self).congr_pairs fun lower higher => ?_
      refine or_congr_right (and_congr_left fun _ => ?_)
      rw [← nearest_self]
      constructor
      · exact fun isNearest => isNearest.unique nearest
      · rintro rfl
        exact nearest

end Step

theorem compared_snoc {order : List Version} {version lower higher : Version} :
    Compared parsed (order ++ [version]) lower higher ↔
      Compared parsed order lower higher ∨
        Nearest parsed order lower version ∧ higher = version := by
  constructor
  · rintro ⟨before, after, split, nearest⟩
    cases after using List.reverseRecOn with
    | nil =>
        obtain ⟨rfl, same⟩ := List.append_inj' split rfl
        cases same
        exact Or.inr ⟨nearest, rfl⟩
    | append_singleton after last =>
        rw [← List.cons_append, ← List.append_assoc] at split
        exact Or.inl ⟨before, after, (List.append_inj' split rfl).1, nearest⟩
  · rintro (⟨before, after, rfl, nearest⟩ | ⟨nearest, rfl⟩)
    · exact ⟨before, after ++ [version], by simp, nearest⟩
    · exact ⟨order, [], rfl, nearest⟩

variable (parsed) in
theorem indexVersions_marked (order : List Version) :
    Stored parsed order (indexVersions parsed order) ∧
      Marked parsed (Compared parsed order) (indexVersions parsed order) := by
  induction order using List.reverseRecOn with
  | nil =>
      have noRun : ∀ lower version, ¬ Compared parsed [] lower version := by
        rintro lower version ⟨before, after, split, -⟩
        exact absurd split (by simp)
      refine ⟨fun name version => rfl, ⟨?_, ?_, ?_, ?_, ?_⟩⟩ <;>
        simp [indexVersions, emptyGraph, Graph.life, Graph.node, noRun]
  | append_singleton order version ih =>
      obtain ⟨stored, marked⟩ := indexCore_marked ih.1 ih.2 version
      have folded : indexVersions parsed (order ++ [version]) =
          indexCore parsed (indexVersions parsed order) version := by
        simp [indexVersions]
      rw [folded]
      refine ⟨?_, marked.congr_pairs fun lower higher => compared_snoc⟩
      intro name at'
      rw [stored]
      simp [or_comm]

end Runs

def Below (order : List Version) (lower version : Version) : Prop :=
  (lower ∈ order ∧ lower < version) ∧ ∀ other ∈ order, other < version → other ≤ lower

structure InOrder (order : List Version) : Prop where
  nearest : ∀ before version after, order = before ++ version :: after →
    ∀ lower ∈ before, lower < version → ∃ next ∈ before, Below order next version
  covered : ∀ lower version, version ∈ order → Below order lower version →
    ∃ before after, order = before ++ version :: after ∧ lower ∈ before

def ascending (order : List Version) : List Version :=
  order.dedup.insertionSort (· ≤ ·)

structure Same (one other : Graph) : Prop where
  nodes : ∀ key, one.node key = other.node key
  edges : ∀ edge, edge ∈ one.replacedBy ↔ edge ∈ other.replacedBy

section Orders
variable {parsed : Parsed} {order : List Version}

theorem Below.unique {first second version : Version} (one : Below order first version)
    (other : Below order second version) : first = second :=
  le_antisymm (other.2 first one.1.1 one.1.2) (one.2 second other.1.1 other.1.2)

theorem exists_below {lower version : Version} (member : lower ∈ order) (isLower : lower < version) :
    ∃ next, Below order next version := by
  have someLower : order.filter (· < version) ≠ [] :=
    List.ne_nil_of_mem (List.mem_filter.mpr ⟨member, decide_eq_true isLower⟩)
  obtain ⟨next, isMax⟩ := Option.ne_none_iff_exists'.mp (mt List.max?_eq_none_iff.mp someLower)
  rw [List.max?_eq_some_iff] at isMax
  simp only [List.mem_filter, decide_eq_true_eq, and_imp] at isMax
  exact ⟨next, isMax⟩

theorem mem_ascending {version : Version} : version ∈ ascending order ↔ version ∈ order := by
  rw [ascending, List.mem_insertionSort, List.mem_dedup]

theorem below_ascending {lower version : Version} :
    Below (ascending order) lower version ↔ Below order lower version := by
  simp only [Below, mem_ascending]

theorem ascending_inOrder : InOrder (ascending order) := by
  have sorted : (ascending order).Pairwise (· ≤ ·) := List.pairwise_insertionSort _ _
  have nodup : (ascending order).Nodup :=
    (List.perm_insertionSort _ _).nodup_iff.mpr (List.nodup_dedup _)
  -- whatever is lower than a version comes before it
  have earlier : ∀ before version after, ascending order = before ++ version :: after →
      ∀ lower ∈ ascending order, lower < version → lower ∈ before := by
    intro before version after split lower member isLower
    rw [split] at member sorted
    rcases List.mem_append.mp member with isBefore | isLater
    · exact isBefore
    · have notLower := (List.pairwise_append.mp sorted).2.1
      rcases List.mem_cons.mp isLater with rfl | isAfter
      · exact absurd isLower (lt_irrefl _)
      · exact absurd isLower (not_lt.mpr ((List.pairwise_cons.mp notLower).1 lower isAfter))
  refine ⟨fun before version after split lower member isLower => ?_,
    fun lower version member isBelow => ?_⟩
  · have inOrder : lower ∈ ascending order := by
      rw [split]
      exact List.mem_append_left _ member
    obtain ⟨next, isBelow⟩ := exists_below inOrder isLower
    exact ⟨next, earlier before version after split next isBelow.1.1 isBelow.1.2, isBelow⟩
  · obtain ⟨before, after, split⟩ := List.append_of_mem member
    exact ⟨before, after, split,
      earlier before version after split lower isBelow.1.1 isBelow.1.2⟩

theorem InOrder.compared (inOrder : InOrder order)
    (nonempty : ∀ version ∈ order, parsed.symbols version ≠ []) {lower version : Version} :
    Compared parsed order lower version ↔ version ∈ order ∧ Below order lower version := by
  constructor
  · rintro ⟨before, after, split, nearest⟩
    have versionRun : version ∈ order := by
      rw [split]
      exact List.mem_append_right _ List.mem_cons_self
    have lowerRun : lower ∈ order := by
      rw [split]
      exact List.mem_append_left _ nearest.1.1
    obtain ⟨next, isBefore, isBelow⟩ :=
      inOrder.nearest before version after split lower nearest.1.1 nearest.1.2.2
    have atMost := isBelow.2 lower lowerRun nearest.1.2.2
    have atLeast := nearest.2 next isBefore (nonempty next isBelow.1.1) isBelow.1.2
    rw [le_antisymm atMost atLeast]
    exact ⟨versionRun, isBelow⟩
  · rintro ⟨versionRun, isBelow⟩
    obtain ⟨before, after, split, isBefore⟩ := inOrder.covered lower version versionRun isBelow
    refine ⟨before, after, split, ⟨isBefore, nonempty lower isBelow.1.1, isBelow.1.2⟩, ?_⟩
    intro other member _ isLower
    refine isBelow.2 other ?_ isLower
    rw [split]
    exact List.mem_append_left _ member

/-- The stored versions and the compared pairs fix the graph when every version is removed
against at most one. -/
theorem Marked.same {ran ran' : List Version} {pairs : Version → Version → Prop}
    {one other : Graph} (stored : Stored parsed ran one) (stored' : Stored parsed ran' other)
    (sameRan : ∀ version, version ∈ ran ↔ version ∈ ran') (marked : Marked parsed pairs one)
    (marked' : Marked parsed pairs other)
    (next : ∀ lower first second, pairs lower first → pairs lower second → first = second) :
    Same one other := by
  have removedSame : ∀ name version at', (one.life (name, version)).removedIn = some at' ↔
      (other.life (name, version)).removedIn = some at' := by
    intro name version at'
    constructor
    · intro isMark
      obtain ⟨isPair, gone⟩ := marked.removed name version at' isMark
      obtain ⟨mark, isMark'⟩ :=
        Option.ne_none_iff_exists'.mp (marked'.removes name version at' isPair gone)
      have isPair' := (marked'.removed name version mark isMark').1
      rw [isMark', next version mark at' isPair' isPair]
    · intro isMark
      obtain ⟨isPair, gone⟩ := marked'.removed name version at' isMark
      obtain ⟨mark, isMark'⟩ :=
        Option.ne_none_iff_exists'.mp (marked.removes name version at' isPair gone)
      have isPair' := (marked.removed name version mark isMark').1
      rw [isMark', next version mark at' isPair' isPair]
  have lifeSame : ∀ key, one.life key = other.life key := by
    rintro ⟨name, version⟩
    have added : (one.life (name, version)).addedIn = (other.life (name, version)).addedIn :=
      Option.ext fun at' =>
        (marked.added name version at').trans (marked'.added name version at').symm
    have removed := Option.ext (removedSame name version)
    have deprecated : (one.life (name, version)).deprecatedIn =
        (other.life (name, version)).deprecatedIn :=
      Option.ext fun at' =>
        (marked.deprecated name version at').trans (marked'.deprecated name version at').symm
    exact Lifecycle.ext added removed deprecated
  refine ⟨?_, fun edge => (marked.edges edge.1 edge.2).trans (marked'.edges edge.1 edge.2).symm⟩
  rintro ⟨name, version⟩
  have symbolSame : (one.node (name, version)).map Node.symbol =
      (other.node (name, version)).map Node.symbol := by
    rw [stored, stored']
    simp only [sameRan]
  have life := lifeSame (name, version)
  unfold Graph.life at life
  cases left : one.node (name, version) with
  | none =>
      rw [left, Option.map_none, eq_comm, Option.map_eq_none_iff] at symbolSame
      exact symbolSame.symm
  | some node =>
      rw [left] at symbolSame life
      obtain ⟨node', right, isSymbol⟩ := Option.map_eq_some_iff.mp symbolSame.symm
      rw [right] at life
      have isLife : node.life = node'.life := life
      rw [right, Node.ext isSymbol.symm isLife]

theorem InOrder.same (inOrder : InOrder order)
    (nonempty : ∀ version ∈ order, parsed.symbols version ≠ []) :
    Same (indexVersions parsed order) (indexVersions parsed (ascending order)) := by
  have nonempty' : ∀ version ∈ ascending order, parsed.symbols version ≠ [] :=
    fun version member => nonempty version (mem_ascending.mp member)
  obtain ⟨stored, marked⟩ := indexVersions_marked parsed order
  obtain ⟨stored', marked'⟩ := indexVersions_marked parsed (ascending order)
  have pairsSame : ∀ lower version, Compared parsed order lower version ↔
      Compared parsed (ascending order) lower version := by
    intro lower version
    rw [inOrder.compared nonempty, ascending_inOrder.compared nonempty', mem_ascending,
      below_ascending]
  refine Marked.same stored stored' (fun version => mem_ascending.symm) marked
    (marked'.congr_pairs pairsSame) ?_
  intro lower first second isFirst isSecond
  obtain ⟨firstRun, belowFirst⟩ := (inOrder.compared nonempty).mp isFirst
  obtain ⟨secondRun, belowSecond⟩ := (inOrder.compared nonempty).mp isSecond
  rcases lt_trichotomy first second with isLess | same | isLess
  · exact absurd (belowSecond.2 first firstRun isLess) (not_le.mpr belowFirst.1.2)
  · exact same
  · exact absurd (belowFirst.2 second secondRun isLess) (not_le.mpr belowSecond.1.2)

end Orders

def probeSymbol (name : String) (version : Version) : CoreSymbol :=
  ⟨name, version, .stable, none⟩

def probe (extras : List Version) : Parsed where
  symbols version := probeSymbol "base" version ::
    if version ∈ extras then [probeSymbol "extra" version] else []
  own version symbol member := by
    rcases List.mem_cons.mp member with rfl | member
    · rfl
    · split at member
      · cases List.mem_singleton.mp member
        rfl
      · exact absurd member List.not_mem_nil

section Probe
variable {extras : List Version}

theorem probe_nonempty (version : Version) : (probe extras).symbols version ≠ [] :=
  List.cons_ne_nil _ _

theorem probe_find {version : Version} :
    ((probe extras).find version "extra").isSome = true ↔ version ∈ extras := by
  by_cases member : version ∈ extras <;>
    simp [Parsed.find, probe, byQname, probeSymbol, member]

theorem probe_adds {lower version : Version} :
    Adds ((probe extras).find lower) ((probe extras).find version) "extra" ↔
      version ∈ extras ∧ lower ∉ extras := by
  rw [Adds, probe_find, ← @probe_find extras lower, Bool.not_eq_true,
    Option.isSome_eq_false_iff, Option.isNone_iff_eq_none]

/-- Where the final graphs agree, the same nodes are marked as added. -/
theorem Same.added {order : List Version}
    (same : Same (indexVersions (probe extras) order)
      (indexVersions (probe extras) (ascending order))) (version : Version) :
    (∃ lower, Compared (probe extras) order lower version ∧
        version ∈ extras ∧ lower ∉ extras) ↔
      version ∈ order ∧ ∃ lower, Below order lower version ∧ version ∈ extras ∧ lower ∉ extras := by
  have left := (indexVersions_marked (probe extras) order).2.added "extra" version version
  have right :=
    (indexVersions_marked (probe extras) (ascending order)).2.added "extra" version version
  have life : (indexVersions (probe extras) order).life ("extra", version) =
      (indexVersions (probe extras) (ascending order)).life ("extra", version) := by
    unfold Graph.life
    rw [same.nodes]
  rw [life, right] at left
  simp only [true_and, probe_adds, mem_ascending, below_ascending,
    ascending_inOrder.compared fun version _ => probe_nonempty version, and_assoc,
    exists_and_left] at left
  exact left.symm

end Probe

theorem inOrder_of_same {order : List Version}
    (same : ∀ extras, Same (indexVersions (probe extras) order)
      (indexVersions (probe extras) (ascending order))) : InOrder order := by
  have nearest : ∀ before version after, order = before ++ version :: after →
      ∀ lower ∈ before, lower < version → ∃ next ∈ before, Below order next version := by
    intro before version after split lower isBefore isLower
    have inOrder : ∀ other ∈ before, other ∈ order := by
      intro other member
      rw [split]
      exact List.mem_append_left _ member
    obtain ⟨next, isBelow⟩ := exists_below (inOrder lower isBefore) isLower
    -- the nearest lower version that ran before, by the same lemma on that part of the order
    obtain ⟨nearest, isNearest⟩ := exists_below isBefore isLower
    by_contra missing
    have skipped : next ≠ nearest := by
      rintro rfl
      exact missing ⟨next, isNearest.1.1, isBelow⟩
    have compared : Compared (probe [next, version]) order nearest version :=
      ⟨before, after, split, ⟨isNearest.1.1, probe_nonempty nearest, isNearest.1.2⟩,
        fun other member _ => isNearest.2 other member⟩
    obtain ⟨-, lower', isBelow', -, fresh⟩ := ((same [next, version]).added version).mp
      ⟨nearest, compared, by simp, by simp [skipped.symm, isNearest.1.2.ne]⟩
    exact fresh (by simp [isBelow'.unique isBelow])
  refine ⟨nearest, fun lower version member isBelow => ?_⟩
  obtain ⟨other, ⟨before, after, split, isNearest⟩, -⟩ :=
    ((same [version]).added version).mpr
      ⟨member, lower, isBelow, by simp, by simp [isBelow.1.2.ne]⟩
  obtain ⟨next, isBefore, isNext⟩ :=
    nearest before version after split other isNearest.1.1 isNearest.1.2.2
  exact ⟨before, after, split, by rw [isBelow.unique isNext]; exact isBefore⟩

/-- The orders whose final marks and edges are those of the ascending pass, whatever the
versions hold. -/
theorem indexVersions_ascending_iff (order : List Version) :
    (∀ parsed : Parsed, (∀ version ∈ order, parsed.symbols version ≠ []) →
      Same (indexVersions parsed order) (indexVersions parsed (ascending order))) ↔
        InOrder order := by
  constructor
  · intro same
    exact inOrder_of_same fun extras => same (probe extras) fun version _ => probe_nonempty version
  · intro inOrder parsed nonempty
    exact inOrder.same nonempty

/-- Version 9 indexed before version 8: its new symbol is never marked as added. -/
theorem indexVersions_descending :
    ¬ ∀ (parsed : Parsed) (order : List Version),
      Same (indexVersions parsed order) (indexVersions parsed (ascending order)) := by
  intro same
  have nodes := (same (probe [toLex (9, 0)]) [toLex (9, 0), toLex (8, 0)]).nodes
    ("extra", toLex (9, 0))
  revert nodes
  decide

theorem Compared.bounds {parsed : Parsed} {order : List Version} {lower version : Version}
    (compared : Compared parsed order lower version) :
    lower ∈ order ∧ version ∈ order ∧ lower < version := by
  obtain ⟨before, after, rfl, ⟨isLower, -, below⟩, -⟩ := compared
  exact ⟨List.mem_append_left _ isLower, by simp, below⟩

/-- Whatever the order of the runs, a mark is borne out by what was parsed of the symbol's own
version and of another one that was run, and a replacement leads to a later version. -/
theorem marks_justified (parsed : Parsed) (order : List Version) (name : String)
    (version at' : Version) :
    let life := (indexVersions parsed order).life (name, version)
    (life.addedIn = some at' → at' = version ∧ ∃ lower ∈ order, lower < version ∧
        Adds (parsed.find lower) (parsed.find version) name) ∧
      (life.deprecatedIn = some at' → at' = version ∧ ∃ lower ∈ order, lower < version ∧
        Deprecates (parsed.find lower) (parsed.find version) name) ∧
      (life.removedIn = some at' → at' ∈ order ∧ version < at' ∧
        Removes (parsed.find version) (parsed.find at') name) ∧
      ∀ source target, (source, target) ∈ (indexVersions parsed order).replacedBy →
        source.2 < target.2 ∧
          Replaces (parsed.find source.2) (parsed.find target.2) source.1 target.1 := by
  have marked := (indexVersions_marked parsed order).2
  refine ⟨fun mark => ?_, fun mark => ?_, fun mark => ?_, fun source target edge => ?_⟩
  · obtain ⟨same, lower, compared, adds⟩ := (marked.added name version at').mp mark
    exact ⟨same, lower, compared.bounds.1, compared.bounds.2.2, adds⟩
  · obtain ⟨same, lower, compared, deprecates⟩ := (marked.deprecated name version at').mp mark
    exact ⟨same, lower, compared.bounds.1, compared.bounds.2.2, deprecates⟩
  · obtain ⟨compared, removes⟩ := marked.removed name version at' mark
    exact ⟨compared.bounds.2.1, compared.bounds.2.2, removes⟩
  · obtain ⟨compared, replaces⟩ := (marked.edges source target).mp edge
    exact ⟨compared.bounds.2.2, replaces⟩

end OdooSemantic.Neo4j.CoreSymbols
