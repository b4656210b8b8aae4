import Mathlib.Data.List.AList
import Mathlib.Data.List.Induction
import Mathlib.Data.Prod.Lex
import OdooSemantic.Lib.Py

/-!
# Lifecycle marks of core symbols

Indexing a version compares its core symbols with those of the nearest lower version that is
indexed and marks what was added, removed, deprecated or replaced.  Marks are only ever set,
so what is left after several runs depends on which pairs of versions were compared.
-/

set_option autoImplicit false

namespace OdooSemantic.Neo4j.CoreSymbols

open Lib.Py

/-- `X.Y` as `_ver_key` reads it: the numbers decide, not the text. -/
abbrev Version := Nat ×ₗ Nat

inductive Status where
  | stable
  | deprecated
  deriving DecidableEq

structure CoreSymbol where
  qualifiedName : String
  version : Version
  status : Status
  replacementQname : Option String
  deriving DecidableEq

abbrev Key := String × Version

def CoreSymbol.key (symbol : CoreSymbol) : Key := (symbol.qualifiedName, symbol.version)

structure DiffResult where
  added : List CoreSymbol
  removed : List CoreSymbol
  deprecated : List CoreSymbol
  stable : List (CoreSymbol × CoreSymbol)
  replaced : List (String × String)

/-- `{s.qualified_name: s for s in symbols}`: the last symbol of a name counts. -/
def byQname (symbols : List CoreSymbol) (name : String) : Option CoreSymbol :=
  symbols.reverse.find? (·.qualifiedName == name)

/-- The keys of the dict; they are used as a set. -/
def qnames (symbols : List CoreSymbol) : List String :=
  (symbols.map CoreSymbol.qualifiedName).dedup

/-- `new_sym.status == "deprecated" and old_sym.status != "deprecated"`. -/
def deprecates (old new : CoreSymbol) : Bool :=
  decide (new.status = .deprecated ∧ old.status ≠ .deprecated)

def both (old new : List CoreSymbol) (name : String) : Option (CoreSymbol × CoreSymbol) :=
  (byQname old name).bind fun oldSymbol => (byQname new name).map (oldSymbol, ·)

def replacement (old new : List CoreSymbol) (symbol : CoreSymbol) : Option (String × String) :=
  match symbol.replacementQname with
  | some target =>
      if target ≠ "" ∧ symbol.qualifiedName ∈ qnames old ∧ symbol.qualifiedName ∉ qnames new ∧
          target ∈ qnames new then
        some (symbol.qualifiedName, target)
      else none
  | none => none

def computeDiff (old new : List CoreSymbol) : DiffResult :=
  let common := (qnames old).filter (· ∈ qnames new)
  let onlyOld := (qnames old).filter (· ∉ qnames new)
  let onlyNew := (qnames new).filter (· ∉ qnames old)
  let pairs := common.filterMap (both old new)
  let replaced := old.filterMap (replacement old new)
  { added := onlyNew.filterMap (byQname new)
    removed := (onlyOld.filter (· ∉ replaced.map Prod.fst)).filterMap (byQname old)
    deprecated := (pairs.filter fun pair => deprecates pair.1 pair.2).map Prod.snd
    stable := pairs.filter fun pair => !deprecates pair.1 pair.2
    replaced }

@[ext]
structure Lifecycle where
  addedIn : Option Version
  removedIn : Option Version
  deprecatedIn : Option Version
  deriving DecidableEq

@[ext]
structure Node where
  symbol : CoreSymbol
  life : Lifecycle
  deriving DecidableEq

/-- The `CoreSymbol` nodes by their keys and the `REPLACED_BY` edges. -/
structure Graph where
  nodes : AList fun _ : Key => Node
  replacedBy : List (Key × Key)

def emptyGraph : Graph := ⟨∅, []⟩

/-- `MERGE` of one symbol: the node keeps its marks. -/
def mergeSymbol (graph : Graph) (symbol : CoreSymbol) : Graph :=
  let life := ((graph.nodes.lookup symbol.key).map Node.life).getD ⟨none, none, none⟩
  { graph with nodes := graph.nodes.insert symbol.key ⟨symbol, life⟩ }

def writeCoreSymbols (graph : Graph) (symbols : List CoreSymbol) : Graph :=
  symbols.foldl mergeSymbol graph

/-- `MATCH (cs {key}) SET …`. -/
def setLife (set : Lifecycle → Lifecycle) (graph : Graph) (key : Key) : Graph :=
  match graph.nodes.lookup key with
  | some node => { graph with nodes := graph.nodes.insert key { node with life := set node.life } }
  | none => graph

/-- `MATCH` both nodes and `MERGE` the edge. -/
def mergeEdge (graph : Graph) (edge : Key × Key) : Graph :=
  if (graph.nodes.lookup edge.1).isSome ∧ (graph.nodes.lookup edge.2).isSome ∧
      edge ∉ graph.replacedBy then
    { graph with replacedBy := edge :: graph.replacedBy }
  else graph

def fetchCoreSymbols (graph : Graph) (version : Version) : List CoreSymbol :=
  (graph.nodes.entries.filter (·.1.2 = version)).map (·.2.symbol)

def findPreviousIndexedVersion (graph : Graph) (current : Version) : Option Version :=
  ((graph.nodes.keys.map Prod.snd).filter (· < current)).max?

def writeDiffEdges (graph : Graph) (diff : DiffResult) (fromVersion toVersion : Version) : Graph :=
  (diff.replaced.map fun pair => ((pair.1, fromVersion), (pair.2, toVersion))).foldl mergeEdge graph

def writeLifecycleProperties (graph : Graph) (diff : DiffResult)
    (fromVersion toVersion : Version) : Graph :=
  let graph := (diff.added.map CoreSymbol.key).foldl
    (setLife fun life => { life with addedIn := some toVersion }) graph
  let graph := (diff.removed.map fun symbol => (symbol.qualifiedName, fromVersion)).foldl
    (setLife fun life => { life with removedIn := some toVersion }) graph
  (diff.deprecated.map CoreSymbol.key).foldl
    (setLife fun life => { life with deprecatedIn := some toVersion }) graph

/-- What `parse_odoo_core` finds in each version, with the curated tool symbols. -/
structure Parsed where
  symbols : Version → List CoreSymbol
  own : ∀ version, ∀ symbol ∈ symbols version, symbol.version = version

section IndexCore
variable (parsed : Parsed)

/-- The core symbols of one `index_core` run. -/
def indexCore (graph : Graph) (version : Version) : Graph :=
  let symbols := parsed.symbols version
  let graph := writeCoreSymbols graph symbols
  match findPreviousIndexedVersion graph version with
  | some previous =>
      let diff := computeDiff (fetchCoreSymbols graph previous) symbols
      writeLifecycleProperties (writeDiffEdges graph diff previous version) diff previous version
  | none => graph

def indexVersions (order : List Version) : Graph :=
  order.foldl (indexCore parsed) emptyGraph

end IndexCore

section Diff
variable {old new symbols : List CoreSymbol} {name : String} {symbol : CoreSymbol}

theorem byQname_eq_some (found : byQname symbols name = some symbol) :
    symbol ∈ symbols ∧ symbol.qualifiedName = name := by
  refine ⟨List.mem_reverse.mp (List.mem_of_find?_eq_some found), ?_⟩
  simpa using List.find?_some found

theorem mem_qnames : name ∈ qnames symbols ↔ (byQname symbols name).isSome = true := by
  rw [qnames, List.mem_dedup, List.mem_map, byQname, List.find?_isSome]
  simp

theorem not_mem_qnames : name ∉ qnames symbols ↔ byQname symbols name = none := by
  rw [mem_qnames, Bool.not_eq_true, Option.isSome_eq_false_iff, Option.isNone_iff_eq_none]

theorem isSome_of_mem (member : symbol ∈ symbols) :
    (byQname symbols symbol.qualifiedName).isSome = true := by
  rw [← mem_qnames, qnames, List.mem_dedup]
  exact List.mem_map_of_mem member

def Unique (symbols : List CoreSymbol) : Prop :=
  ∀ symbol ∈ symbols, byQname symbols symbol.qualifiedName = some symbol

theorem mem_added : symbol ∈ (computeDiff old new).added ↔
    byQname new symbol.qualifiedName = some symbol ∧
      byQname old symbol.qualifiedName = none := by
  simp only [computeDiff, List.mem_filterMap, List.mem_filter, decide_eq_true_eq, not_mem_qnames]
  constructor
  · rintro ⟨name, ⟨-, fresh⟩, found⟩
    obtain ⟨-, rfl⟩ := byQname_eq_some found
    exact ⟨found, fresh⟩
  · rintro ⟨found, fresh⟩
    exact ⟨_, ⟨mem_qnames.mpr (by rw [found]; rfl), fresh⟩, found⟩

theorem mem_deprecated : symbol ∈ (computeDiff old new).deprecated ↔
    byQname new symbol.qualifiedName = some symbol ∧
      ∃ before, byQname old symbol.qualifiedName = some before ∧
        deprecates before symbol = true := by
  simp only [computeDiff, List.mem_map, List.mem_filter, List.mem_filterMap, both,
    Option.bind_eq_some_iff, Option.map_eq_some_iff, Prod.exists]
  constructor
  · rintro ⟨before, after, ⟨⟨name, -, oldSymbol, found, newSymbol, inNew, same⟩, isDeprecated⟩, rfl⟩
    cases same
    obtain ⟨-, rfl⟩ := byQname_eq_some inNew
    exact ⟨inNew, before, found, isDeprecated⟩
  · rintro ⟨inNew, before, found, isDeprecated⟩
    refine ⟨before, symbol, ⟨⟨symbol.qualifiedName, ⟨mem_qnames.mpr (by rw [found]; rfl), ?_⟩,
      before, found, symbol, inNew, rfl⟩, isDeprecated⟩, rfl⟩
    exact decide_eq_true (mem_qnames.mpr (by rw [inNew]; rfl))

theorem mem_replaced (unique : Unique old) {pair : String × String} :
    pair ∈ (computeDiff old new).replaced ↔
      (∃ before, byQname old pair.1 = some before ∧ before.replacementQname = some pair.2) ∧
        pair.2 ≠ "" ∧ byQname new pair.1 = none ∧ (byQname new pair.2).isSome = true := by
  simp only [computeDiff, List.mem_filterMap]
  constructor
  · rintro ⟨before, member, isPair⟩
    unfold replacement at isPair
    cases target : before.replacementQname with
    | none => simp [target] at isPair
    | some name =>
        simp only [target, Option.ite_none_right_eq_some, Option.some.injEq] at isPair
        obtain ⟨⟨isName, -, gone, known⟩, rfl⟩ := isPair
        exact ⟨⟨before, unique before member, target⟩, isName, not_mem_qnames.mp gone,
          mem_qnames.mp known⟩
  · rintro ⟨⟨before, found, target⟩, isName, gone, known⟩
    obtain ⟨member, isOld⟩ := byQname_eq_some found
    refine ⟨before, member, ?_⟩
    simp only [replacement, target, Option.ite_none_right_eq_some, isOld]
    exact ⟨⟨isName, mem_qnames.mpr (by rw [found]; rfl), not_mem_qnames.mpr gone,
      mem_qnames.mpr known⟩, trivial⟩

theorem mem_removed : symbol ∈ (computeDiff old new).removed ↔
    byQname old symbol.qualifiedName = some symbol ∧
      byQname new symbol.qualifiedName = none ∧
      ∀ target, (symbol.qualifiedName, target) ∉ (computeDiff old new).replaced := by
  simp only [computeDiff, List.mem_filterMap (f := byQname old), List.mem_filter,
    decide_eq_true_eq, not_mem_qnames]
  constructor
  · rintro ⟨name, ⟨⟨-, gone⟩, plain⟩, found⟩
    obtain ⟨-, rfl⟩ := byQname_eq_some found
    exact ⟨found, gone, fun target isReplaced => plain (List.mem_map.mpr ⟨_, isReplaced, rfl⟩)⟩
  · rintro ⟨found, gone, plain⟩
    refine ⟨_, ⟨⟨mem_qnames.mpr (by rw [found]; rfl), gone⟩, fun isReplaced => ?_⟩, found⟩
    obtain ⟨⟨name, target⟩, member, rfl⟩ := List.mem_map.mp isReplaced
    exact plain target member

end Diff

section Writes
variable {graph : Graph} {key : Key}

def Graph.node (graph : Graph) (key : Key) : Option Node := graph.nodes.lookup key

/-- The marks of a node, none when it is not there. -/
def Graph.life (graph : Graph) (key : Key) : Lifecycle :=
  ((graph.node key).map Node.life).getD ⟨none, none, none⟩

theorem mergeSymbol_node (symbol : CoreSymbol) : (mergeSymbol graph symbol).node key =
    if key = symbol.key then some ⟨symbol, graph.life key⟩ else graph.node key := by
  by_cases same : key = symbol.key
  · subst same
    simp [mergeSymbol, Graph.node, Graph.life]
  · simp [mergeSymbol, Graph.node, same]

theorem writeCoreSymbols_node (symbols : List CoreSymbol) (version : Version)
    (own : ∀ symbol ∈ symbols, symbol.version = version) (name : String) (at' : Version) :
    (writeCoreSymbols graph symbols).node (name, at') =
      match byQname symbols name with
      | some symbol =>
          if at' = version then some ⟨symbol, graph.life (name, at')⟩ else graph.node (name, at')
      | none => graph.node (name, at') := by
  induction symbols using List.reverseRecOn with
  | nil => rfl
  | append_singleton symbols symbol ih =>
      have ownSymbol : symbol.version = version := own symbol (by simp)
      have step := ih fun other member => own other (List.mem_append_left _ member)
      have folded : writeCoreSymbols graph (symbols ++ [symbol]) =
          mergeSymbol (writeCoreSymbols graph symbols) symbol := by
        simp [writeCoreSymbols]
      have lifeSame : (writeCoreSymbols graph symbols).life (name, at') = graph.life (name, at') := by
        unfold Graph.life
        rw [step]
        cases byQname symbols name with
        | none => rfl
        | some earlier => by_cases here : at' = version <;> simp [here, Graph.life]
      rw [folded, mergeSymbol_node, lifeSame]
      by_cases isName : symbol.qualifiedName = name
      · have found : byQname (symbols ++ [symbol]) name = some symbol := by simp [byQname, isName]
        rw [found]
        by_cases here : at' = version
        · simp [CoreSymbol.key, isName, ownSymbol, here]
        · have other : (name, at') ≠ symbol.key := by
            simp [CoreSymbol.key, ownSymbol, here]
          rw [if_neg other, step]
          cases byQname symbols name with
          | none | some earlier => simp [here]
      · have found : byQname (symbols ++ [symbol]) name = byQname symbols name := by
          simp [byQname, isName]
        have other : (name, at') ≠ symbol.key := by
          simp only [CoreSymbol.key, ne_eq, Prod.mk.injEq, not_and]
          exact fun same => absurd same.symm isName
        rw [found, if_neg other, step]

theorem writeCoreSymbols_edges (symbols : List CoreSymbol) : ∀ graph : Graph,
    (writeCoreSymbols graph symbols).replacedBy = graph.replacedBy := by
  induction symbols with
  | nil => exact fun graph => rfl
  | cons symbol rest ih => exact fun graph => ih (mergeSymbol graph symbol)

theorem setLife_node (set : Lifecycle → Lifecycle) (target : Key) :
    (setLife set graph target).node key =
      (graph.node key).map fun node => if key = target then { node with life := set node.life }
        else node := by
  unfold setLife
  cases found : graph.nodes.lookup target with
  | none =>
      by_cases same : key = target
      · subst same
        simp [Graph.node, found]
      · simp [same]
  | some node =>
      by_cases same : key = target
      · subst same
        simp [Graph.node, found]
      · simp [Graph.node, same]

theorem setLife_edges (set : Lifecycle → Lifecycle) (target : Key) :
    (setLife set graph target).replacedBy = graph.replacedBy := by
  unfold setLife
  cases graph.nodes.lookup target <;> rfl

theorem foldl_setLife_node (set : Lifecycle → Lifecycle) (idem : ∀ life, set (set life) = set life)
    (targets : List Key) : ∀ graph : Graph,
    (targets.foldl (setLife set) graph).node key =
      (graph.node key).map fun node => if key ∈ targets then { node with life := set node.life }
        else node := by
  induction targets with
  | nil => intro graph; simp
  | cons target rest ih =>
      intro graph
      rw [List.foldl_cons, ih, setLife_node, Option.map_map]
      congr 1
      funext node
      by_cases here : key = target <;> by_cases later : key ∈ rest <;>
        simp [here, later, idem]

theorem foldl_setLife_edges (set : Lifecycle → Lifecycle) (targets : List Key) :
    ∀ graph : Graph, (targets.foldl (setLife set) graph).replacedBy = graph.replacedBy := by
  induction targets with
  | nil => exact fun graph => rfl
  | cons target rest ih =>
      intro graph
      rw [List.foldl_cons, ih, setLife_edges]

theorem mergeEdge_nodes (edge : Key × Key) : (mergeEdge graph edge).nodes = graph.nodes := by
  unfold mergeEdge
  split <;> rfl

theorem foldl_mergeEdge_nodes (edges : List (Key × Key)) : ∀ graph : Graph,
    (edges.foldl mergeEdge graph).nodes = graph.nodes := by
  induction edges with
  | nil => exact fun graph => rfl
  | cons edge rest ih =>
      intro graph
      rw [List.foldl_cons, ih, mergeEdge_nodes]

theorem mem_mergeEdge {edge other : Key × Key} : other ∈ (mergeEdge graph edge).replacedBy ↔
    other ∈ graph.replacedBy ∨ other = edge ∧ (graph.node other.1).isSome = true ∧
      (graph.node other.2).isSome = true := by
  unfold mergeEdge Graph.node
  by_cases may : (graph.nodes.lookup edge.1).isSome ∧ (graph.nodes.lookup edge.2).isSome ∧
      edge ∉ graph.replacedBy
  · rw [if_pos may, List.mem_cons]
    constructor
    · rintro (rfl | old)
      · exact Or.inr ⟨rfl, may.1, may.2.1⟩
      · exact Or.inl old
    · rintro (old | ⟨rfl, -⟩)
      · exact Or.inr old
      · exact Or.inl rfl
  · rw [if_neg may]
    constructor
    · exact Or.inl
    · rintro (old | ⟨rfl, first, second⟩)
      · exact old
      · by_contra fresh
        exact may ⟨first, second, fresh⟩

theorem mem_foldl_mergeEdge {edge : Key × Key} (edges : List (Key × Key)) : ∀ graph : Graph,
    (edge ∈ (edges.foldl mergeEdge graph).replacedBy ↔
      edge ∈ graph.replacedBy ∨ edge ∈ edges ∧ (graph.node edge.1).isSome = true ∧
        (graph.node edge.2).isSome = true) := by
  induction edges with
  | nil => intro graph; simp
  | cons first rest ih =>
      intro graph
      rw [List.foldl_cons, ih, mem_mergeEdge, List.mem_cons]
      simp only [Graph.node, mergeEdge_nodes]
      tauto

end Writes

end OdooSemantic.Neo4j.CoreSymbols
