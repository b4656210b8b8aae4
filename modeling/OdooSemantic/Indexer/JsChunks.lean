import OdooSemantic.Lib.Utf8
import OdooSemantic.Lib.Windows
import OdooSemantic.Prune.Judge

/-!
# JavaScript chunks

The era chunkers walk the syntax tree of a file, pick the nodes of their era and
cut the text of each into chunks. The tree counts in bytes; the text the chunks
are cut from is the decoded file and counts in characters.
-/

namespace OdooSemantic.Indexer.JsChunks

open Lib.Utf8 Lib.Windows
open Prune (stem)

abbrev Text := List Char

/-- `_WINDOW` and `_OVERLAP`. -/
def sizes : Sizes where
  window := 2048
  overlap := 256
  advances := by decide

/-- What the parser reports of a node of the syntax tree. -/
structure Node where
  type : String
  startByte : Nat
  endByte : Nat
  children : List Node

inductive Era where
  | era1
  | era2
  | era3
  deriving DecidableEq

structure JSChunk where
  module : String
  odooVersion : String
  filePath : String
  era : Era
  entityName : Text
  chunkIdx : Nat
  content : Text

structure ModuleInfo where
  name : String
  odooVersion : String

mutual
/-- `_walk`: each node, with its parent. -/
def walk (parent : Option Node) (node : Node) : List (Node × Option Node) :=
  match node with
  | ⟨type, startByte, endByte, children⟩ =>
      (⟨type, startByte, endByte, children⟩, parent) ::
        walkAll (some ⟨type, startByte, endByte, children⟩) children

def walkAll (parent : Option Node) (nodes : List Node) : List (Node × Option Node) :=
  match nodes with
  | [] => []
  | first :: others => walk parent first ++ walkAll parent others
end

def findFirstChildByType (node : Node) (type : String) : Option Node :=
  node.children.find? fun child => child.type == type

section Entities
variable (source : List UInt8) (filePath : String)

/-- `source[node.start_byte:node.end_byte]`. -/
def nodeBytes (node : Node) : List UInt8 :=
  slice source node.startByte node.endByte

def nodeText (node : Node) : Text := decodeIgnore (nodeBytes source node)

/-- Whether the node is written with the letters of `word`. -/
def isWord (node : Node) (word : String) : Bool :=
  nodeBytes source node == word.toList.map fun char => UInt8.ofNat char.toNat

/-- `text.split(".")[-1]`. -/
def lastPart (text : Text) : Text := (text.splitOn '.').getLastD []

/-- `text.strip` of the three quotes. -/
def stripQuotes (text : Text) : Text :=
  let quote := fun char => "\"'`".toList.contains char
  ((text.dropWhile quote).reverse.dropWhile quote).reverse

/-- Era 1: `X.extend(…)`, named after what it is assigned to. -/
def era1Entity (node : Node) (parent : Option Node) : Option Text :=
  if node.type != "call_expression" then none
  else match findFirstChildByType node "member_expression" with
    | none => none
    | some func =>
        match findFirstChildByType func "property_identifier" with
        | none => none
        | some prop =>
            if isWord source prop "extend" then
              match parent with
              | none => some "widget".toList
              | some parent =>
                  if parent.type == "assignment_expression" then
                    match (findFirstChildByType parent "member_expression").or
                        (findFirstChildByType parent "identifier") with
                    | some left => some (lastPart (nodeText source left))
                    | none => some "widget".toList
                  else if parent.type == "variable_declarator" then
                    match findFirstChildByType parent "identifier" with
                    | some idNode => some (nodeText source idNode)
                    | none => some "widget".toList
                  else some "widget".toList
            else none

/-- Era 2: `odoo.define(…)`, named after its first string. -/
def era2Entity (node : Node) : Option Text :=
  if node.type != "call_expression" then none
  else match findFirstChildByType node "member_expression" with
    | none => none
    | some func =>
        match findFirstChildByType func "identifier",
            findFirstChildByType func "property_identifier" with
        | some obj, some prop =>
            if isWord source obj "odoo" && isWord source prop "define" then
              match findFirstChildByType node "arguments" with
              | none => some (stem filePath).toList
              | some args =>
                  match args.children.find? fun child =>
                      child.type == "string" || child.type == "template_string" with
                  | none => some (stem filePath).toList
                  | some string => some (lastPart (stripQuotes (nodeText source string)))
            else none
        | _, _ => none

/-- The target of `patch(target, …)`. -/
def patchTarget (args : Node) : Text :=
  match args.children.find? fun child => !(["," , "(", ")"].contains child.type) with
  | none => (stem filePath).toList
  | some firstArg =>
      if firstArg.type == "member_expression" then
        match findFirstChildByType firstArg "identifier" with
        | some obj => nodeText source obj
        | none => (stem filePath).toList
      else if firstArg.type == "identifier" then
        nodeText source firstArg
      else
        (stem filePath).toList

/-- Era 3: a class, or `patch(…)` named after its target. -/
def era3Entity (node : Node) : Option Text :=
  if node.type == "class_declaration" then
    match findFirstChildByType node "identifier" with
    | some name => some (nodeText source name)
    | none => some (stem filePath).toList
  else if node.type == "call_expression" then
    match findFirstChildByType node "identifier" with
    | none => none
    | some func =>
        if isWord source func "patch" then
          match findFirstChildByType node "arguments" with
          | none => some (stem filePath).toList
          | some args => some (patchTarget source filePath args)
        else none
  else none

def entityName (era : Era) (node : Node) (parent : Option Node) : Option Text :=
  match era with
  | .era1 => era1Entity source node parent
  | .era2 => era2Entity source filePath node
  | .era3 => era3Entity source filePath node

/-- A node the chunker of an era takes, and the name its chunks get. -/
structure Selected where
  node : Node
  entityName : Text

def selected (era : Era) (root : Node) : List Selected :=
  (walk none root).filterMap fun visited =>
    (entityName source filePath era visited.1 visited.2).map (⟨visited.1, ·⟩)

end Entities

section Chunks
variable (parse : List UInt8 → Node) (source : List UInt8) (info : ModuleInfo)
variable (filePath : String) (era : Era)

def chunkAt (entityName : Text) (window : Nat × Text) : JSChunk :=
  ⟨info.name, info.odooVersion, filePath, era, entityName, window.1, window.2⟩

def slidingChunks (content entityName : Text) : List JSChunk :=
  (windowsFrom sizes content 0 0).map (chunkAt info filePath era entityName)

/-- The chunks of one selected node: `src_str[node.start_byte:node.end_byte]`, in windows
when it is long. -/
def nodeChunks (picked : Selected) : List JSChunk :=
  let srcStr := decodeIgnore source
  let content := slice srcStr picked.node.startByte picked.node.endByte
  if content.length ≤ sizes.window then
    [chunkAt info filePath era picked.entityName (0, content)]
  else
    slidingChunks info filePath era content picked.entityName

/-- `_parse_era1`, `_parse_era2`, `_parse_era3`: a file with nothing selected is one long
text. -/
def parseEra : List JSChunk :=
  let chunks := (selected source filePath era (parse source)).flatMap
    (nodeChunks source info filePath era)
  if chunks.isEmpty then
    slidingChunks info filePath era (decodeIgnore source) (stem filePath).toList
  else chunks

end Chunks

/-- `needle in text`. -/
def contains (text : Text) (needle : String) : Bool :=
  decide (needle.toList <:+: text)

/-- The bytes of a node lie in the file and cut no character. -/
structure RangeCorrect (source : List UInt8) (node : Node) : Prop where
  ordered : node.startByte ≤ node.endByte
  inside : node.endByte ≤ source.length
  opens : utf8.between source node.startByte = true
  closes : utf8.between source node.endByte = true

def rejoined (chunks : List JSChunk) : Text :=
  rejoin sizes (chunks.map fun chunk => (chunk.chunkIdx, chunk.content))

def bytesBefore (source : List UInt8) (node : Node) : List UInt8 := source.take node.startByte

def textAfter (source : List UInt8) (node : Node) : Text :=
  decodeIgnore (source.drop node.endByte)

/-- How many positions the characters before a node are behind its bytes. -/
def lag (source : List UInt8) (node : Node) : Nat :=
  node.startByte - (decodeIgnore (bytesBefore source node)).length

/-- Nothing but ASCII stands before the node, and inside it unless the file ends with it; or
the text goes on after the node as if it began again after as many characters as are lost
before it, and the node is ASCII or no more than these follow. -/
def Aligned (source : List UInt8) (node : Node) : Prop :=
  (Ascii (bytesBefore source node) ∧
    (Ascii (nodeBytes source node) ∨ textAfter source node = [])) ∨
  (¬ Ascii (bytesBefore source node) ∧
    nodeText source node <+:
      (nodeText source node ++ textAfter source node).drop (lag source node) ∧
    (Ascii (nodeBytes source node) ∨ (textAfter source node).length ≤ lag source node))

section Content
variable {source : List UInt8} {node : Node}

theorem length_bytesBefore (range : RangeCorrect source node) :
    (bytesBefore source node).length = node.startByte := by
  have ordered := range.ordered
  have inside := range.inside
  rw [bytesBefore, List.length_take]
  omega

theorem length_nodeBytes (range : RangeCorrect source node) :
    (nodeBytes source node).length = node.endByte - node.startByte := by
  have inside := range.inside
  rw [nodeBytes, length_slice]
  omega

theorem decoded_parts (range : RangeCorrect source node) :
    decodeIgnore source = decodeIgnore (bytesBefore source node) ++
      (nodeText source node ++ textAfter source node) :=
  Lib.Decoding.Code.decode_parts range.opens range.closes range.ordered range.inside

theorem content_eq (range : RangeCorrect source node) :
    slice (decodeIgnore source) node.startByte node.endByte =
      ((nodeText source node ++ textAfter source node).drop (lag source node)).take
        (node.endByte - node.startByte) := by
  have fewer := length_decodeIgnore_le (bytesBefore source node)
  have before := length_bytesBefore range
  have start : node.startByte =
      (decodeIgnore (bytesBefore source node)).length + lag source node := by
    rw [lag]
    omega
  rw [slice, decoded_parts range]
  congr 1
  nth_rewrite 1 [start]
  rw [← List.drop_drop, List.drop_left]

theorem lag_eq_zero_iff (range : RangeCorrect source node) :
    lag source node = 0 ↔ Ascii (bytesBefore source node) := by
  have fewer := length_decodeIgnore_le (bytesBefore source node)
  have before := length_bytesBefore range
  rw [← length_decodeIgnore_eq_iff, lag]
  omega

/-- A stretch of a text longer than `node` is `node` exactly when the text is. -/
theorem take_eq_iff {text part : Text} {bound : Nat} (shorter : part.length < bound) :
    text.take bound = part ↔ text = part := by
  constructor
  · intro same
    have length : min bound text.length = part.length := by
      rw [← same, List.length_take]
    rw [← same, List.take_of_length_le (by omega)]
  · intro same
    rw [same, List.take_of_length_le (by omega)]

theorem content_exact_iff (range : RangeCorrect source node) :
    slice (decodeIgnore source) node.startByte node.endByte = nodeText source node ↔
      nodeText source node <+:
        (nodeText source node ++ textAfter source node).drop (lag source node) ∧
      (Ascii (nodeBytes source node) ∨
        (textAfter source node).length ≤ lag source node) := by
  have bytes := length_nodeBytes range
  rw [content_eq range]
  by_cases ascii : Ascii (nodeBytes source node)
  · have same : node.endByte - node.startByte = (nodeText source node).length := by
      rw [← bytes]
      exact ((length_decodeIgnore_eq_iff _).mpr ascii).symm
    rw [same, List.prefix_iff_eq_take]
    exact ⟨fun equal => ⟨equal.symm, .inl ascii⟩, fun both => both.1.symm⟩
  · have fewer : (nodeText source node).length < node.endByte - node.startByte := by
      have most := length_decodeIgnore_le (nodeBytes source node)
      have differ : (nodeText source node).length ≠ (nodeBytes source node).length := by
        intro equal
        exact ascii ((length_decodeIgnore_eq_iff _).mp equal)
      have bound : (nodeText source node).length ≤ (nodeBytes source node).length := most
      omega
    rw [take_eq_iff fewer]
    have length : ((nodeText source node ++ textAfter source node).drop
        (lag source node)).length = (nodeText source node).length +
          (textAfter source node).length - lag source node := by
      rw [List.length_drop, List.length_append]
    constructor
    · intro equal
      rw [equal] at length
      refine ⟨by rw [equal], .inr ?_⟩
      by_cases empty : (nodeText source node).length = 0
      · omega
      · omega
    · intro both
      obtain ⟨starts, either⟩ := both
      obtain short := either.resolve_left ascii
      exact (starts.eq_of_length_le (by omega)).symm

theorem content_eq_iff_aligned (range : RangeCorrect source node) :
    slice (decodeIgnore source) node.startByte node.endByte = nodeText source node ↔
      Aligned source node := by
  rw [content_exact_iff range, Aligned]
  by_cases ascii : Ascii (bytesBefore source node)
  · have none := (lag_eq_zero_iff range).mpr ascii
    rw [none, List.drop_zero, Nat.le_zero, List.length_eq_zero_iff]
    constructor
    · intro both
      exact .inl ⟨ascii, both.2⟩
    · intro either
      obtain ⟨-, inner⟩ | ⟨other, -⟩ := either
      · exact ⟨List.prefix_append _ _, inner⟩
      · exact absurd ascii other
  · constructor
    · intro both
      exact .inr ⟨ascii, both⟩
    · intro either
      obtain ⟨other, -⟩ | ⟨-, both⟩ := either
      · exact absurd other ascii
      · exact both

end Content

section Emitted
variable (parse : List UInt8 → Node) (source : List UInt8) (info : ModuleInfo)
variable (filePath : String) (era : Era)

theorem nodeChunks_eq (picked : Selected) :
    nodeChunks source info filePath era picked =
      (cut sizes (slice (decodeIgnore source) picked.node.startByte picked.node.endByte)).map
        (chunkAt info filePath era picked.entityName) := by
  simp only [nodeChunks, cut, slidingChunks]
  split
  · rfl
  · rfl

theorem rejoined_nodeChunks (picked : Selected) :
    rejoined (nodeChunks source info filePath era picked) =
      slice (decodeIgnore source) picked.node.startByte picked.node.endByte := by
  have pairs : ∀ windows : List (Nat × Text),
      (windows.map (chunkAt info filePath era picked.entityName)).map
        (fun chunk => (chunk.chunkIdx, chunk.content)) = windows := by
    intro windows
    rw [List.map_map]
    exact List.map_id _
  rw [rejoined, nodeChunks_eq, pairs, rejoin_cut]

variable {source filePath era} in
theorem selected_visited {root : Node} {picked : Selected}
    (chosen : picked ∈ selected source filePath era root) :
    ∃ parent, (picked.node, parent) ∈ walk none root := by
  rw [selected, List.mem_filterMap] at chosen
  obtain ⟨visited, walked, named⟩ := chosen
  rw [Option.map_eq_some_iff] at named
  obtain ⟨name, -, same⟩ := named
  rw [← same]
  exact ⟨visited.2, walked⟩

theorem nodeChunks_emitted {picked : Selected}
    (chosen : picked ∈ selected source filePath era (parse source)) :
    nodeChunks source info filePath era picked <:+: parseEra parse source info filePath era := by
  obtain ⟨front, back, split⟩ := List.append_of_mem chosen
  have some : nodeChunks source info filePath era picked ≠ [] := by
    rw [nodeChunks_eq]
    intro none
    exact cut_ne_nil _ (List.map_eq_nil_iff.mp none)
  have filled : ((selected source filePath era (parse source)).flatMap
      (nodeChunks source info filePath era)).isEmpty = false := by
    rw [List.isEmpty_eq_false_iff, split, List.flatMap_append, List.flatMap_cons]
    intro none
    exact some (List.append_eq_nil_iff.mp (List.append_eq_nil_iff.mp none).2).1
  simp only [parseEra, filled]
  refine ⟨front.flatMap (nodeChunks source info filePath era),
    back.flatMap (nodeChunks source info filePath era), ?_⟩
  rw [split, List.flatMap_append, List.flatMap_cons, List.append_assoc]
  rfl

/-- Whatever the file, the era and the tree, the chunks of a selected node with the overlap
removed are its source text exactly when the positions of the two agree. -/
theorem node_chunks_exact_iff
    (ranges : ∀ visited ∈ walk none (parse source), RangeCorrect source visited.1) :
    ∀ picked ∈ selected source filePath era (parse source),
      nodeChunks source info filePath era picked <:+: parseEra parse source info filePath era ∧
      (rejoined (nodeChunks source info filePath era picked) = nodeText source picked.node ↔
        Aligned source picked.node) := by
  intro picked chosen
  obtain ⟨parent, walked⟩ := selected_visited chosen
  refine ⟨nodeChunks_emitted parse source info filePath era chosen, ?_⟩
  rw [rejoined_nodeChunks, content_eq_iff_aligned (ranges _ walked)]

end Emitted

instance (source : List UInt8) (node : Node) : Decidable (RangeCorrect source node) :=
  decidable_of_iff (node.startByte ≤ node.endByte ∧ node.endByte ≤ source.length ∧
      utf8.between source node.startByte = true ∧ utf8.between source node.endByte = true)
    ⟨fun all => ⟨all.1, all.2.1, all.2.2.1, all.2.2.2⟩,
      fun range => ⟨range.ordered, range.inside, range.opens, range.closes⟩⟩

/-- `/*é*/var A = B.extend();`, the accent in two bytes. -/
def accentedFile : List UInt8 :=
  [0x2F, 0x2A, 0xC3, 0xA9, 0x2A, 0x2F] ++
    "var A = B.extend();".toList.map fun char => UInt8.ofNat char.toNat

def accentedTree : Node :=
  ⟨"program", 0, 25, [
    ⟨"comment", 0, 6, []⟩,
    ⟨"variable_declaration", 6, 25, [
      ⟨"var", 6, 9, []⟩,
      ⟨"variable_declarator", 10, 24, [
        ⟨"identifier", 10, 11, []⟩,
        ⟨"=", 12, 13, []⟩,
        ⟨"call_expression", 14, 24, [
          ⟨"member_expression", 14, 22, [
            ⟨"identifier", 14, 15, []⟩,
            ⟨".", 15, 16, []⟩,
            ⟨"property_identifier", 16, 22, []⟩]⟩,
          ⟨"arguments", 22, 24, [⟨"(", 22, 23, []⟩, ⟨")", 23, 24, []⟩]⟩]⟩]⟩,
      ⟨";", 24, 25, []⟩]⟩]⟩

def webModule : ModuleInfo := ⟨"web", "12.0"⟩

theorem accentedRanges :
    ∀ visited ∈ walk none accentedTree, RangeCorrect accentedFile visited.1 := by
  decide +kernel

theorem accented_chunks_exact_iff :
    (∀ visited ∈ walk none accentedTree, RangeCorrect accentedFile visited.1) ∧
    ∀ picked ∈ selected accentedFile "web/a.js" .era1 accentedTree,
      nodeChunks accentedFile webModule "web/a.js" .era1 picked <:+:
        parseEra (fun _ => accentedTree) accentedFile webModule "web/a.js" .era1 ∧
      (rejoined (nodeChunks accentedFile webModule "web/a.js" .era1 picked) =
        nodeText accentedFile picked.node ↔ Aligned accentedFile picked.node) :=
  ⟨accentedRanges, node_chunks_exact_iff (fun _ => accentedTree) accentedFile webModule
    "web/a.js" .era1 accentedRanges⟩

/-- The chunk begins and ends one character too far. -/
theorem accented_comment_shifts :
    (∀ visited ∈ walk none accentedTree, RangeCorrect accentedFile visited.1) ∧
    ¬ ∀ picked ∈ selected accentedFile "web/a.js" .era1 accentedTree,
      rejoined (nodeChunks accentedFile webModule "web/a.js" .era1 picked) =
        nodeText accentedFile picked.node := by
  refine ⟨accentedRanges, ?_⟩
  decide +kernel

end OdooSemantic.Indexer.JsChunks
