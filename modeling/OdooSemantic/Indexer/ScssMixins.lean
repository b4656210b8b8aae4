import OdooSemantic.Indexer.ScssHeaders

/-!
# The mixins of a stylesheet

What the parser makes of the definition of a mixin. The header pattern and the counter of
braces read the plain text; a stylesheet has strings, comments and nested brackets in it.
-/

namespace OdooSemantic.Indexer.ScssMixins

open Lib.Nesting Lib.Scan Lib.Windows
open Indexer.ScssHeaders Indexer.ScssParser
open Indexer.EmbeddingChunks (ChunkKind SCSSChunk)
open Indexer.JsChunks (Text sizes)

/-! ## Stylesheets -/

inductive Gap : Text → Prop where
  | nothing : Gap []
  | blank {char : Char} {rest : Text} (isBlank : blanks.contains char = true) (gap : Gap rest) :
      Gap (char :: rest)
  | block {inner rest : Text} (open_ : ¬ ['*', '/'] <:+: inner) (gap : Gap rest) :
      Gap ('/' :: '*' :: (inner ++ '*' :: '/' :: rest))
  | line {inner rest : Text} (sameLine : '\n' ∉ inner) (gap : Gap rest) :
      Gap ('/' :: '/' :: (inner ++ '\n' :: rest))

/-- What begins neither a string, a comment, an escape nor brackets. -/
def plainChar (char : Char) : Bool := !(quote char || "/\\(){}".toList.contains char)

def addressChar (char : Char) : Bool :=
  !(quote char || "\\()".toList.contains char || blanks.contains char)

mutual
inductive Code : Text → Prop where
  | nothing : Code []
  | plain {char : Char} {rest : Text} (isPlain : plainChar char = true) (code : Code rest) :
      Code (char :: rest)
  | escaped {char : Char} {rest : Text} (code : Code rest) : Code ('\\' :: char :: rest)
  | slash {rest : Text} (noComment : ∀ char, rest.head? = some char → char ≠ '/' ∧ char ≠ '*')
      (code : Code rest) : Code ('/' :: rest)
  | block {inner rest : Text} (open_ : ¬ ['*', '/'] <:+: inner) (code : Code rest) :
      Code ('/' :: '*' :: (inner ++ '*' :: '/' :: rest))
  | line {inner rest : Text} (sameLine : '\n' ∉ inner) (code : Code rest) :
      Code ('/' :: '/' :: (inner ++ '\n' :: rest))
  | string {mark : Char} {inner rest : Text} (isQuote : quote mark = true)
      (quoted : Quoted mark inner) (code : Code rest) : Code (mark :: (inner ++ mark :: rest))
  | address {inner rest : Text} (isAddress : ∀ char ∈ inner, addressChar char = true)
      (code : Code rest) : Code ("url(".toList ++ (inner ++ ')' :: rest))
  | parens {inner rest : Text} (inside : Code inner) (code : Code rest) :
      Code ('(' :: (inner ++ ')' :: rest))
  | braces {inner rest : Text} (inside : Code inner) (code : Code rest) :
      Code ('{' :: (inner ++ '}' :: rest))

/-- The inside of a string, with what is interpolated. -/
inductive Quoted : Char → Text → Prop where
  | nothing {mark : Char} : Quoted mark []
  | plain {mark char : Char} {rest : Text} (inner : char ≠ mark) (noEscape : char ≠ '\\')
      (sameLine : char ≠ '\n') (quoted : Quoted mark rest) : Quoted mark (char :: rest)
  | escaped {mark char : Char} {rest : Text} (quoted : Quoted mark rest) :
      Quoted mark ('\\' :: char :: rest)
  | interpolated {mark : Char} {inner rest : Text} (code : Code inner)
      (quoted : Quoted mark rest) : Quoted mark ('#' :: '{' :: (inner ++ '}' :: rest))
end

/-- What a place in a stylesheet has before and after it, outside of strings and comments and
inside the blocks that are open there. The last line may end in a comment. -/
inductive Context : Text → Text → Prop where
  | top {before after comment : Text} (codeBefore : Code before) (codeAfter : Code after)
      (isComment : comment = [] ∨ ∃ inner, comment = '/' :: '/' :: inner ∧ '\n' ∉ inner) :
      Context before (after ++ comment)
  | inside {before after lead trail : Text} (context : Context before after) (code : Code lead)
      (codeAfter : Code trail) : Context (before ++ '{' :: lead) (trail ++ '}' :: after)

def StartsStatement (before : Text) : Prop :=
  ∃ code gap, before = code ++ gap ∧ Gap gap ∧
    ∀ char, code.getLast? = some char → ";{}".toList.contains char = true

def identifierChar (char : Char) : Bool :=
  char.isAlphanum || char == '_' || char == '-' || decide (0x80 ≤ char.toNat)

inductive Identifier : Text → Prop where
  | nothing : Identifier []
  | plain {char : Char} {rest : Text} (isChar : identifierChar char = true)
      (identifier : Identifier rest) : Identifier (char :: rest)
  | escaped {char : Char} {rest : Text} (identifier : Identifier rest) :
      Identifier ('\\' :: char :: rest)

/-- What stands between the name of a mixin and its body. -/
inductive Signature : Text → Prop where
  | bare {gap : Text} (isGap : Gap gap) : Signature gap
  | params {gap inner last : Text} (isGap : Gap gap) (code : Code inner) (isLast : Gap last) :
      Signature (gap ++ '(' :: (inner ++ ')' :: last))

structure MixinDefinition where
  before : Text
  gap : Text
  name : Text
  signature : Text
  body : Text
  after : Text
  context : Context before after
  starts : StartsStatement before
  isGap : Gap gap
  gapSome : gap ≠ []
  isName : Identifier name
  nameSome : name ≠ []
  isSignature : Signature signature
  isBody : Code body

namespace MixinDefinition
variable (definition : MixinDefinition)

/-- What follows the name: the parameters and the body with its braces. -/
def rest : Text := definition.signature ++ '{' :: (definition.body ++ ['}'])

def text : Text :=
  "@mixin".toList ++ (definition.gap ++ (definition.name ++ definition.rest))

/-- The stylesheet the definition stands in. -/
def source : Text := definition.before ++ (definition.text ++ definition.after)

end MixinDefinition

section Entities
variable (tables : CharTables) (module version filePath : String)

def mixinEntities (src : Text) : List (Nat × List SCSSChunk) :=
  (finditer (mixinDef tables) src).map fun found =>
    (found.1, mixinChunks tables src module version filePath found)

def rejoined (chunks : List SCSSChunk) : Text :=
  rejoin sizes (chunks.map fun chunk => (chunk.chunkIdx, chunk.content))

def Covered (definition : MixinDefinition) : Prop :=
  ∃ chunks,
    (mixinEntities tables module version filePath definition.source).filter
      (fun entity => entity.1 == definition.before.length) =
        [(definition.before.length, chunks)] ∧
    (∀ chunk ∈ chunks, chunk.chunkKind = .mixin ∧
      chunk.entityName = String.ofList definition.name) ∧
    rejoined chunks = definition.text

def CountsOut (counted after : Text) : Prop :=
  StaysOpen '{' '}' 1 1 counted ∨
    (after = [] ∧ ∀ count, 0 < 1 + net '{' '}' ((counted ++ ['}']).take count))

structure Readable (definition : MixinDefinition) : Prop where
  blankGap : AllSpace tables definition.gap
  plainName : ∀ char ∈ definition.name, tables.nameChar char = true
  counted : ∃ gap params counted, AllSpace tables gap ∧ Params tables params ∧
    definition.rest = gap ++ (params ++ '{' :: (counted ++ ['}'])) ∧
      CountsOut counted definition.after

variable {tables module version filePath}

def block (after : Text) : Text :=
  match closeAt '{' '}' 1 after with
  | some len => '{' :: after.take len
  | none => '{' :: after

theorem extractBlock_brace {src after : Text} {start : Nat} (split : src.drop start = '{' :: after) :
    (extractBlock src start).1 = block after := by
  have opens : closeAt '{' '}' 0 ('{' :: after) = (closeAt '{' '}' 1 after).map (· + 1) := by
    rw [closeAt, if_pos rfl, Int.zero_add]
  rw [extractBlock, split, opens, block]
  cases closeAt '{' '}' 1 after with
  | some len | none => rfl

theorem mixinName_header {header : Header} (fits : header.Fits tables) :
    mixinName tables header.text = header.name := by
  have parts : header.text.drop 6 = header.blank ++ (header.name ++ (header.gap ++
      (header.params ++ ['{']))) := by
    rw [← List.append_nil header.text, Header.text_append]
    rfl
  have past := (split_run fits.blankSpace
    (@name_stops tables _ (header.gap ++ (header.params ++ ['{'])) fits.nameSome
      fits.nameChars)).2
  have taken := (split_run fits.nameChars
    (@tail_stops tables _ _ [] fits.gapSpace fits.params)).1
  rw [mixinName, parts, past, taken]

theorem mixinChunks_header {header : Header} (fits : header.Fits tables) {src after : Text}
    {start : Nat} (split : src.drop start = header.text ++ after) :
    mixinChunks tables src module version filePath (start, header.text.length) =
      emit module version filePath (header.lead ++ block after) .mixin header.name := by
  have length : header.text.length = header.lead.length + 1 := by
    rw [Header.text, List.length_append, List.length_singleton]
  have matched : group src (start, header.text.length) = header.text := by
    rw [group, split, List.take_left]
  have brace : src.drop (start + header.text.length - 1) = '{' :: after := by
    have position : start + header.text.length - 1 = start + header.lead.length := by omega
    rw [position, ← List.drop_drop, split, Header.text, List.append_assoc, List.drop_left]
    rfl
  have lead : header.text.take (header.text.length - 1) = header.lead := by
    rw [length, Nat.add_sub_cancel, Header.text, List.take_left]
  simp only [mixinChunks, matched, mixinName_header fits, lead, extractBlock_brace brace]

theorem rejoined_emit (content : Text) (kind : ChunkKind) (name : Text) :
    rejoined (emit module version filePath content kind name) = content := by
  have pairs : ((fun chunk : SCSSChunk => (chunk.chunkIdx, chunk.content)) ∘
      fun window : Nat × Text => (⟨module, version, filePath, kind, String.ofList name,
        window.1, window.2⟩ : SCSSChunk)) = id := rfl
  rw [rejoined, emit, List.map_map, pairs, List.map_id, rejoin_cut]

theorem emit_named {content name other : Text} {kind : ChunkKind} :
    (∀ chunk ∈ emit module version filePath content kind name,
      chunk.chunkKind = kind ∧ chunk.entityName = String.ofList other) ↔ name = other := by
  constructor
  · intro all
    obtain ⟨window, others, parts⟩ := List.exists_cons_of_ne_nil (@cut_ne_nil _ sizes content)
    have named := all ⟨module, version, filePath, kind, String.ofList name, window.1, window.2⟩ (by
      rw [emit, parts]
      exact List.mem_cons_self)
    exact String.ofList_injective named.2
  · intro same chunk listed
    rw [emit, List.mem_map] at listed
    obtain ⟨window, -, made⟩ := listed
    rw [← made, same]
    exact ⟨rfl, rfl⟩

theorem block_iff {lead after text others front : Text}
    (same : (lead ++ ['{']) ++ after = text ++ others) (closed : text = front ++ ['}']) :
    lead ++ block after = text ↔
      ∃ counted, text = lead ++ '{' :: (counted ++ ['}']) ∧ CountsOut counted others := by
  have apart : ('{' : Char) ≠ '}' := by decide
  have joined : lead ++ '{' :: after = text ++ others := by
    rw [← same, List.append_assoc]
    rfl
  constructor
  · intro whole
    rw [block] at whole
    cases found : closeAt '{' '}' 1 after with
    | some len =>
        obtain ⟨counted, back, split, length⟩ := closeAt_some found
        have taken : after.take len = counted ++ ['}'] := by
          rw [split, length, List.append_cons, List.take_left' (by simp)]
        simp only [found, taken] at whole
        have rest : back = others := by
          rw [← whole, split, List.append_assoc] at joined
          have tails := (List.cons_eq_cons.mp (List.append_cancel_left joined)).2
          rw [List.append_cons] at tails
          exact List.append_cancel_left tails
        refine ⟨counted, whole.symm, .inl ?_⟩
        rw [← closeAt_append_iff apart Int.one_pos counted back, ← split, found, length]
    | none =>
        simp only [found] at whole
        have rest : others = [] := by
          rw [whole] at joined
          exact List.self_eq_append_right.mp joined
        obtain none | ⟨counted, last, split⟩ := List.eq_nil_or_concat after
        · rw [none, closed] at whole
          have lasts := (List.append_inj' whole rfl).2
          cases lasts
        · rw [List.concat_eq_append] at split
          have ends : (lead ++ '{' :: counted) ++ [last] = front ++ ['}'] := by
            rw [← closed, ← whole, split, List.append_assoc]
            rfl
          have isBrace : last = '}' := List.singleton_inj.mp (List.append_inj' ends rfl).2
          rw [isBrace] at split
          rw [split] at whole found
          exact ⟨counted, whole.symm, .inr ⟨rest, (closeAt_none_iff Int.one_pos _).mp found⟩⟩
  · intro given
    obtain ⟨counted, parts, counts⟩ := given
    have afterIs : after = counted ++ '}' :: others := by
      rw [parts, List.append_assoc] at joined
      have rests := (List.cons_eq_cons.mp (List.append_cancel_left joined)).2
      rw [rests, List.append_eq, List.append_assoc]
      rfl
    rw [block, afterIs]
    obtain stays | ⟨none, above⟩ := counts
    · have length : (counted ++ ['}']).length = counted.length + 1 := by
        rw [List.length_append, List.length_singleton]
      have taken : (counted ++ '}' :: others).take (counted.length + 1) = counted ++ ['}'] := by
        rw [List.append_cons, List.take_left' length]
      rw [(closeAt_append_iff apart Int.one_pos counted others).mpr stays, parts]
      dsimp only
      rw [taken]
    · have never : closeAt '{' '}' 1 (counted ++ ['}']) = .none :=
        (closeAt_none_iff Int.one_pos _).mpr above
      rw [none, never, parts]

/-- Blanks up to the first comment. -/
theorem gap_split {text : Text} (gap : Gap text) :
    AllSpace tables text ∨
      ∃ blank rest, text = blank ++ '/' :: rest ∧ AllSpace tables blank := by
  have empty : AllSpace tables [] := fun _ listed => absurd listed List.not_mem_nil
  induction gap with
  | nothing => exact .inl empty
  | @blank char rest isBlank gap ih =>
      have space := tables.blank_space char isBlank
      have more : ∀ {others : Text}, AllSpace tables others → AllSpace tables (char :: others) := by
        intro others all other listed
        obtain same | later := List.mem_cons.mp listed
        · rw [same]
          exact space
        · exact all other later
      obtain all | ⟨lead, tail, split, all⟩ := ih
      · exact .inl (more all)
      · exact .inr ⟨char :: lead, tail, by rw [split, List.cons_append], more all⟩
  | block open_ gap ih | line sameLine gap ih => exact .inr ⟨[], _, rfl, empty⟩

theorem definition_starts (definition : MixinDefinition) :
    ∃ rest, definition.text ++ definition.after = '@' :: rest := ⟨_, rfl⟩

theorem definition_closed (definition : MixinDefinition) :
    ∃ front, definition.text = front ++ ['}'] := by
  refine ⟨"@mixin".toList ++ (definition.gap ++ (definition.name ++
    (definition.signature ++ '{' :: definition.body))), ?_⟩
  rw [MixinDefinition.text, MixinDefinition.rest]
  simp only [List.append_assoc, List.cons_append]

theorem source_drop (definition : MixinDefinition) :
    definition.source.drop definition.before.length = definition.text ++ definition.after :=
  List.drop_left

theorem header_of_definition {definition : MixinDefinition} {header : Header} {after : Text}
    (fits : header.Fits tables) (named : header.name = definition.name)
    (same : header.text ++ after = definition.text ++ definition.after) :
    header.blank = definition.gap ∧ header.gap ++ (header.params ++ '{' :: after) =
      definition.rest ++ definition.after := by
  rw [Header.text_append, named, MixinDefinition.text] at same
  simp only [List.append_assoc] at same
  have parts := List.append_cancel_left same
  have chars := fits.nameChars
  rw [named] at chars
  have stops : ∀ {others : Text} (char : Char), (definition.name ++ others).head? = some char →
      tables.space char = false :=
    fun char => name_stops definition.nameSome chars char
  obtain all | ⟨blank, rest, split, all⟩ := @gap_split tables _ definition.isGap
  · obtain ⟨sameBlank, names⟩ := run_unique parts fits.blankSpace all stops stops
    exact ⟨sameBlank, List.append_cancel_left names⟩
  · rw [split, List.append_assoc] at parts
    obtain ⟨-, heads⟩ := run_unique parts fits.blankSpace all stops
      (space_stops (tables.punctuation_space '/' (by decide)))
    obtain ⟨first, others, nameParts⟩ := List.exists_cons_of_ne_nil definition.nameSome
    rw [nameParts] at heads
    have isSlash : first = '/' := (List.cons_eq_cons.mp heads).1
    have isName := chars first (by rw [nameParts]; exact List.mem_cons_self)
    rw [isSlash, punctuation_nameChar (by decide) (by decide)] at isName
    cases isName

theorem mem_mixinDef {src : Text} {start len : Nat} :
    (start, len) ∈ finditer (mixinDef tables) src ↔
      start < src.length ∧ matchLen (mixinDef tables) src start = some len ∧
        ¬ ∃ earlier other, earlier < start ∧
          matchLen (mixinDef tables) src earlier = some other ∧ start < earlier + other := by
  refine mem_finditer (fun position len found => ?_) (fun _ _ _ _ => mixinDef_nested)
  obtain ⟨header, -, -, -, length⟩ := matchLen_iff.mp found
  rw [← length, Header.text, List.length_append, List.length_singleton]
  exact Nat.succ_pos _

theorem entities_filter {src : Text} {start len : Nat}
    (found : (start, len) ∈ finditer (mixinDef tables) src) :
    (mixinEntities tables module version filePath src).filter
      (fun entity => entity.1 == start) =
        [(start, mixinChunks tables src module version filePath (start, len))] := by
  have one := filter_scanFrom found
  rw [mixinEntities, List.filter_map]
  have same : ((fun entity : Nat × List SCSSChunk => entity.1 == start) ∘
      fun found : Nat × Nat => (found.1, mixinChunks tables src module version filePath found)) =
        fun found => found.1 == start := rfl
  rw [same, finditer, one]
  rfl

theorem covered_match {definition : MixinDefinition} :
    Covered tables module version filePath definition ↔
      ∃ header : Header, ∃ after, header.Fits tables ∧
        definition.text ++ definition.after = header.text ++ after ∧
        (definition.before.length, header.text.length) ∈
          finditer (mixinDef tables) definition.source ∧
        header.name = definition.name ∧ header.lead ++ block after = definition.text := by
  constructor
  · intro covered
    obtain ⟨chunks, one, named, whole⟩ := covered
    have listed : (definition.before.length, chunks) ∈
        mixinEntities tables module version filePath definition.source :=
      List.mem_of_mem_filter (by rw [one]; exact List.mem_singleton_self _)
    obtain ⟨⟨start, len⟩, found, made⟩ := List.mem_map.mp listed
    obtain ⟨sameStart, sameChunks⟩ := Prod.ext_iff.mp made
    dsimp only at sameStart sameChunks
    rw [sameStart] at found sameChunks
    obtain ⟨-, matched, -⟩ := mem_mixinDef.mp found
    obtain ⟨header, after, fits, split, length⟩ := matchLen_iff.mp matched
    rw [← length] at found sameChunks
    rw [mixinChunks_header fits split] at sameChunks
    rw [← sameChunks] at named whole
    rw [rejoined_emit] at whole
    rw [source_drop] at split
    exact ⟨header, after, fits, split, found, emit_named.mp named, whole⟩
  · intro given
    obtain ⟨header, after, fits, split, found, named, whole⟩ := given
    refine ⟨_, entities_filter found, ?_, ?_⟩
    · rw [mixinChunks_header fits ((source_drop definition).trans split)]
      exact emit_named.mpr named
    · rw [mixinChunks_header fits ((source_drop definition).trans split), rejoined_emit, whole]

/-- The definitions that are covered are those that no earlier header runs over and that the
pattern and the counter read right. -/
theorem covered_iff (definition : MixinDefinition) :
    Covered tables module version filePath definition ↔
      ¬ Spanned tables definition.before (definition.text ++ definition.after) ∧
        Readable tables definition := by
  obtain ⟨rest, starts⟩ := definition_starts definition
  obtain ⟨front, closed⟩ := definition_closed definition
  have source : definition.source = definition.before ++ '@' :: rest := by
    rw [MixinDefinition.source, starts]
  rw [covered_match, starts, ← spanned_iff, ← source, ← starts]
  constructor
  · intro given
    obtain ⟨header, after, fits, split, found, named, whole⟩ := given
    obtain ⟨-, -, free⟩ := mem_mixinDef.mp found
    obtain ⟨sameBlank, rests⟩ := header_of_definition fits named split.symm
    obtain ⟨counted, parts, counts⟩ := (block_iff split.symm closed).mp whole
    refine ⟨free, ⟨by rw [← sameBlank]; exact fits.blankSpace, by
      rw [← named]
      exact fits.nameChars, header.gap, header.params, counted, fits.gapSpace, fits.params, ?_,
      counts⟩⟩
    rw [MixinDefinition.text, Header.lead, sameBlank, named] at parts
    simp only [List.append_assoc] at parts
    exact List.append_cancel_left (List.append_cancel_left (List.append_cancel_left parts))
  · intro given
    obtain ⟨free, readable⟩ := given
    obtain ⟨gap, params, counted, gapSpace, isParams, split, counts⟩ := readable.counted
    have fits : (⟨definition.gap, definition.name, gap, params⟩ : Header).Fits tables :=
      ⟨definition.gapSome, readable.blankGap, definition.nameSome, readable.plainName, gapSpace,
        isParams⟩
    have text : definition.text =
        (⟨definition.gap, definition.name, gap, params⟩ : Header).text ++ (counted ++ ['}']) := by
      rw [Header.text_append, MixinDefinition.text, split]
    have whole : definition.text ++ definition.after =
        (⟨definition.gap, definition.name, gap, params⟩ : Header).text ++
          (counted ++ ['}'] ++ definition.after) := by
      rw [text, List.append_assoc]
    refine ⟨_, _, fits, whole, mem_mixinDef.mpr ⟨?_, matchLen_iff.mpr
      ⟨_, _, fits, (source_drop definition).trans whole, rfl⟩, free⟩, rfl, ?_⟩
    · rw [source, List.length_append, List.length_cons]
      omega
    · refine (block_iff whole.symm closed).mpr ⟨counted, ?_, counts⟩
      rw [text, Header.text, List.append_assoc]
      rfl

/-- What `_emit` makes is all of one kind. -/
theorem emit_kind {content name : Text} {kind : ChunkKind} {chunk : SCSSChunk}
    (made : chunk ∈ emit module version filePath content kind name) : chunk.chunkKind = kind := by
  obtain ⟨window, -, same⟩ := List.mem_map.mp made
  rw [← same]

theorem variableChunks_kind {varBlock lines : List Text} {chunk : SCSSChunk}
    (made : chunk ∈ variableChunks tables module version filePath varBlock lines) :
    chunk.chunkKind = .variableBlock := by
  have flushed : ∀ {held : List Text}, chunk ∈ flushVarBlock module version filePath held →
      chunk.chunkKind = .variableBlock := by
    intro held there
    rw [flushVarBlock] at there
    split at there
    · cases there
    · exact emit_kind there
  induction lines generalizing varBlock with
  | nil => exact flushed made
  | cons line rest ih =>
      rw [variableChunks] at made
      split at made
      · exact ih made
      · split at made
        · obtain here | later := List.mem_append.mp made
          · exact flushed here
          · exact ih later
        · exact ih made

theorem parse_mixin_chunks (resolve : Text → String → Option Text) (src : Text) :
    (parseScssRegex tables resolve src module version filePath).1.filter
      (fun chunk => chunk.chunkKind == .mixin) =
        (mixinEntities tables module version filePath src).flatMap Prod.snd := by
  have others : ∀ {chunks : List SCSSChunk} {kind : ChunkKind},
      (∀ chunk ∈ chunks, chunk.chunkKind = kind) → kind ≠ .mixin →
        chunks.filter (fun chunk => chunk.chunkKind == .mixin) = [] := by
    intro chunks kind all other
    refine List.filter_eq_nil_iff.mpr fun chunk listed same => other ?_
    rw [← all chunk listed]
    exact eq_of_beq same
  have othersOf : ∀ {found : List (Nat × Nat)} {make : Nat × Nat → List SCSSChunk}
      {kind : ChunkKind}, (∀ one, ∀ chunk ∈ make one, chunk.chunkKind = kind) → kind ≠ .mixin →
        (found.flatMap make).filter (fun chunk => chunk.chunkKind == .mixin) = [] := by
    intro found make kind all
    refine others fun chunk listed => ?_
    obtain ⟨one, -, made⟩ := List.mem_flatMap.mp listed
    exact all one chunk made
  have mixins : ((finditer (mixinDef tables) src).flatMap
      (mixinChunks tables src module version filePath)).filter
        (fun chunk => chunk.chunkKind == .mixin) =
          (mixinEntities tables module version filePath src).flatMap Prod.snd := by
    rw [mixinEntities, List.flatMap_map, List.filter_eq_self]
    intro chunk listed
    obtain ⟨one, -, made⟩ := List.mem_flatMap.mp listed
    rw [emit_kind made]
    rfl
  have whole : (constructChunks tables src module version filePath).filter
      (fun chunk => chunk.chunkKind == .mixin) =
        (mixinEntities tables module version filePath src).flatMap Prod.snd := by
    rw [constructChunks]
    simp only [List.filter_append]
    rw [mixins, others (fun _ => variableChunks_kind) (by decide),
      @othersOf _ (importChunks tables src module version filePath) .importRule
        (fun _ _ => emit_kind) (by decide),
      @othersOf _ (includeChunks src module version filePath) .includeRule
        (fun _ _ => emit_kind) (by decide),
      @othersOf _ (extendChunks src module version filePath) .extendRule
        (fun _ _ => emit_kind) (by decide),
      @othersOf _ (mediaChunks tables src module version filePath) .media
        (fun _ _ => emit_kind) (by decide),
      @othersOf _ (selectorChunks tables src module version filePath) .selector
        (fun _ _ => emit_kind) (by decide)]
    simp only [List.nil_append, List.append_nil]
  rw [parseScssRegex]
  dsimp only
  split
  · rename_i empty
    rw [List.isEmpty_iff.mp empty] at whole
    rw [others (fun _ => emit_kind) (by decide), ← whole]
    rfl
  · exact whole

/-- The mixin chunks of a stylesheet are those of its mixin entities, and a definition has one
that covers it exactly when no earlier header runs over it and it is read right. -/
theorem mixin_entities_cover (resolve : Text → String → Option Text)
    (definition : MixinDefinition) :
    (parseScssRegex tables resolve definition.source module version filePath).1.filter
      (fun chunk => chunk.chunkKind == .mixin) =
        (mixinEntities tables module version filePath definition.source).flatMap Prod.snd ∧
    (Covered tables module version filePath definition ↔
      ¬ Spanned tables definition.before (definition.text ++ definition.after) ∧
        Readable tables definition) :=
  ⟨parse_mixin_chunks resolve definition.source, covered_iff definition⟩

end Entities

def asciiTables : CharTables where
  word char := char.isAlphanum || char == '_'
  space := Prune.asciiSpaces.contains
  space_word char isSpace := by
    have apart : Prune.asciiSpaces.all
        (fun other => !(other.isAlphanum || other == '_')) = true := by decide
    have gap := List.all_eq_true.mp apart char (List.contains_iff_mem.mp isSpace)
    simpa only [Bool.not_eq_true'] using gap
  blank_space char isBlank := by
    have all : blanks.all Prune.asciiSpaces.contains = true := by decide
    exact List.all_eq_true.mp all char (List.contains_iff_mem.mp isBlank)
  punctuation_word char listed := by
    have apart : punctuation.all
        (fun other => !(other.isAlphanum || other == '_')) = true := by decide
    have sign := List.all_eq_true.mp apart char (List.contains_iff_mem.mp listed)
    simpa only [Bool.not_eq_true'] using sign
  punctuation_space char listed := by
    have apart : punctuation.all (fun other => !Prune.asciiSpaces.contains other) = true := by
      decide
    have sign := List.all_eq_true.mp apart char (List.contains_iff_mem.mp listed)
    simpa only [Bool.not_eq_true'] using sign
  hyphen_space := by decide

theorem code_plain {text rest : Text} (plain : text.all plainChar = true) (code : Code rest) :
    Code (text ++ rest) := by
  induction text with
  | nil => exact code
  | cons char others ih =>
      rw [List.all_cons, Bool.and_eq_true] at plain
      exact .plain plain.1 (ih plain.2)

/-- `@mixin tint($color: mix(red, blue)) { color: $color; }`. -/
def callInDefault : MixinDefinition where
  before := []
  gap := [' ']
  name := "tint".toList
  signature := [] ++ '(' :: (("$color: mix".toList ++
    '(' :: (("red, blue".toList ++ []) ++ ')' :: [])) ++ ')' :: [' '])
  body := " color: $color; ".toList ++ []
  after := [] ++ []
  context := .top .nothing .nothing (.inl rfl)
  starts := ⟨[], [], rfl, .nothing, nofun⟩
  isGap := .blank (by decide) .nothing
  gapSome := List.cons_ne_nil _ _
  isName := .plain (by decide) (.plain (by decide) (.plain (by decide)
    (.plain (by decide) .nothing)))
  nameSome := by decide
  isSignature := .params .nothing
    (@code_plain "$color: mix".toList _ (by decide)
      (.parens (@code_plain "red, blue".toList [] (by decide) .nothing) .nothing))
    (.blank (by decide) .nothing)
  isBody := code_plain (by decide) .nothing

/-- The header pattern stops at the inner parenthesis, so there is no entity at all. -/
theorem call_in_default_lost :
    callInDefault.source =
      "@mixin tint($color: mix(red, blue)) { color: $color; }".toList ∧
    ¬ ∀ definition : MixinDefinition, Covered asciiTables "web" "17.0" "web/a.scss" definition := by
  have none : finditer (mixinDef asciiTables) callInDefault.source = [] := by decide +kernel
  refine ⟨by decide +kernel, fun covered => ?_⟩
  obtain ⟨chunks, one, -⟩ := covered callInDefault
  rw [mixinEntities, none] at one
  cases one

end OdooSemantic.Indexer.ScssMixins
