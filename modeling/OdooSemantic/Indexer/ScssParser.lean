import OdooSemantic.Lib.Nesting
import OdooSemantic.Lib.Scan
import OdooSemantic.Indexer.EmbeddingChunks

/-!
# The SCSS parser

Patterns find the constructs of a stylesheet, each kind on its own pass over the text;
a block is what a counter of braces says. What is found is cut into windows.
-/

namespace OdooSemantic.Indexer.ScssParser

open Lib.Lines Lib.Nesting Lib.Regex
open Lib.Scan Lib.Windows
open Prune (splitEnds stem)
open Indexer.EmbeddingChunks (ChunkKind SCSSChunk)
open Indexer.JsChunks (ModuleInfo Text sizes)

/-- What the patterns name of a text beside letters. -/
def punctuation : List Char :=
  [Char.ofNat 34, Char.ofNat 39] ++ "@$:;(){}/\\.,#".toList

def blanks : List Char := [' ', '\t', '\n', '\r', Char.ofNat 12]

/-- `\w` and `\s` of `re` on text. -/
structure CharTables where
  word : Char → Bool
  space : Char → Bool
  space_word : ∀ char, space char = true → word char = false
  blank_space : ∀ char, blanks.contains char = true → space char = true
  punctuation_word : ∀ char, punctuation.contains char = true → word char = false
  punctuation_space : ∀ char, punctuation.contains char = true → space char = false
  hyphen_space : space '-' = false

section Patterns
variable (tables : CharTables)

/-- `[\w-]`. -/
def CharTables.nameChar (char : Char) : Bool := tables.word char || char == '-'

/-- A letter under `re.IGNORECASE`: two of them have a third form that is no ASCII. -/
def ignoringCase (letter char : Char) : Bool :=
  char == letter || char == letter.toUpper ||
    (letter == 'i' && (char == Char.ofNat 0x130 || char == Char.ofNat 0x131)) ||
    (letter == 's' && char == Char.ofNat 0x17f)

def wordIgnoringCase : List Char → Pattern Char
  | [] => .many fun _ => false
  | letter :: rest => .seq (.one (ignoringCase letter)) (wordIgnoringCase rest)

def oneOrMore (holds : Char → Bool) : Pattern Char := .seq (.one holds) (.many holds)

/-- `(?:\([^)]*\))?`. -/
def maybeParens : Pattern Char :=
  .alt (.seq (.one (· == '(')) (.seq (.many (· != ')')) (.one (· == ')')))) (.many fun _ => false)

def quote (char : Char) : Bool := char == Char.ofNat 34 || char == Char.ofNat 39

/-- `_RE_SCSS_VAR`, at the start of a line. -/
def scssVar : Pattern Char :=
  .seq (.many tables.space) <| .seq (.one (· == '$')) <| .seq (oneOrMore tables.nameChar) <|
    .seq (.many tables.space) (.one (· == ':'))

/-- `_RE_MIXIN_DEF`. -/
def mixinDef : Pattern Char :=
  .seq (literal "@mixin".toList) <| .seq (oneOrMore tables.space) <| .seq (oneOrMore tables.nameChar) <|
    .seq (.many tables.space) <| .seq maybeParens <| .seq (.many tables.space) (.one (· == '{'))

/-- `_RE_INCLUDE`. -/
def includeUse : Pattern Char :=
  .seq (literal "@include".toList) <| .seq (oneOrMore tables.space) <| .seq (oneOrMore tables.nameChar) <|
    .seq maybeParens <| .seq (.many tables.space) (.one (· == ';'))

/-- `_RE_EXTEND`. -/
def extendUse : Pattern Char :=
  .seq (literal "@extend".toList) <| .seq (oneOrMore tables.space) <| .seq (oneOrMore (· != ';'))
    (.one (· == ';'))

/-- `_RE_IMPORT`. -/
def importUse : Pattern Char :=
  .seq (.one (· == '@')) <|
    .seq (.alt (wordIgnoringCase "import".toList)
      (.alt (wordIgnoringCase "use".toList) (wordIgnoringCase "forward".toList))) <|
    .seq (oneOrMore tables.space) <| .seq (.one quote) <| .seq (oneOrMore fun char => !quote char)
      (.one quote)

/-- `_RE_MEDIA`. -/
def mediaBlock : Pattern Char :=
  .seq (.one (· == '@')) <| .seq (wordIgnoringCase "media".toList) <|
    .seq (.one tables.space) <| .seq (oneOrMore (· != '{')) (.one (· == '{'))

def endsSelector (char : Char) : Bool := char == '{' || char == '}' || char == '\n'

/-- `_RE_SELECTOR`, at the start of a line. -/
def selectorBlock : Pattern Char :=
  .seq (.notBehind (· != '\n')) <|
    .seq (.one fun char =>
      !(char == '@' || char == '$' || tables.space char || endsSelector char)) <|
    .seq (.many fun char => !endsSelector char) <|
    .seq (.many tables.space) (.one (· == '{'))

end Patterns

section Parser
variable (tables : CharTables)

/-- `text.rstrip()` and `text.strip()`. -/
def rstrip (text : Text) : Text := (text.reverse.dropWhile tables.space).reverse

def strip (text : Text) : Text := rstrip tables (text.dropWhile tables.space)

/-- `_extract_block`: the block that starts at `start`, and where it ends. -/
def extractBlock (text : Text) (start : Nat) : Text × Nat :=
  match closeAt '{' '}' 0 (text.drop start) with
  | some len => ((text.drop start).take len, start + len)
  | none => (text.drop start, text.length)

def group (src : Text) (found : Nat × Nat) : Text := (src.drop found.1).take found.2

def lineBefore (src : Text) (start : Nat) : Text :=
  ((src.take start).reverse.takeWhile (· != '\n')).reverse

def lineAfter (src : Text) (stop : Nat) : Text := (src.drop stop).takeWhile (· != '\n')

structure StylesheetInfo where
  filePath : String
  module : String
  odooVersion : String
  language : String
  selectorCount : Nat
  variableCount : Nat
  importCount : Nat
  mixinCount : Nat
  imports : List Text

-- `_resolve_scss_import` looks into the file system.
variable (resolve : Text → String → Option Text)
variable (src : Text) (module version filePath : String)

def emit (content : Text) (chunkKind : ChunkKind) (entityName : Text) : List SCSSChunk :=
  (cut sizes content).map fun window =>
    ⟨module, version, filePath, chunkKind, String.ofList entityName, window.1, window.2⟩

def stemText : Text := (stem filePath).toList

def flushVarBlock (varBlock : List Text) : List SCSSChunk :=
  if varBlock.isEmpty then []
  else emit module version filePath (joinLines varBlock) .variableBlock
    (stemText filePath ++ ":variables".toList)

def isVariable (line : Text) : Bool := matchesAtStart (scssVar tables) line

def variableChunks (varBlock : List Text) : List Text → List SCSSChunk
  | [] => flushVarBlock module version filePath varBlock
  | line :: rest =>
      if isVariable tables line then
        variableChunks (varBlock ++ [rstrip tables line]) rest
      else if !varBlock.isEmpty && !(strip tables line).isEmpty then
        flushVarBlock module version filePath varBlock ++ variableChunks [] rest
      else variableChunks varBlock rest

def importPath (matched : Text) : Text :=
  ((matched.dropWhile fun char => !quote char).drop 1).takeWhile fun char => !quote char

def importChunks (found : Nat × Nat) : List SCSSChunk :=
  emit module version filePath
    (strip tables (lineBefore src found.1 ++ group src found ++ lineAfter src (found.1 + found.2)))
    .importRule (stemText filePath)

/-- The name of a definition: what follows the blanks after `@mixin`. -/
def mixinName (matched : Text) : Text :=
  ((matched.drop 6).dropWhile tables.space).takeWhile tables.nameChar

/-- A definition is its header without the brace, and the block that begins with the brace. -/
def mixinChunks (found : Nat × Nat) : List SCSSChunk :=
  let matched := group src found
  emit module version filePath
    (matched.take (matched.length - 1) ++ (extractBlock src (found.1 + found.2 - 1)).1)
    .mixin (mixinName tables matched)

def includeChunks (found : Nat × Nat) : List SCSSChunk :=
  emit module version filePath (group src found) .includeRule (stemText filePath)

def extendChunks (found : Nat × Nat) : List SCSSChunk :=
  emit module version filePath (group src found) .extendRule (stemText filePath)

def mediaChunks (found : Nat × Nat) : List SCSSChunk :=
  let header := strip tables ((group src found).takeWhile (· != '{'))
  emit module version filePath
    (header ++ " ".toList ++ (extractBlock src (found.1 + found.2 - 1)).1) .media header

def selectorChunks (found : Nat × Nat) : List SCSSChunk :=
  let header := strip tables ((group src found).takeWhile fun char => !endsSelector char)
  emit module version filePath
    (header ++ " ".toList ++ (extractBlock src (found.1 + found.2 - 1)).1) .selector
    (header.take 80)

def constructChunks : List SCSSChunk :=
  variableChunks tables module version filePath [] (lines splitEnds src) ++
    ((finditer (importUse tables) src).flatMap (importChunks tables src module version filePath) ++
    ((finditer (mixinDef tables) src).flatMap (mixinChunks tables src module version filePath) ++
    ((finditer (includeUse tables) src).flatMap (includeChunks src module version filePath) ++
    ((finditer (extendUse tables) src).flatMap (extendChunks src module version filePath) ++
    ((finditer (mediaBlock tables) src).flatMap (mediaChunks tables src module version filePath) ++
    (finditer (selectorBlock tables) src).flatMap
      (selectorChunks tables src module version filePath))))))

/-- `_parse_scss_regex`: a text without constructs is one raw text. -/
def parseScssRegex : List SCSSChunk × StylesheetInfo :=
  let chunks := constructChunks tables src module version filePath
  let found := finditer (importUse tables) src
  (if chunks.isEmpty then emit module version filePath src .raw (stemText filePath) else chunks,
    { filePath := filePath, module := module, odooVersion := version, language := "scss"
      selectorCount := (finditer (selectorBlock tables) src).length
      variableCount := (lines splitEnds src).countP (isVariable tables)
      importCount := found.length
      mixinCount := (finditer (mixinDef tables) src).length
      imports := found.map fun one =>
        let path := importPath (group src one)
        (resolve path filePath).getD path })

end Parser

end OdooSemantic.Indexer.ScssParser
