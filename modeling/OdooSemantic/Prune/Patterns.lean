import OdooSemantic.Lib.Regex
import OdooSemantic.Lib.Runs

/-!
# The patterns of the source oracle

Each pattern looks for one identifier in a defining form.  Whatever form it is, the
identifier stands in the text with no identifier character before or after it.
-/

set_option autoImplicit false

namespace OdooSemantic.Prune

open Lib.Regex Lib.Runs

def punctuation : List Char := ".\\)=:'\"".toList

def pythonEnds (char : Char) : Bool := "\n\r".toList.contains char

def extraLineEnds : List Char :=
  [0x0b, 0x0c, 0x1c, 0x1d, 0x1e, 0x85, 0x2028, 0x2029].map Char.ofNat

/-- What ends a line for `str.splitlines` only. -/
def extraEnds (char : Char) : Bool := extraLineEnds.contains char

/-- What ends a line for `str.splitlines`. -/
def splitEnds (char : Char) : Bool := pythonEnds char || extraEnds char

/-- `[\w$]` and `\s` of `re` on text. -/
structure CharTables where
  word : Char → Bool
  space : Char → Bool
  space_word : ∀ char, space char = true → word char = false
  punctuation_word : ∀ char ∈ punctuation, word char = false
  ends_space : ∀ char, splitEnds char = true → space char = true

variable (tables : CharTables)

def CharTables.wordOrDot (char : Char) : Bool := tables.word char || char == '.'

/-- `[\s\\]`. -/
def CharTables.gap (char : Char) : Bool := tables.space char || char == '\\'

def quote (char : Char) : Bool := char == Char.ofNat 39 || char == Char.ofNat 34

def modelPattern (name : String) : Pattern Char :=
  .seq (.notBehind tables.wordOrDot) <| .seq (literal name.toList) <|
    .seq (.notAhead [tables.word]) (.notAhead [(· == '.'), tables.word])

def dottedPattern (name : String) : Pattern Char :=
  .seq (.notBehind tables.wordOrDot) <| .seq (literal name.toList) (.notAhead [tables.word])

def tokenPattern (name : String) : Pattern Char :=
  .seq (.notBehind tables.word) <| .seq (literal name.toList) (.notAhead [tables.word])

/-- `_field_pattern`: an assignment or annotation, or a quoted key. -/
def fieldPattern (name : String) : Pattern Char :=
  .alt
    (.seq (.notBehind tables.wordOrDot) <| .seq (literal name.toList) <|
      .seq (.many fun char => tables.gap char || char == ')') <|
        .alt (.seq (.one (· == '=')) (.notAhead [(· == '=')])) (.one (· == ':')))
    (.seq (.one quote) <| .seq (literal name.toList) <| .seq (.one quote) <|
      .seq (.many tables.gap) (.one (· == ':')))

def keywordPattern (keyword name : String) : Pattern Char :=
  .seq (.notBehind tables.word) <| .seq (literal keyword.toList) <| .seq (.one tables.gap) <|
    .seq (.many tables.gap) <| .seq (literal name.toList) (.notAhead [tables.word])

def defPattern (name : String) : Pattern Char := keywordPattern tables "def" name

def classPattern (name : String) : Pattern Char := keywordPattern tables "class" name

/-- The patterns that are searched by the identifier they are made of. -/
inductive Form where
  | model
  | dotted
  | token
  | field
  | method
  | cls
  deriving DecidableEq

def Form.pattern (form : Form) (ident : String) : Pattern Char :=
  match form with
  | .model => modelPattern tables ident
  | .dotted => dottedPattern tables ident
  | .token => tokenPattern tables ident
  | .field => fieldPattern tables ident
  | .method => defPattern tables ident
  | .cls => classPattern tables ident

/-- `\s` of ASCII text and of the line ends. -/
def asciiSpaces : List Char :=
  " \t\n\r".toList ++ extraLineEnds ++ [Char.ofNat 0x1f]

variable {char : Char} {holds : Char → Bool} {rest : Pattern Char} {name : String} {ident : String}

theorem ends_asciiSpaces (isEnd : splitEnds char = true) : char ∈ asciiSpaces := by
  have all : ("\n\r".toList ++ extraLineEnds).all asciiSpaces.contains = true := by decide
  refine List.contains_iff_mem.mp (List.all_eq_true.mp all char (List.mem_append.mpr ?_))
  exact (Bool.or_eq_true_iff.mp isEnd).imp List.contains_iff_mem.mp List.contains_iff_mem.mp

def asciiTables : CharTables where
  word char := char.isAlphanum || char == '_' || char == '$'
  space := asciiSpaces.contains
  space_word char isSpace := by
    have apart : asciiSpaces.all
        (fun other => !(other.isAlphanum || other == '_' || other == '$')) = true := by decide
    have gap := List.all_eq_true.mp apart char (List.contains_iff_mem.mp isSpace)
    simpa only [Bool.not_eq_true'] using gap
  punctuation_word char listed := by
    have apart : punctuation.all
        (fun other => !(other.isAlphanum || other == '_' || other == '$')) = true := by decide
    simpa only [Bool.not_eq_true'] using List.all_eq_true.mp apart char listed
  ends_space char isEnd := List.contains_iff_mem.mpr (ends_asciiSpaces isEnd)

theorem gap_word (isGap : tables.gap char = true) : tables.word char = false := by
  obtain space | backslash := Bool.or_eq_true_iff.mp isGap
  · exact tables.space_word char space
  · rw [eq_of_beq backslash]
    exact tables.punctuation_word _ (by decide)

theorem quote_word (isQuote : quote char = true) : tables.word char = false := by
  obtain single | double := Bool.or_eq_true_iff.mp isQuote
  · rw [eq_of_beq single]
    exact tables.punctuation_word _ (by decide)
  · rw [eq_of_beq double]
    exact tables.punctuation_word _ (by decide)

def Shows (ident before matched after : List Char) : Prop :=
  ∃ left right, matched = left ++ ident ++ right ∧
    Bounded tables.word (before.reverse ++ left) (right ++ after)

theorem Shows.prepend {ident before lead matched after : List Char}
    (shows : Shows tables ident (lead.reverse ++ before) matched after) :
    Shows tables ident before (lead ++ matched) after := by
  obtain ⟨left, right, split, bounded⟩ := shows
  refine ⟨lead ++ left, right, by rw [split]; simp only [List.append_assoc], ?_⟩
  rwa [List.reverse_append, List.reverse_reverse, List.append_assoc] at bounded

/-- What a match of the pattern begins with, or what follows it, ends an identifier. -/
def Blocks (pattern : Pattern Char) : Prop :=
  ∀ before matched after, Matches pattern before matched after →
    ∀ char, (matched ++ after).head? = some char → tables.word char = false

theorem blocks_notAhead : Blocks tables (.notAhead [tables.word]) := by
  intro before matched after found char first
  obtain ⟨nothing, free⟩ := found
  rw [nothing, List.nil_append] at first
  cases after with
  | nil => cases first
  | cons other rest =>
      cases first
      simpa only [beginsWith, Bool.and_true] using free

theorem blocks_seq_notAhead (rest : Pattern Char) :
    Blocks tables (.seq (.notAhead [tables.word]) rest) := by
  intro before matched after found char first
  obtain ⟨left, right, split, ahead, -⟩ := found
  rw [split, List.append_assoc] at first
  exact blocks_notAhead tables before left (right ++ after) ahead char first

theorem blocks_one
    (free : ∀ char, holds char = true → tables.word char = false) :
    Blocks tables (.one holds) := by
  intro before matched after found char first
  obtain ⟨symbol, single, isHeld⟩ := found
  rw [single] at first
  cases first
  exact free char isHeld

theorem blocks_alt {first second : Pattern Char} (firstBlocks : Blocks tables first)
    (secondBlocks : Blocks tables second) : Blocks tables (.alt first second) := by
  intro before matched after found
  obtain left | right := found
  · exact firstBlocks before matched after left
  · exact secondBlocks before matched after right

theorem blocks_seq_one (rest : Pattern Char)
    (free : ∀ char, holds char = true → tables.word char = false) :
    Blocks tables (.seq (.one holds) rest) := by
  intro before matched after found char first
  obtain ⟨left, right, split, symbol, -⟩ := found
  rw [split, List.append_assoc] at first
  exact blocks_one tables free before left (right ++ after) symbol char first

theorem blocks_seq_many
    (free : ∀ char, holds char = true → tables.word char = false)
    (restBlocks : Blocks tables rest) : Blocks tables (.seq (.many holds) rest) := by
  intro before matched after found char first
  obtain ⟨left, right, split, all, restFound⟩ := found
  rw [split, List.append_assoc] at first
  cases left with
  | nil => exact restBlocks _ right after restFound char first
  | cons other others =>
      cases first
      exact free char (all char List.mem_cons_self)

theorem shows_literal {before matched after : List Char}
    (left : ∀ char, before.head? = some char → tables.word char = false)
    (blocks : Blocks tables rest)
    (found : Matches (.seq (literal name.toList) rest) before matched after) :
    Shows tables name.toList before matched after := by
  obtain ⟨ident, right, split, isName, restFound⟩ := found
  refine ⟨[], right, by rw [split, matches_literal.mp isName, List.nil_append], ?_, ?_⟩
  · intro char last
    rw [List.append_nil, List.getLast?_reverse] at last
    exact left char last
  · exact blocks _ right after restFound

/-- The identifier follows a match that looks back. -/
theorem shows_notBehind
    {before matched after : List Char}
    (free : ∀ char, holds char = false → tables.word char = false)
    (blocks : Blocks tables rest)
    (found : Matches (.seq (.notBehind holds) (.seq (literal name.toList) rest))
      before matched after) :
    Shows tables name.toList before matched after := by
  obtain ⟨lead, other, split, ⟨nothing, behind⟩, restFound⟩ := found
  rw [nothing, List.nil_append] at split
  rw [nothing, List.reverse_nil, List.nil_append] at restFound
  rw [split]
  exact shows_literal tables (fun char last => free char (behind char last)) blocks restFound

theorem shows_after_one
    {before matched after : List Char}
    (free : ∀ char, holds char = true → tables.word char = false)
    (blocks : Blocks tables rest)
    (found : Matches (.seq (.one holds) (.seq (literal name.toList) rest)) before matched after) :
    Shows tables name.toList before matched after := by
  obtain ⟨lead, other, split, ⟨symbol, single, isHeld⟩, restFound⟩ := found
  rw [split]
  refine Shows.prepend tables (shows_literal tables (fun char last => ?_) blocks restFound)
  rw [single] at last
  cases last
  exact free symbol isHeld

/-- The identifier follows a gap of one or more symbols. -/
theorem shows_after_gap {before matched after : List Char}
    (blocks : Blocks tables rest)
    (found : Matches (.seq (.one tables.gap) <| .seq (.many tables.gap) <|
      .seq (literal name.toList) rest) before matched after) :
    Shows tables name.toList before matched after := by
  obtain ⟨first, others, split, ⟨symbol, single, isGap⟩, more, tail, parts, all, restFound⟩ :=
    found
  rw [split, parts, ← List.append_assoc]
  refine Shows.prepend tables ?_
  rw [List.reverse_append, List.append_assoc]
  refine shows_literal tables (fun char last => ?_) blocks restFound
  rw [List.head?_append, List.head?_reverse] at last
  cases final : more.getLast? with
  | none =>
      rw [final, single] at last
      cases last
      exact gap_word tables isGap
  | some other =>
      rw [final] at last
      cases last
      exact gap_word tables (all char (List.mem_of_getLast? final))

theorem wordOrDot_word (char : Char) (free : tables.wordOrDot char = false) :
    tables.word char = false :=
  (Bool.or_eq_false_iff.mp free).1

theorem equals_or_colon_blocks :
    Blocks tables (.alt (.seq (.one (· == '=')) (.notAhead [(· == '=')])) (.one (· == ':'))) := by
  refine blocks_alt tables (blocks_seq_one tables _ ?_) (blocks_one tables ?_)
  · intro char same
    rw [eq_of_beq same]
    exact tables.punctuation_word _ (by decide)
  · intro char same
    rw [eq_of_beq same]
    exact tables.punctuation_word _ (by decide)

theorem gap_or_paren_word (char : Char) (isHeld : (tables.gap char || char == ')') = true) :
    tables.word char = false := by
  obtain isGap | paren := Bool.or_eq_true_iff.mp isHeld
  · exact gap_word tables isGap
  · rw [eq_of_beq paren]
    exact tables.punctuation_word _ (by decide)

theorem matches_keyword {keyword name : String} {before matched after : List Char}
    (found : Matches (keywordPattern tables keyword name) before matched after) :
    Shows tables name.toList before matched after := by
  obtain ⟨lead, others, split, -, keywordText, rest, parts, -, gapFound⟩ := found
  rw [split, parts, ← List.append_assoc]
  refine Shows.prepend tables ?_
  rw [List.reverse_append, List.append_assoc]
  exact shows_after_gap tables (blocks_notAhead tables) gapFound

theorem matches_shows {form : Form} {before matched after : List Char}
    (found : Matches (form.pattern tables ident) before matched after) :
    Shows tables ident.toList before matched after := by
  cases form with
  | model =>
      exact shows_notBehind tables (wordOrDot_word tables) (blocks_seq_notAhead tables _) found
  | dotted =>
      exact shows_notBehind tables (wordOrDot_word tables) (blocks_notAhead tables) found
  | token => exact shows_notBehind tables (fun _ free => free) (blocks_notAhead tables) found
  | field =>
      obtain assigned | quoted := found
      · exact shows_notBehind tables (wordOrDot_word tables)
          (blocks_seq_many tables (gap_or_paren_word tables) (equals_or_colon_blocks tables))
          assigned
      · exact shows_after_one tables (fun _ => quote_word tables)
          (blocks_seq_one tables _ fun _ => quote_word tables) quoted
  | method | cls => exact matches_keyword tables found

theorem search_runs {form : Form} {text : List Char}
    (found : search (form.pattern tables ident) text = true) {run : List Char}
    (listed : run ∈ runs tables.word ident.toList) : run ∈ runs tables.word text := by
  obtain ⟨before, matched, after, split, isMatch⟩ := search_iff.mp found
  obtain ⟨left, right, parts, bounded⟩ := matches_shows tables isMatch
  rw [List.reverse_reverse] at bounded
  have whole := runs_of_bounded tables.word bounded listed
  have same : text = before ++ left ++ ident.toList ++ (right ++ after) := by
    rw [split, parts]
    simp only [List.append_assoc]
  rwa [same]

theorem search_token {text before after : List Char}
    (isRun : RunAt tables.word text ident.toList before after) :
    search (tokenPattern tables ident) text = true := by
  obtain ⟨split, -, -, bounded⟩ := isRun
  refine search_iff.mpr ⟨before, ident.toList, after, split, [], ident.toList, rfl, ⟨rfl, ?_⟩,
    ident.toList, [], (List.append_nil _).symm, matches_literal.mpr rfl, rfl, ?_⟩
  · intro char last
    rw [List.head?_reverse] at last
    exact bounded.left char last
  · cases after with
    | nil => rfl
    | cons char rest =>
        rw [beginsWith, bounded.right char rfl]
        rfl

theorem ends_word (isWord : tables.word char = true) : splitEnds char = false := by
  cases isEnd : splitEnds char with
  | false => rfl
  | true =>
      rw [tables.space_word char (tables.ends_space char isEnd)] at isWord
      cases isWord

end OdooSemantic.Prune
