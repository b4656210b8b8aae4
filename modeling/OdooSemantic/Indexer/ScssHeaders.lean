import OdooSemantic.Indexer.ScssParser

/-!
# The headers of mixins

What the header pattern matches, that there is one way to read a header, and where a
header runs over another one.
-/

namespace OdooSemantic.Indexer.ScssHeaders

open Lib.Regex Lib.Scan
open Indexer.ScssParser
open Indexer.JsChunks (Text)

/-! ## What the header pattern matches -/

/-- The parts of a match of the header pattern. -/
structure Header where
  blank : Text
  name : Text
  gap : Text
  params : Text

/-- A match without its brace. -/
def Header.lead (header : Header) : Text :=
  "@mixin".toList ++ (header.blank ++ (header.name ++ (header.gap ++ header.params)))

def Header.text (header : Header) : Text := header.lead ++ ['{']

section Headers
variable (tables : CharTables)

def AllSpace (text : Text) : Prop := ∀ char ∈ text, tables.space char = true

inductive Params : Text → Prop where
  | nothing : Params []
  | parens {inner gap : Text} (free : ')' ∉ inner) (blank : AllSpace tables gap) :
      Params ('(' :: (inner ++ ')' :: gap))

structure Header.Fits (header : Header) : Prop where
  blankSome : header.blank ≠ []
  blankSpace : AllSpace tables header.blank
  nameSome : header.name ≠ []
  nameChars : ∀ char ∈ header.name, tables.nameChar char = true
  gapSpace : AllSpace tables header.gap
  params : Params tables header.params

variable {tables}

theorem nameChar_space {char : Char} (named : tables.nameChar char = true) :
    tables.space char = false := by
  obtain word | hyphen := Bool.or_eq_true_iff.mp named
  · cases space : tables.space char with
    | false => rfl
    | true =>
        rw [tables.space_word char space] at word
        cases word
  · rw [eq_of_beq hyphen]
    exact tables.hyphen_space

theorem punctuation_nameChar {char : Char} (listed : punctuation.contains char = true)
    (other : char ≠ '-') : tables.nameChar char = false := by
  rw [CharTables.nameChar, tables.punctuation_word char listed, Bool.false_or]
  exact beq_eq_false_iff_ne.mpr other

theorem space_nameChar {char : Char} (space : tables.space char = true) :
    tables.nameChar char = false := by
  cases named : tables.nameChar char with
  | false => rfl
  | true =>
      rw [nameChar_space named] at space
      cases space

theorem brace_space : tables.space '{' = false := tables.punctuation_space _ (by decide)

theorem opens_space : tables.space '(' = false := tables.punctuation_space _ (by decide)

theorem brace_nameChar : tables.nameChar '{' = false := punctuation_nameChar (by decide) (by decide)

theorem opens_nameChar : tables.nameChar '(' = false := punctuation_nameChar (by decide) (by decide)

theorem at_free {text : Text} (space : AllSpace tables text) : '@' ∉ text := by
  intro listed
  have isSpace := space _ listed
  rw [tables.punctuation_space '@' (by decide)] at isSpace
  cases isSpace

theorem matches_oneOrMore {holds : Char → Bool} {before matched after : Text} :
    Matches (oneOrMore holds) before matched after ↔
      matched ≠ [] ∧ ∀ char ∈ matched, holds char = true := by
  constructor
  · intro found
    obtain ⟨left, right, split, ⟨first, single, isFirst⟩, others⟩ := found
    rw [split, single]
    refine ⟨List.cons_ne_nil _ _, fun char listed => ?_⟩
    obtain same | later := List.mem_cons.mp listed
    · rw [same]
      exact isFirst
    · exact others char later
  · intro given
    obtain ⟨nonempty, all⟩ := given
    obtain ⟨first, others, parts⟩ := List.exists_cons_of_ne_nil nonempty
    refine ⟨[first], others, parts, ⟨first, rfl, ?_⟩, fun char listed => ?_⟩
    · exact all first (by rw [parts]; exact List.mem_cons_self)
    · exact all char (by rw [parts]; exact List.mem_cons_of_mem _ listed)

theorem matches_maybeParens {before matched after : Text} :
    Matches maybeParens before matched after ↔
      matched = [] ∨ ∃ inner, matched = '(' :: (inner ++ [')']) ∧ ')' ∉ inner := by
  constructor
  · intro found
    obtain ⟨left, right, split, ⟨opened, single, isOpened⟩, inner, closing, parts, free,
      closed, last, isClosed⟩ | none := found
    · refine .inr ⟨inner, ?_, fun listed => ?_⟩
      · rw [split, parts, single, last, eq_of_beq isOpened, eq_of_beq isClosed]
        rfl
      · have other : (')' != ')') = true := free _ listed
        rw [bne_self_eq_false] at other
        cases other
    · refine .inl (List.eq_nil_iff_forall_not_mem.mpr fun char listed => ?_)
      exact absurd (none char listed) Bool.false_ne_true
  · intro given
    obtain none | ⟨inner, split, free⟩ := given
    · rw [none]
      exact .inr fun _ listed => absurd listed List.not_mem_nil
    · refine .inl ⟨['('], inner ++ [')'], split, ⟨'(', rfl, rfl⟩, inner, [')'], rfl, ?_,
        ')', rfl, rfl⟩
      intro char listed
      refine bne_iff_ne.mpr fun same => free ?_
      rwa [← same]

theorem matches_mixinDef {before matched after : Text} :
    Matches (mixinDef tables) before matched after ↔
      ∃ header : Header, header.Fits tables ∧ matched = header.text := by
  constructor
  · intro found
    obtain ⟨at_, fromBlank, split, isAt, blank, fromName, splitBlank, isBlank, name, fromGap,
      splitName, isName, gap, fromParens, splitGap, isGap, parens, fromLast, splitParens, isParens,
      last, brace, splitLast, isLast, one, single, isBrace⟩ := found
    obtain ⟨blankSome, blankSpace⟩ := matches_oneOrMore.mp isBlank
    obtain ⟨nameSome, nameChars⟩ := matches_oneOrMore.mp isName
    have parts : matched = "@mixin".toList ++ (blank ++ (name ++ (gap ++ (parens ++
        (last ++ ['{']))))) := by
      rw [split, matches_literal.mp isAt, splitBlank, splitName, splitGap, splitParens, splitLast,
        single, eq_of_beq isBrace]
    obtain none | ⟨inner, parensParts, free⟩ := matches_maybeParens.mp isParens
    · refine ⟨⟨blank, name, gap ++ last, []⟩,
        ⟨blankSome, blankSpace, nameSome, nameChars, ?_, .nothing⟩, ?_⟩
      · intro char listed
        obtain first | second := List.mem_append.mp listed
        · exact isGap char first
        · exact isLast char second
      · rw [parts, none, Header.text, Header.lead]
        simp only [List.append_assoc, List.nil_append]
    · refine ⟨⟨blank, name, gap, '(' :: (inner ++ ')' :: last)⟩,
        ⟨blankSome, blankSpace, nameSome, nameChars, isGap, .parens free isLast⟩, ?_⟩
      rw [parts, parensParts, Header.text, Header.lead]
      simp only [List.append_assoc, List.cons_append, List.nil_append]
  · intro given
    obtain ⟨⟨blank, name, gap, params⟩, fits, same⟩ := given
    have shape : ∃ parens last, params = parens ++ last ∧ AllSpace tables last ∧
        (parens = [] ∨ ∃ inner, parens = '(' :: (inner ++ [')']) ∧ ')' ∉ inner) := by
      cases fits.params with
      | nothing => exact ⟨[], [], rfl, fun _ listed => absurd listed List.not_mem_nil, .inl rfl⟩
      | @parens inner last free blank =>
          refine ⟨'(' :: (inner ++ [')']), last, ?_, blank, .inr ⟨inner, rfl, free⟩⟩
          simp only [List.cons_append, List.append_assoc, List.nil_append]
    obtain ⟨parens, last, split, lastSpace, isParens⟩ := shape
    refine ⟨"@mixin".toList, _, ?_, matches_literal.mpr rfl, blank, _, rfl,
      matches_oneOrMore.mpr ⟨fits.blankSome, fits.blankSpace⟩, name, _, rfl,
      matches_oneOrMore.mpr ⟨fits.nameSome, fits.nameChars⟩, gap, _, rfl, fits.gapSpace, parens, _,
      rfl, matches_maybeParens.mpr isParens, last, ['{'], rfl, lastSpace, '{', rfl, rfl⟩
    rw [same, Header.text, Header.lead, split]
    simp only [List.append_assoc]

theorem params_head {params rest : Text} (fits : Params tables params) {char : Char}
    (first : (params ++ '{' :: rest).head? = some char) : char = '{' ∨ char = '(' := by
  cases fits with
  | nothing =>
      cases first
      exact .inl rfl
  | parens free blank =>
      cases first
      exact .inr rfl

theorem space_stops {symbol : Char} {rest : Text} (stop : tables.space symbol = false) :
    ∀ char, (symbol :: rest).head? = some char → tables.space char = false := by
  intro char first
  cases first
  exact stop

theorem params_unique {left right afterLeft afterRight : Text} (fitsLeft : Params tables left)
    (fitsRight : Params tables right)
    (same : left ++ '{' :: afterLeft = right ++ '{' :: afterRight) :
    left = right ∧ afterLeft = afterRight := by
  cases fitsLeft with
  | nothing =>
      cases fitsRight with
      | nothing => exact ⟨rfl, (List.cons_eq_cons.mp same).2⟩
      | parens free blank =>
          have heads : '{' = '(' := (List.cons_eq_cons.mp same).1
          cases heads
  | @parens inner gap free blank =>
      cases fitsRight with
      | nothing =>
          have heads : '(' = '{' := (List.cons_eq_cons.mp same).1
          cases heads
      | @parens other gapOther freeOther blankOther =>
          have inside := (List.cons_eq_cons.mp same).2
          simp only [List.append_eq, List.append_assoc, List.cons_append] at inside
          have apart : ∀ {text : Text}, ')' ∉ text → ∀ char ∈ text, (char != ')') = true := by
            intro text absent char listed
            exact bne_iff_ne.mpr fun equal => absent (by rwa [← equal])
          have stops : ∀ {rest : Text} (char : Char),
              (')' :: rest).head? = some char → (char != ')') = false := by
            intro rest char first
            cases first
            rfl
          obtain ⟨sameInner, rests⟩ := run_unique inside (apart free) (apart freeOther) stops stops
          obtain ⟨sameGap, braces⟩ := run_unique (List.cons_eq_cons.mp rests).2 blank blankOther
            (space_stops brace_space) (space_stops brace_space)
          exact ⟨by rw [sameInner, sameGap], (List.cons_eq_cons.mp braces).2⟩

theorem tail_unique {gapLeft gapRight left right afterLeft afterRight : Text}
    (spaceLeft : AllSpace tables gapLeft) (spaceRight : AllSpace tables gapRight)
    (fitsLeft : Params tables left) (fitsRight : Params tables right)
    (same : gapLeft ++ (left ++ '{' :: afterLeft) = gapRight ++ (right ++ '{' :: afterRight)) :
    gapLeft = gapRight ∧ left = right ∧ afterLeft = afterRight := by
  have stop : ∀ {params rest : Text}, Params tables params →
      ∀ char, (params ++ '{' :: rest).head? = some char → tables.space char = false := by
    intro params rest fits char first
    obtain brace | opens := params_head fits first
    · rw [brace]
      exact brace_space
    · rw [opens]
      exact opens_space
  obtain ⟨sameGap, rests⟩ := run_unique same spaceLeft spaceRight (stop fitsLeft) (stop fitsRight)
  exact ⟨sameGap, params_unique fitsLeft fitsRight rests⟩

theorem tail_stops {gap params rest : Text} (space : AllSpace tables gap)
    (fits : Params tables params) (char : Char)
    (first : (gap ++ (params ++ '{' :: rest)).head? = some char) : tables.nameChar char = false := by
  cases gap with
  | nil =>
      obtain brace | opens := params_head fits first
      · rw [brace]
        exact brace_nameChar
      · rw [opens]
        exact opens_nameChar
  | cons symbol others =>
      cases first
      exact space_nameChar (space _ List.mem_cons_self)

theorem name_stops {name rest : Text} (nonempty : name ≠ [])
    (chars : ∀ char ∈ name, tables.nameChar char = true) (char : Char)
    (first : (name ++ rest).head? = some char) : tables.space char = false := by
  obtain ⟨symbol, others, parts⟩ := List.exists_cons_of_ne_nil nonempty
  rw [parts, List.cons_append, List.head?_cons, Option.some.injEq] at first
  rw [← first]
  exact nameChar_space (chars _ (by rw [parts]; exact List.mem_cons_self))

theorem Header.text_append (header : Header) (after : Text) :
    header.text ++ after = "@mixin".toList ++ (header.blank ++ (header.name ++ (header.gap ++
      (header.params ++ '{' :: after)))) := by
  rw [Header.text, Header.lead]
  simp only [List.append_assoc, List.cons_append, List.nil_append]

theorem header_unique {left right : Header} {afterLeft afterRight : Text}
    (fitsLeft : left.Fits tables) (fitsRight : right.Fits tables)
    (same : left.text ++ afterLeft = right.text ++ afterRight) :
    left = right ∧ afterLeft = afterRight := by
  obtain ⟨blank, name, gap, params⟩ := left
  obtain ⟨blankRight, nameRight, gapRight, paramsRight⟩ := right
  rw [Header.text_append, Header.text_append] at same
  obtain ⟨sameBlank, names⟩ := run_unique (List.append_cancel_left same) fitsLeft.blankSpace
    fitsRight.blankSpace (name_stops fitsLeft.nameSome fitsLeft.nameChars)
    (name_stops fitsRight.nameSome fitsRight.nameChars)
  obtain ⟨sameName, gaps⟩ := run_unique names fitsLeft.nameChars fitsRight.nameChars
    (tail_stops fitsLeft.gapSpace fitsLeft.params)
    (tail_stops fitsRight.gapSpace fitsRight.params)
  obtain ⟨sameGap, sameParams, afters⟩ := tail_unique fitsLeft.gapSpace fitsRight.gapSpace
    fitsLeft.params fitsRight.params gaps
  dsimp only at sameBlank sameName sameGap sameParams
  exact ⟨by rw [sameBlank, sameName, sameGap, sameParams], afters⟩

theorem matchLen_iff {text : Text} {position len : Nat} :
    matchLen (mixinDef tables) text position = some len ↔
      ∃ header : Header, ∃ after, header.Fits tables ∧
        text.drop position = header.text ++ after ∧ header.text.length = len := by
  constructor
  · intro found
    obtain ⟨matched, after, split, length, meets⟩ := matchLen_some found
    obtain ⟨header, fits, same⟩ := matches_mixinDef.mp meets
    rw [same] at split length
    exact ⟨header, after, fits, split, length⟩
  · intro given
    obtain ⟨header, after, fits, split, length⟩ := given
    refine matchLen_of_unique (fun matched others splitOther meets => ?_) split
      (matches_mixinDef.mpr ⟨header, fits, rfl⟩)
    obtain ⟨other, fitsOther, same⟩ := matches_mixinDef.mp meets
    rw [same, split] at splitOther
    obtain ⟨equal, -⟩ := header_unique fits fitsOther splitOther
    rw [same, ← equal, length]

variable (tables) in
inductive OpenHeader : Text → Prop where
  | mk {blank name gap inner : Text} (blankSome : blank ≠ []) (blankSpace : AllSpace tables blank)
      (nameSome : name ≠ []) (nameChars : ∀ char ∈ name, tables.nameChar char = true)
      (gapSpace : AllSpace tables gap) (free : ')' ∉ inner) :
      OpenHeader ("@mixin".toList ++ (blank ++ (name ++ (gap ++ '(' :: inner))))

variable (tables) in
inductive ClosesHeader : Text → Prop where
  | mk {inner gap further : Text} (free : ')' ∉ inner) (blank : AllSpace tables gap) :
      ClosesHeader (inner ++ ')' :: (gap ++ '{' :: further))

variable (tables) in
/-- What looks like a header has begun and goes on over a position. -/
def Spanned (before rest : Text) : Prop :=
  ClosesHeader tables rest ∧
    ∃ earlier opened, before = earlier ++ opened ∧ OpenHeader tables opened

/-- Before the parentheses of a header only its first symbol is an `@`. -/
theorem at_front {blank name gap : Text} (blankSpace : AllSpace tables blank)
    (nameChars : ∀ char ∈ name, tables.nameChar char = true) (gapSpace : AllSpace tables gap) :
    '@' ∉ "mixin".toList ++ (blank ++ (name ++ gap)) := by
  intro listed
  obtain word | listed := List.mem_append.mp listed
  · exact absurd word (by decide)
  obtain inBlank | listed := List.mem_append.mp listed
  · exact at_free blankSpace inBlank
  obtain inName | inGap := List.mem_append.mp listed
  · have named := nameChars _ inName
    rw [punctuation_nameChar (by decide) (by decide)] at named
    cases named
  · exact at_free gapSpace inGap

/-- An `@` inside a header is in its parentheses. -/
theorem at_inside {header : Header} (fits : header.Fits tables) {left right : Text}
    (nonempty : left ≠ []) (same : header.text = left ++ '@' :: right) :
    OpenHeader tables left ∧ ∃ inner gap, right = inner ++ ')' :: (gap ++ ['{']) ∧
      ')' ∉ inner ∧ AllSpace tables gap := by
  obtain ⟨first, others, parts⟩ := List.exists_cons_of_ne_nil nonempty
  have front := at_front fits.blankSpace fits.nameChars fits.gapSpace
  have cut : header.text = '@' :: (("mixin".toList ++ (header.blank ++ (header.name ++
      header.gap))) ++ (header.params ++ ['{'])) := by
    rw [Header.text, Header.lead]
    simp only [List.append_assoc]
    rfl
  rw [parts, cut, List.cons_append] at same
  obtain ⟨isAt, rest⟩ := List.cons_eq_cons.mp same
  obtain ⟨further, leftParts, paramsParts⟩ := free_append front rest
  cases shape : header.params with
  | nil =>
      rw [shape, List.nil_append] at paramsParts
      have listed : '@' ∈ ['{'] := by
        rw [paramsParts]
        exact List.mem_append_right _ List.mem_cons_self
      exact absurd listed (by decide)
  | cons symbol tail =>
      have meets := fits.params
      rw [shape] at meets paramsParts
      cases meets with
      | @parens inner gap free blank =>
          obtain ⟨inside, furtherParts, insideParts⟩ := @free_append _ '@' ['('] _ further right
            (by decide) paramsParts
          have closes : '@' ∉ ')' :: (gap ++ ['{']) := by
            intro listed
            obtain same | listed := List.mem_cons.mp listed
            · cases same
            obtain inGap | last := List.mem_append.mp listed
            · exact at_free blank inGap
            · exact absurd last (by decide)
          have split : inner ++ (')' :: (gap ++ ['{'])) = inside ++ '@' :: right := by
            rw [← insideParts]
            simp only [List.append_eq, List.append_assoc, List.cons_append]
          obtain ⟨middle, insideIs, back⟩ | ⟨middle, innerIs, back⟩ :=
            List.append_eq_append_iff.mp split
          · have listed : '@' ∈ ')' :: (gap ++ ['{']) := by
              rw [back]
              exact List.mem_append_right _ List.mem_cons_self
            exact absurd listed closes
          · cases middle with
            | nil =>
                have heads : '@' = ')' := (List.cons_eq_cons.mp back).1
                cases heads
            | cons other more =>
                obtain ⟨-, rightIs⟩ := List.cons_eq_cons.mp back
                refine ⟨?_, more, gap, rightIs, fun listed => free ?_, blank⟩
                · have opened : left = "@mixin".toList ++ (header.blank ++ (header.name ++
                      (header.gap ++ '(' :: inside))) := by
                    rw [parts, ← isAt, leftParts, furtherParts]
                    simp only [List.append_assoc]
                    rfl
                  rw [opened]
                  exact .mk fits.blankSome fits.blankSpace fits.nameSome fits.nameChars
                    fits.gapSpace fun listed => free (by
                      rw [innerIs]
                      exact List.mem_append_left _ listed)
                · rw [innerIs]
                  exact List.mem_append_right _ (List.mem_cons_of_mem _ listed)

theorem header_nested {header : Header} (fits : header.Fits tables) {inner gap after others : Text}
    (free : ')' ∉ inner) (blank : AllSpace tables gap)
    (same : header.text ++ others = inner ++ ')' :: (gap ++ '{' :: after)) :
    header.text.length ≤ (inner ++ ')' :: (gap ++ ['{'])).length := by
  have front : ')' ∉ "@mixin".toList ++ (header.blank ++ (header.name ++ header.gap)) := by
    intro listed
    obtain word | listed := List.mem_append.mp listed
    · exact absurd word (by decide)
    have spaceFree : ∀ {text : Text}, AllSpace tables text → ')' ∉ text := by
      intro text space there
      have isSpace := space _ there
      rw [tables.punctuation_space ')' (by decide)] at isSpace
      cases isSpace
    obtain inBlank | listed := List.mem_append.mp listed
    · exact spaceFree fits.blankSpace inBlank
    obtain inName | inGap := List.mem_append.mp listed
    · have named := fits.nameChars _ inName
      rw [punctuation_nameChar (by decide) (by decide)] at named
      cases named
    · exact spaceFree fits.gapSpace inGap
  have cut : header.text ++ others = ("@mixin".toList ++ (header.blank ++ (header.name ++
      header.gap))) ++ (header.params ++ '{' :: others) := by
    rw [Header.text_append]
    simp only [List.append_assoc]
  have lengths : header.text.length = ("@mixin".toList ++ (header.blank ++ (header.name ++
      header.gap))).length + header.params.length + 1 := by
    simp only [Header.text, Header.lead, List.length_append, List.length_singleton]
    omega
  rw [cut] at same
  obtain ⟨further, innerIs, paramsIs⟩ := free_append front same
  have absent : ')' ∉ further := fun listed => free (by
    rw [innerIs]
    exact List.mem_append_right _ listed)
  rw [lengths, innerIs]
  simp only [List.length_append, List.length_cons, List.length_nil]
  cases further with
  | nil =>
      obtain brace | opens := @params_head tables _ others fits.params ')' (by rw [paramsIs]; rfl)
      · cases brace
      · cases opens
  | cons symbol rest =>
      have meets := fits.params
      cases shape : header.params with
      | nil =>
          simp only [List.length_cons, List.length_nil]
          omega
      | cons first tail =>
          rw [shape] at meets paramsIs
          have heads : first = symbol := (List.cons_eq_cons.mp paramsIs).1
          have opens : first = '(' := by
            cases meets
            rfl
          rw [← heads, opens] at absent
          have whole : (first :: tail) ++ '{' :: others =
              ('(' :: (rest ++ ')' :: gap)) ++ '{' :: after := by
            rw [paramsIs, ← heads, opens]
            simp only [List.cons_append, List.append_assoc]
          have same := (params_unique meets
            (.parens (fun listed => absent (List.mem_cons_of_mem _ listed)) blank) whole).1
          rw [same]
          simp only [List.length_append, List.length_cons]
          omega

theorem header_starts (header : Header) : ∃ rest, header.text = '@' :: rest := ⟨_, rfl⟩

/-- What of a header is at and after a later position where a text goes on with an `@`. -/
theorem header_over {header : Header} (fits : header.Fits tables) {text after rest : Text}
    {first second : Nat} (split : text.drop first = header.text ++ after)
    (there : text.drop second = '@' :: rest) (later : first < second)
    (inside : second < first + header.text.length) :
    OpenHeader tables ((text.take second).drop first) ∧ ∃ inner gap,
      '@' :: rest = inner ++ ')' :: (gap ++ '{' :: after) ∧ ')' ∉ inner ∧ AllSpace tables gap ∧
        second + (inner ++ ')' :: (gap ++ ['{'])).length = first + header.text.length := by
  have shift : (text.drop first).drop (second - first) = text.drop second := by
    rw [List.drop_drop]
    congr 1
    omega
  have length : ((text.take second).drop first).length = second - first := by
    have long : second < text.length := by
      by_contra short
      rw [List.drop_eq_nil_of_le (Nat.le_of_not_lt short)] at there
      cases there
    rw [List.length_drop, List.length_take]
    omega
  have apart : header.text ++ after = (text.take second).drop first ++ '@' :: rest := by
    calc header.text ++ after = text.drop first := split.symm
      _ = (text.drop first).take (second - first) ++ (text.drop first).drop (second - first) :=
          (List.take_append_drop _ _).symm
      _ = (text.take second).drop first ++ '@' :: rest := by rw [shift, there, List.drop_take]
  obtain ⟨extra, openedIs, -⟩ | ⟨tail, headerIs, tailIs⟩ := List.append_eq_append_iff.mp apart
  · have longer := congrArg List.length openedIs
    rw [List.length_append] at longer
    omega
  · have lengths := congrArg List.length headerIs
    rw [List.length_append] at lengths
    cases tail with
    | nil =>
        rw [List.length_nil] at lengths
        omega
    | cons symbol right =>
        obtain ⟨isAt, restIs⟩ := List.cons_eq_cons.mp tailIs
        rw [← isAt] at headerIs lengths
        have some : (text.take second).drop first ≠ [] := by
          intro none
          rw [none, List.length_nil] at length
          omega
        obtain ⟨opened, inner, gap, rightIs, free, blank⟩ := at_inside fits some headerIs
        refine ⟨opened, '@' :: inner, gap, ?_, ?_, blank, ?_⟩
        · rw [restIs, rightIs]
          simp only [List.append_eq, List.append_assoc, List.cons_append, List.nil_append]
        · intro listed
          obtain same | listed := List.mem_cons.mp listed
          · cases same
          · exact free listed
        · rw [rightIs, List.length_cons] at lengths
          rw [List.cons_append, List.length_cons]
          omega

/-- Headers nest: what the scan needs to find them one by one. -/
theorem mixinDef_nested {text : Text} {first second len other : Nat}
    (found : matchLen (mixinDef tables) text first = some len)
    (foundInside : matchLen (mixinDef tables) text second = some other)
    (later : first < second) (inside : second < first + len) :
    second + other ≤ first + len := by
  obtain ⟨outer, after, fits, split, length⟩ := matchLen_iff.mp found
  obtain ⟨header, others, fitsInside, splitInside, lengthInside⟩ := matchLen_iff.mp foundInside
  obtain ⟨rest, starts⟩ := header_starts header
  have there : text.drop second = '@' :: (rest ++ others) := by
    rw [splitInside, starts, List.cons_append]
  rw [← length] at inside ⊢
  obtain ⟨-, inner, gap, restIs, free, blank, ends⟩ := header_over fits split there later inside
  have same : header.text ++ others = inner ++ ')' :: (gap ++ '{' :: after) := by
    rw [← splitInside, there, restIs]
  have shorter := header_nested fitsInside free blank same
  omega

/-- A match that starts before a position runs over it exactly when the text says so. -/
theorem spanned_iff {before rest : Text} :
    (∃ earlier other, earlier < before.length ∧
      matchLen (mixinDef tables) (before ++ '@' :: rest) earlier = some other ∧
      before.length < earlier + other) ↔ Spanned tables before ('@' :: rest) := by
  have there : (before ++ '@' :: rest).drop before.length = '@' :: rest := List.drop_left
  constructor
  · intro given
    obtain ⟨earlier, other, later, found, inside⟩ := given
    obtain ⟨header, after, fits, split, length⟩ := matchLen_iff.mp found
    rw [← length] at inside
    obtain ⟨opened, inner, gap, restIs, free, blank, -⟩ :=
      header_over fits split there later inside
    rw [List.take_left] at opened
    refine ⟨?_, before.take earlier, before.drop earlier, (List.take_append_drop _ _).symm, opened⟩
    rw [restIs]
    exact .mk free blank
  · intro given
    obtain ⟨closes, earlier, opened, split, opens⟩ := given
    generalize shape : '@' :: rest = tail at closes
    cases closes with
    | @mk inner gap further free blank =>
        cases opens with
        | @mk blankOpen name gapOpen innerOpen blankSome blankSpace nameSome nameChars gapSpace
            freeOpen =>
            refine ⟨earlier.length, _, ?_, matchLen_iff.mpr
              ⟨⟨blankOpen, name, gapOpen, '(' :: ((innerOpen ++ inner) ++ ')' :: gap)⟩, further,
                ⟨blankSome, blankSpace, nameSome, nameChars, gapSpace, .parens ?_ blank⟩, ?_, rfl⟩,
              ?_⟩
            · rw [split, List.length_append]
              simp only [List.length_append, List.length_cons]
              omega
            · intro listed
              obtain inOpen | inRest := List.mem_append.mp listed
              · exact freeOpen inOpen
              · exact free inRest
            · rw [split, List.append_assoc, List.drop_left, Header.text_append]
              simp only [List.append_assoc, List.cons_append]
            · rw [split]
              simp only [Header.text, Header.lead, List.length_append, List.length_cons]
              omega

end Headers

end OdooSemantic.Indexer.ScssHeaders
